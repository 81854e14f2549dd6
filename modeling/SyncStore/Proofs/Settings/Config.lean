import SyncStore.Proofs.Settings.Environment
import SyncStore.Proofs.Text.Casing
import SyncStore.Remote.RemoteDestination
import SyncStore.Settings.Config

/-! A configuration is read from exactly the environments whose seven variables are acceptable. -/

namespace SyncStore

/-- The word of a text is what is left in lower case when blanks are trimmed. -/
def wordOf (raw : String) : String := String.ofList (lowerCase (trimBlanks raw.toList))

/-- A text of small characters without blanks is its own word. -/
theorem wordOf_of_small {word : String}
    (plain : word.toList.all fun c => decide (IsSmall c) && !isBlank c) : wordOf word = word := by
  simp only [List.all_eq_true, Bool.and_eq_true, decide_eq_true_eq, Bool.not_eq_true'] at plain
  rw [wordOf, trimBlanks_of_visible fun c inside => (plain c inside).2,
    lowerCase_of_small fun c inside => (plain c inside).1, String.ofList_toList]

namespace BackendKind

/-- The words that name a kind. -/
def words : BackendKind → List String
  | .toml => ["toml"]
  | .yaml => ["yaml", "yml"]
  | .redis => ["redis"]

/-- A kind is read from exactly the texts whose word names it. -/
theorem read_eq_ok_iff {raw : String} {kind : BackendKind} :
    BackendKind.read raw = .ok kind ↔ wordOf raw ∈ kind.words := by
  show (if wordOf raw = "toml" then Except.ok BackendKind.toml
    else if wordOf raw = "yaml" ∨ wordOf raw = "yml" then .ok .yaml
    else if wordOf raw = "redis" then .ok .redis else .error (wordOf raw)) = _ ↔ _
  -- The words of different kinds differ, so the first test that succeeds is the only one.
  split_ifs with toml yaml redis
  · rw [toml]
    cases kind <;> simp [words]
  · cases kind <;> rcases yaml with yaml | yaml <;> simp [words, yaml]
  · rw [redis]
    cases kind <;> simp [words]
  · rw [not_or] at yaml
    cases kind <;> simp [words, toml, yaml, redis]

/-- The name of a kind is one of its words. -/
theorem wordOf_name (kind : BackendKind) : wordOf kind.name ∈ kind.words := by
  have plain : wordOf kind.name = kind.name := by
    cases kind <;> exact wordOf_of_small (by decide)
  rw [plain]
  cases kind <;> decide

end BackendKind

namespace Config

/-- The variables that a configuration is read from. -/
inductive Variable where
  | version
  | batchSize
  | backend
  | storageDir
  | filename
  | writeOnUpdate
  | redisUrl

namespace Variable

/-- The name of a variable in the environment. -/
def key : Variable → String
  | .version => "KVSYNC_CONFIG_VERSION"
  | .batchSize => "KVSYNC_BATCH_SIZE"
  | .backend => "KVSYNC_BACKEND"
  | .storageDir => "KVSYNC_STORAGE_DIR"
  | .filename => "KVSYNC_FILENAME"
  | .writeOnUpdate => "KVSYNC_WRITE_ON_UPDATE"
  | .redisUrl => "REDIS_URL"

/-- The variables in the order in which they are read. -/
def inOrder : List Variable :=
  [.version, .batchSize, .backend, .storageDir, .filename, .writeOnUpdate, .redisUrl]

/-- No variable is left out of the order. -/
theorem mem_inOrder (v : Variable) : v ∈ inOrder := by
  cases v <;> simp [inOrder]

/-- The texts that a variable may be set to. -/
def Accepts : Variable → String → Prop
  | .version, raw => ∃ n, SpellsInteger (trimBlanks raw.toList) n ∧ 0 ≤ n ∧ n ≤ 2 ^ 32 - 1
  | .batchSize, raw => ∃ n, SpellsInteger (trimBlanks raw.toList) n ∧ 0 ≤ n ∧ n ≤ 2 ^ 63 - 1
  | .backend, raw => wordOf raw ∈ ["toml", "yaml", "yml", "redis"]
  | .writeOnUpdate, raw => (readBool? raw).isSome
  | .storageDir, _ | .filename, _ | .redisUrl, _ => True

/-- A variable is accepted when it is unset, or set to a text that it may be set to. -/
def Accepted (environment : Environment) (v : Variable) : Prop :=
  environment.Gives v.key True v.Accepts

/-- The fault of a text that should be an integer of a range. -/
def integerFault? (range : IntegerRange) (raw : String) : Option IntegerFault :=
  failure? (IntegerRange.signed64.read 10 (trimBlanks raw.toList) >>= range.check)

/-- Why a text is refused as the content of a variable. -/
def fault? : Variable → String → Option ConfigError
  | .version, raw => (integerFault? .unsigned32 raw).map fun fault =>
    .setting (.variable version.key (.notInteger fault))
  | .batchSize, raw => (integerFault? .unsigned64 raw).map fun fault =>
    .setting (.variable batchSize.key (.notInteger fault))
  | .backend, raw => failure? ((BackendKind.read raw).mapError .unknownBackend)
  | .writeOnUpdate, raw =>
    if (readBool? raw).isSome then none
    else some (.setting (.variable writeOnUpdate.key (.notBoolean raw)))
  | .storageDir, _ | .filename, _ | .redisUrl, _ => none

/-- Why a variable is refused, if it is. -/
def refusal? (environment : Environment) (v : Variable) : Option ConfigError :=
  environment.refusal? v.key .setting v.fault?

end Variable

open Variable (integerFault?)

/-- An integer of a range is spelled by the text, or it is the default. -/
theorem getIntIn_eq_ok_iff {environment : Environment} {range : IntegerRange} {key : String}
    {default n : Int} (inside : range.Includes default) :
    getIntIn environment range key default = .ok n ↔
      environment.Gives key (n = default) fun raw =>
        SpellsInteger (trimBlanks raw.toList) n ∧
          IntegerRange.signed64.Includes n ∧ range.Includes n := by
  constructor
  · intro read
    unfold getIntIn at read
    cases known : environment.getInt key default with
    | error error =>
      rw [known] at read
      cases read
    | ok m =>
      rw [known] at read
      obtain ⟨rfl, within⟩ := IntegerRange.check_eq_ok_iff.mp (mapError_eq_ok.mp read)
      exact (Environment.getInt_eq_ok_iff.mp known).imp id
        fun _ ⟨spelled, word⟩ => ⟨spelled, word, within⟩
  · intro given
    have known : environment.getInt key default = .ok n :=
      Environment.getInt_eq_ok_iff.mpr (given.imp id
        fun _ ⟨spelled, word, _⟩ => ⟨spelled, word⟩)
    -- The range includes the default, and it includes what a text gives.
    have within : range.Includes n :=
      (given.imp (fun unset => unset ▸ inside) fun _ spelled => spelled.2.2).elim
    simp only [getIntIn, known]
    exact mapError_eq_ok.mpr (IntegerRange.check_eq_ok_iff.mpr ⟨rfl, within⟩)

/-- An integer outside of the range is refused like a text that is no integer. -/
theorem failure?_getIntIn {environment : Environment} {range : IntegerRange} {key : String}
    {default : Int} (inside : range.Includes default) :
    failure? ((getIntIn environment range key default).mapError ConfigError.setting) =
      environment.refusal? key .setting fun raw => (integerFault? range raw).map fun fault =>
        .setting (.variable key (.notInteger fault)) := by
  have checked := IntegerRange.check_eq_ok_iff.mpr ⟨rfl, inside⟩
  rw [getIntIn, Environment.getInt, Environment.text?, Environment.refusal?]
  cases environment.lookup key with
  | none => simp [checked]
  | some content =>
    cases content with
    | binary bytes => rfl
    | text raw =>
      -- The text is no integer of 64 bits, or it is one and the range decides.
      simp only [integerFault?]
      cases IntegerRange.signed64.read 10 (trimBlanks raw.toList) with
      | error fault => rfl
      | ok n =>
        simp only [bind, Except.bind]
        cases range.check n <;> rfl

/-- The name of the backend is read and looked up in one step. -/
def readBackend (environment : Environment) : Except ConfigError BackendKind := do
  let raw ← (environment.getStr Variable.backend.key "toml").mapError .setting
  (BackendKind.read raw).mapError .unknownBackend

/-- The backend is given by the word of its variable, and it is TOML when that is unset. -/
theorem readBackend_eq_ok_iff {environment : Environment} {kind : BackendKind} :
    readBackend environment = .ok kind ↔
      environment.Gives Variable.backend.key (kind = .toml) (wordOf · ∈ kind.words) := by
  -- The default is read like any other word.
  have unset : wordOf "toml" ∈ kind.words ↔ kind = .toml := by
    rw [wordOf_of_small (by decide)]
    cases kind <;> simp [BackendKind.words]
  simp only [readBackend, bind_eq_ok, mapError_eq_ok, BackendKind.read_eq_ok_iff]
  rw [Environment.exists_getStr_iff, unset]

/-- The backend is refused when its word names none. -/
theorem failure?_readBackend (environment : Environment) :
    failure? (readBackend environment) = Variable.backend.refusal? environment := by
  have unset : BackendKind.read "toml" = .ok .toml :=
    BackendKind.read_eq_ok_iff.mpr (BackendKind.wordOf_name .toml)
  exact Environment.failure?_getStr_bind (by rw [unset, mapError_ok, failure?_ok])

/-- A configuration is read in seven steps, one for each variable. -/
theorem fromEnvironment_eq (environment : Environment) :
    fromEnvironment environment = do
      let version ← (getIntIn environment .unsigned32 Variable.version.key 1).mapError .setting
      let batchSize ←
        (getIntIn environment .unsigned64 Variable.batchSize.key 1000).mapError .setting
      let backend ← readBackend environment
      let storageDir ← (environment.getStr Variable.storageDir.key default.storageDir).mapError
        .setting
      let filename ← (environment.getStr Variable.filename.key default.filename).mapError .setting
      let writeOnUpdate ← (environment.getBool Variable.writeOnUpdate.key true).mapError .setting
      let redisUrl ← (environment.getStr Variable.redisUrl.key default.redisUrl).mapError .setting
      return ⟨backend, storageDir, filename, .ofNat version.toNat, writeOnUpdate,
        .ofNat batchSize.toNat, redisUrl⟩ := by
  simp only [fromEnvironment, readBackend, bind_assoc, Variable.key]

/--
A configuration has the values that an environment gives.

- a number is spelled by the text of its variable, between any blanks
- a word counts in any case, between any blanks
- every other text is taken as it is
-/
structure Matches (config : Config) (environment : Environment) : Prop where
  version : environment.Gives Variable.version.key (config.version = 1)
    fun raw => SpellsInteger (trimBlanks raw.toList) config.version.toNat
  batchSize : environment.Gives Variable.batchSize.key (config.batchSize = 1000)
    fun raw => SpellsInteger (trimBlanks raw.toList) config.batchSize.toNat ∧
      config.batchSize.toNat < 2 ^ 63
  backend : environment.Gives Variable.backend.key (config.backend = .toml)
    (wordOf · ∈ config.backend.words)
  storageDir : environment.Gives Variable.storageDir.key
    (config.storageDir = "~/.config/kvsync") (· = config.storageDir)
  filename : environment.Gives Variable.filename.key (config.filename = "datastore")
    (· = config.filename)
  writeOnUpdate : environment.Gives Variable.writeOnUpdate.key (config.writeOnUpdate = true)
    (readBool? · = some config.writeOnUpdate)
  redisUrl : environment.Gives Variable.redisUrl.key
    (config.redisUrl = "redis://localhost:6379") (· = config.redisUrl)

/-- A version is a number of 32 bits. -/
theorem toNat_ofVersion {n : Int} (inside : IntegerRange.unsigned32.Includes n) :
    ((UInt32.ofNat n.toNat).toNat : Int) = n := by
  obtain ⟨lowest, highest⟩ := inside
  simp only [IntegerRange.unsigned32] at lowest highest
  rw [UInt32.toNat_ofNat_of_lt' (by rw [UInt32.size]; omega)]
  omega

/-- A batch size is a number of 64 bits. -/
theorem toNat_ofBatchSize {n : Int} (inside : IntegerRange.unsigned64.Includes n) :
    ((UInt64.ofNat n.toNat).toNat : Int) = n := by
  obtain ⟨lowest, highest⟩ := inside
  simp only [IntegerRange.unsigned64] at lowest highest
  rw [UInt64.toNat_ofNat_of_lt' (by rw [UInt64.size]; omega)]
  omega

/-- An environment is read as the configuration whose values it gives. -/
theorem fromEnvironment_eq_ok_iff {environment : Environment} {config : Config} :
    fromEnvironment environment = .ok config ↔ config.Matches environment := by
  have one : IntegerRange.unsigned32.Includes 1 := by decide
  have thousand : IntegerRange.unsigned64.Includes 1000 := by decide
  rw [fromEnvironment_eq]
  simp only [bind_eq_ok, mapError_eq_ok, readBackend_eq_ok_iff, Environment.getStr_eq_ok_iff,
    Environment.getBool_eq_ok_iff, getIntIn_eq_ok_iff one, getIntIn_eq_ok_iff thousand, pure,
    Except.pure, Except.ok.injEq]
  constructor
  · rintro ⟨version, readVersion, batchSize, readBatchSize, backend, readBackend, storageDir,
      readStorageDir, filename, readFilename, writeOnUpdate, readWriteOnUpdate, redisUrl,
      readRedisUrl, rfl⟩
    exact {
      version := readVersion.imp (fun unset => by rw [unset]; rfl)
        fun raw ⟨spelled, _, inside⟩ => by rwa [toNat_ofVersion inside]
      batchSize := readBatchSize.imp (fun unset => by rw [unset]; rfl)
        fun raw ⟨spelled, word, inside⟩ => by
          -- Both ranges hold: the upper end is that of signed words.
          have same := toNat_ofBatchSize inside
          obtain ⟨-, highest⟩ := word
          simp only [IntegerRange.signed64] at highest
          have bounded : (UInt64.ofNat batchSize.toNat).toNat < 2 ^ 63 := by omega
          exact ⟨by rwa [same], bounded⟩
      backend := readBackend
      storageDir := readStorageDir
      filename := readFilename
      writeOnUpdate := readWriteOnUpdate
      redisUrl := readRedisUrl }
  · intro given
    have version32 := config.version.toNat_lt
    have batchSize64 := config.batchSize.toNat_lt
    refine ⟨config.version.toNat, given.version.imp (fun unset => by rw [unset]; rfl)
      fun raw spelled => ⟨spelled, ?_, ?_⟩, config.batchSize.toNat,
      given.batchSize.imp (fun unset => by rw [unset]; rfl)
      fun raw spelled => ⟨spelled.1, ?_, ?_⟩, config.backend, given.backend, config.storageDir,
      given.storageDir, config.filename, given.filename, config.writeOnUpdate,
      given.writeOnUpdate, config.redisUrl, given.redisUrl, ?_⟩
    -- Every version fits both ranges, and a batch size fits the signed words by assumption.
    · simp only [IntegerRange.Includes, IntegerRange.signed64]
      omega
    · simp only [IntegerRange.Includes, IntegerRange.unsigned32]
      omega
    · have bounded := spelled.2
      simp only [IntegerRange.Includes, IntegerRange.signed64]
      omega
    · simp only [IntegerRange.Includes, IntegerRange.unsigned64]
      omega
    · simp only [Int.toNat_natCast, UInt32.ofNat_toNat, UInt64.ofNat_toNat]

/-- The first refused variable decides the error. -/
theorem failure?_fromEnvironment (environment : Environment) :
    failure? (fromEnvironment environment) =
      Variable.inOrder.findSome? (Variable.refusal? environment) := by
  have one : IntegerRange.unsigned32.Includes 1 := by decide
  have thousand : IntegerRange.unsigned64.Includes 1000 := by decide
  -- The failure of each step depends on its own variable alone.
  rw [fromEnvironment_eq, failure?_bind fun _ => failure?_bind fun _ => failure?_bind fun _ =>
    failure?_bind fun _ => failure?_bind fun _ => failure?_bind fun _ => failure?_bind fun _ =>
    failure?_pure _]
  have version : _ = Variable.version.refusal? environment := failure?_getIntIn one
  have batchSize : _ = Variable.batchSize.refusal? environment := failure?_getIntIn thousand
  have backend := failure?_readBackend environment
  have text (v : Variable) (default : String) (free : v.fault? = fun _ => none) :
      failure? ((environment.getStr v.key default).mapError .setting) =
        v.refusal? environment := by
    rw [Environment.failure?_getStr, Variable.refusal?, free]
  have writeOnUpdate :
      failure? ((environment.getBool Variable.writeOnUpdate.key true).mapError .setting) =
        Variable.writeOnUpdate.refusal? environment := Environment.failure?_getBool
  rw [version, batchSize, backend, text .storageDir _ rfl, text .filename _ rfl, writeOnUpdate,
    text .redisUrl _ rfl]
  simp only [Variable.inOrder, findSome?_cons_eq_or, List.findSome?_nil]

/-- A text has no fault exactly when its variable may be set to it. -/
theorem Variable.fault?_eq_none {v : Variable} {raw : String} :
    v.fault? raw = none ↔ v.Accepts raw := by
  have integer (range : IntegerRange) : integerFault? range raw = none ↔
      ∃ n, SpellsInteger (trimBlanks raw.toList) n ∧
        IntegerRange.signed64.Includes n ∧ range.Includes n := by
    have zero : IntegerRange.signed64.Includes 0 := by decide
    rw [integerFault?, failure?_eq_none]
    simp only [bind_eq_ok, IntegerRange.read_eq_ok_iff zero (by decide),
      IntegerRange.check_eq_ok_iff]
    constructor
    · rintro ⟨n, m, ⟨spelled, word⟩, rfl, inside⟩
      exact ⟨n, spelled, word, inside⟩
    · rintro ⟨n, spelled, word, inside⟩
      exact ⟨n, n, ⟨spelled, word⟩, rfl, inside⟩
  cases v with
  | version =>
    -- The range of versions lies within the signed words.
    rw [fault?, Option.map_eq_none_iff, integer]
    refine exists_congr fun n => and_congr_right fun _ => ?_
    simp only [IntegerRange.Includes, IntegerRange.signed64, IntegerRange.unsigned32]
    omega
  | batchSize =>
    rw [fault?, Option.map_eq_none_iff, integer]
    refine exists_congr fun n => and_congr_right fun _ => ?_
    -- No batch size above the signed words is read, so the lower of both upper ends counts.
    simp only [IntegerRange.Includes, IntegerRange.signed64, IntegerRange.unsigned64]
    omega
  | backend =>
    rw [fault?, failure?_eq_none]
    simp only [mapError_eq_ok, BackendKind.read_eq_ok_iff]
    constructor
    -- A word that names a kind is one of the four, and each of the four names one.
    · rintro ⟨kind, named⟩
      have known : kind.words ⊆ ["toml", "yaml", "yml", "redis"] := by cases kind <;> decide
      exact known named
    · intro accepted
      simp only [Accepts, List.mem_cons, List.not_mem_nil, or_false] at accepted
      rcases accepted with toml | yaml | yml | redis
      · exact ⟨.toml, by simp [BackendKind.words, toml]⟩
      · exact ⟨.yaml, by simp [BackendKind.words, yaml]⟩
      · exact ⟨.yaml, by simp [BackendKind.words, yml]⟩
      · exact ⟨.redis, by simp [BackendKind.words, redis]⟩
  | writeOnUpdate => simp [fault?, Accepts, Option.isSome_iff_ne_none]
  | storageDir => simp [fault?, Accepts]
  | filename => simp [fault?, Accepts]
  | redisUrl => simp [fault?, Accepts]

/-- A variable is refused exactly when it is not accepted. -/
theorem Variable.refusal?_eq_none {environment : Environment} {v : Variable} :
    v.refusal? environment = none ↔ v.Accepted environment := by
  rw [refusal?, Environment.refusal?_eq_none]
  exact Environment.gives_congr Iff.rfl fun _ => fault?_eq_none

/-- An environment is accepted when each of the seven variables is. -/
theorem exists_fromEnvironment_iff {environment : Environment} :
    (∃ config, fromEnvironment environment = .ok config) ↔
      ∀ v : Variable, v.Accepted environment := by
  rw [← failure?_eq_none, failure?_fromEnvironment, List.findSome?_eq_none_iff]
  constructor
  · intro none v
    exact Variable.refusal?_eq_none.mp (none v v.mem_inOrder)
  · intro accepted v _
    exact Variable.refusal?_eq_none.mpr (accepted v)

/-- A setting of the right type is refused when its one validator does not hold. -/
theorem failure?_setting (name : String) {value : SettingValue} (type : SettingType)
    (typed : value.type = type) (validator : Validator) :
    failure? (((Setting.new name value type).bind fun setting =>
      (setting.addValidator validator).validate).mapError ConfigError.setting) =
      if validator.holds value then none
      else some (.setting (.validation name validator.reason)) := by
  rw [Setting.new, Setting.build, dif_pos typed]
  -- The validator is attached under the name of the setting, and there is no other.
  show failure? (((do (validator.withName name).check value; pure ()).mapError
    ConfigError.setting)) = _
  have named : (validator.withName name).check value =
      if validator.holds value then .ok () else .error (.validation name validator.reason) := rfl
  rw [named]
  split <;> rfl

/-- The first setting whose validator does not hold decides the error. -/
theorem failure?_validate (config : Config) :
    failure? config.validate = config.settings.findSome? fun (name, value, _, validator) =>
      if validator.holds value then none
      else some (.setting (.validation name validator.reason)) := by
  refine failure?_forM fun setting known => failure?_setting setting.1 setting.2.2.1 ?_ _
  -- Every setting is declared with the type that it has.
  simp only [settings, List.mem_cons, List.not_mem_nil, or_false] at known
  rcases known with rfl | rfl | rfl | rfl <;> rfl

/-- A batch size is read as a signed word, so it is positive below the highest signed word. -/
theorem toInt64_pos_iff (n : UInt64) :
    0 < n.toInt64.toInt ↔ 1 ≤ n.toNat ∧ n.toNat ≤ 2 ^ 63 - 1 := by
  have bounded := n.toNat_lt
  -- A word from two to the sixty-third on turns negative.
  have wrapped : n.toInt64.toInt = (n.toNat : Int).bmod (2 ^ 64) :=
    BitVec.toInt_eq_toNat_bmod n.toBitVec
  rw [wrapped, Int.bmod_def]
  split <;> omega

/-- A configuration is valid when its batch size is a positive signed word and no text is empty. -/
theorem validate_eq_ok_iff {config : Config} :
    config.validate = .ok () ↔
      (1 ≤ config.batchSize.toNat ∧ config.batchSize.toNat ≤ 2 ^ 63 - 1) ∧
        config.filename ≠ "" ∧ config.storageDir ≠ "" ∧ config.redisUrl ≠ "" := by
  have unit : config.validate = .ok () ↔ failure? config.validate = none := by
    -- There is only one success.
    rw [failure?_eq_none]
    exact ⟨fun valid => ⟨(), valid⟩, fun ⟨⟨⟩, valid⟩ => valid⟩
  rw [unit, failure?_validate, List.findSome?_eq_none_iff, ← toInt64_pos_iff]
  simp [settings, Validator.numberNatural, Validator.stringNonEmpty, Validator.ofPredicate,
    SettingValue.int?, SettingValue.str?]

/-- A batch size above the signed words is refused, whatever the texts are. -/
theorem validate_of_large {config : Config} (large : 2 ^ 63 ≤ config.batchSize.toNat) :
    config.validate = .error (.setting
      (.validation "KVSYNC_BATCH_SIZE" "Must be a natural number (integer > 0)")) := by
  have wraps : ¬ 0 < config.batchSize.toInt64.toInt := by
    rw [toInt64_pos_iff]
    omega
  have fails : Validator.numberNatural.holds (.int config.batchSize.toInt64.toInt) = false := by
    simpa [Validator.numberNatural, Validator.ofPredicate, SettingValue.int?] using wraps
  -- The batch size is the first setting that is checked.
  rw [← failure?_eq_some, failure?_validate, settings, List.findSome?_cons]
  simp only [fails, Bool.false_eq_true, if_false]
  rfl

/-- A valid configuration has a batch size that a destination takes. -/
theorem ofNat_batchSize {config : Config} (valid : config.validate = .ok ()) :
    ∃ size, BatchSize.ofNat config.batchSize.toNat = .ok size ∧
      size.val = config.batchSize.toNat := by
  obtain ⟨⟨positive, -⟩, -⟩ := validate_eq_ok_iff.mp valid
  refine ⟨⟨config.batchSize.toNat, positive, config.batchSize.toNat_lt⟩, ?_, rfl⟩
  -- The number of a machine word is that word again.
  simp only [BatchSize.ofNat, UInt64.ofNat_toNat]
  exact dif_pos positive

/-- The environment in which every variable is set to the value of a configuration. -/
def environment (config : Config) : Environment :=
  [(Variable.version.key, .text (.ofList (Nat.toDigits 10 config.version.toNat))),
    (Variable.batchSize.key, .text (.ofList (Nat.toDigits 10 config.batchSize.toNat))),
    (Variable.backend.key, .text config.backend.name),
    (Variable.storageDir.key, .text config.storageDir),
    (Variable.filename.key, .text config.filename),
    (Variable.writeOnUpdate.key, .text (if config.writeOnUpdate then "true" else "false")),
    (Variable.redisUrl.key, .text config.redisUrl)]

/-- A written number has no blanks around it. -/
theorem spellsInteger_trimmed (n : Nat) :
    SpellsInteger (trimBlanks (String.ofList (Nat.toDigits 10 n)).toList) n := by
  have visible : ∀ c ∈ Nat.toDigits 10 n, isBlank c = false := fun c inside =>
    isBlank_digit (Decimal.isDigit_of_mem_toDigits inside)
  rw [String.toList_ofList, trimBlanks_of_visible visible]
  exact spellsInteger_toDigits n

/-- A boolean is read from its own word. -/
theorem readBool?_word (b : Bool) : readBool? (if b then "true" else "false") = some b := by
  have plain : wordOf (if b then "true" else "false") = if b then "true" else "false" := by
    cases b <;> exact wordOf_of_small (by decide)
  show (if ["true", "yes", "y", "1"].contains (wordOf (if b then "true" else "false")) then
      some true
    else if ["", "false", "no", "n", "0"].contains (wordOf (if b then "true" else "false")) then
      some false
    else none) = some b
  -- Each of the two words is in its own list, and the first list is asked first.
  rw [plain]
  cases b <;> decide

/-- A configuration is read back from its own environment, when its batch size is a signed word. -/
theorem fromEnvironment_environment {config : Config} (word : config.batchSize.toNat < 2 ^ 63) :
    fromEnvironment config.environment = .ok config := by
  rw [fromEnvironment_eq_ok_iff]
  exact {
    version := spellsInteger_trimmed _
    batchSize := ⟨spellsInteger_trimmed _, word⟩
    backend := BackendKind.wordOf_name _
    storageDir := rfl
    filename := rfl
    writeOnUpdate := readBool?_word _
    redisUrl := rfl }

/--
Environments are accepted exactly, and so are configurations.

- an environment is read when each of the seven variables is unset or acceptable
- what is read are the values that the environment gives, and the documented ones where it is unset
- otherwise the first refused variable decides the error
- a configuration is valid when its batch size is a positive signed word and no text is empty
- a larger batch size is refused, and a valid one is taken by a destination
- with a batch size among the signed words, a configuration is read back from its own environment
-/
theorem accepted_exactly :
    (∀ environment : Environment,
      ((∃ config, fromEnvironment environment = .ok config) ↔
        ∀ v : Variable, v.Accepted environment) ∧
      (∀ config, fromEnvironment environment = .ok config ↔ config.Matches environment) ∧
      failure? (fromEnvironment environment) =
        Variable.inOrder.findSome? (Variable.refusal? environment) ∧
      ∀ v : Variable, v.refusal? environment = none ↔ v.Accepted environment) ∧
    ∀ config : Config,
      (config.validate = .ok () ↔
        (1 ≤ config.batchSize.toNat ∧ config.batchSize.toNat ≤ 2 ^ 63 - 1) ∧
          config.filename ≠ "" ∧ config.storageDir ≠ "" ∧ config.redisUrl ≠ "") ∧
      (2 ^ 63 ≤ config.batchSize.toNat → config.validate = .error (.setting
        (.validation "KVSYNC_BATCH_SIZE" "Must be a natural number (integer > 0)"))) ∧
      (config.validate = .ok () → ∃ size, BatchSize.ofNat config.batchSize.toNat = .ok size ∧
        size.val = config.batchSize.toNat) ∧
      (config.batchSize.toNat < 2 ^ 63 → fromEnvironment config.environment = .ok config) :=
  ⟨fun _ => ⟨exists_fromEnvironment_iff, fun _ => fromEnvironment_eq_ok_iff,
    failure?_fromEnvironment _, fun _ => Variable.refusal?_eq_none⟩,
    fun _ => ⟨validate_eq_ok_iff, validate_of_large, ofNat_batchSize,
      fromEnvironment_environment⟩⟩

/-- A version may have a sign, zeros and blanks, and the batch size is the first to be too large. -/
theorem accepted_exactly_at_bounds :
    fromEnvironment [("KVSYNC_CONFIG_VERSION", .text " +07\t")] =
      .ok { default with version := 7 } ∧
    { default with batchSize := 0x8000000000000000 }.validate = .error (.setting
      (.validation "KVSYNC_BATCH_SIZE" "Must be a natural number (integer > 0)")) ∧
    fromEnvironment { default with batchSize := 0x7fffffffffffffff }.environment =
      .ok { default with batchSize := 0x7fffffffffffffff } := by
  have spelled : SpellsInteger (trimBlanks " +07\t".toList) 7 :=
    SpellsInteger.positive (List.cons_ne_nil '0' ['7']) (List.all_eq_true.mp rfl)
  refine ⟨((accepted_exactly.1 _).2.1 _).mpr ?_, (accepted_exactly.2 _).2.1 (by decide),
    (accepted_exactly.2 _).2.2.2 (by decide)⟩
  exact ⟨spelled, rfl, rfl, rfl, rfl, rfl, rfl⟩

end Config

end SyncStore
