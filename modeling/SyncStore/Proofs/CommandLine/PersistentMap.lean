import SyncStore.CommandLine.Session
import SyncStore.Proofs.CommandLine.OnFile
import SyncStore.Proofs.CommandLine.OnService
import SyncStore.Proofs.Files.Reopening

/-! The command line is a map that persists from one process to the next. -/

namespace SyncStore

/-- A new process has connections of its own. -/
def Outside.reconnected (outside : Outside) : Outside :=
  { outside with service := outside.service.reconnected }

namespace Config

variable {config : Config} {outside : Outside} {map : Data}

/-- A configuration without a file works on the service. -/
theorem backend_of_no_file {home : Option String} (resolved : config.file? home = none) :
    config.backend = .redis := by
  have unkept : config.backend.format? = none := Option.map_eq_none_iff.mp resolved
  cases kind : config.backend with
  | redis => rfl
  | _ => rw [kind] at unkept; cases unkept

/-- The service of a configuration can be reached, and read in its batches. -/
def Reaches (config : Config) (network : Network) : Prop :=
  ∃ size, Redis.open? network config.redisUrl config.batchSize.toNat = .ok size

/--
Nothing fails about the file or the service of a configuration.

- a file can be made, and is missing or read as data
- a service can be reached, and serves the connections of every new process
-/
def Works (config : Config) (outside : Outside) : Prop :=
  match config.file? outside.home with
  | some file =>
    file.CanBeMade outside.tree ∧
      (file.IsMissing outside.tree ∨ ∃ data, file.Reads data outside.tree)
  | none => config.Reaches outside.network ∧ ∀ side, outside.service.reconnected.Serving side

/-- The file or the service of a configuration stores a map. -/
def Stores (config : Config) (map : Data) (outside : Outside) : Prop :=
  match config.file? outside.home with
  | some file => file.Stores map outside.tree
  | none => config.Reaches outside.network ∧ outside.service.Stores map

/-- What works stores a map, which is empty for a missing file. -/
theorem exists_stores (works : config.Works outside) : ∃ map, config.Stores map outside := by
  cases resolved : config.file? outside.home with
  | some file =>
    rw [Works, resolved] at works
    simp only [Stores, resolved]
    -- Data that is read repeats no key in either format.
    obtain ⟨makes, missing | ⟨data, reads⟩⟩ := works
    · exact ⟨[], makes, Value.throughout_object.mpr ⟨OrderedMap.distinct_nil, nofun⟩,
        .inl ⟨missing, rfl⟩⟩
    · have ⟨text, held, read⟩ := reads
      exact ⟨data, makes, BackendKind.distinct_of_read (format_of_file? resolved) read,
        .inr ⟨data, reads, .same _⟩⟩
  | none =>
    rw [Works, resolved] at works
    simp only [Stores, resolved]
    obtain ⟨reaches, serving⟩ := works
    exact ⟨_, reaches, Service.stores_load serving⟩

/-- A map that is stored repeats no key. -/
theorem Stores.distinct (stores : config.Stores map outside) :
    (Value.object map).Throughout Value.DistinctKeys := by
  cases resolved : config.file? outside.home with
  | some file =>
    rw [Stores, resolved] at stores
    exact FileDestination.Stores.distinct stores
  | none =>
    rw [Stores, resolved] at stores
    exact stores.2.distinct

/-- A map in another order is stored as well. -/
theorem Stores.reordered (stores : config.Stores map outside) {other : Data}
    (order : (Value.object map).Reordered (.object other)) : config.Stores other outside := by
  cases resolved : config.file? outside.home with
  | some file =>
    simp only [Stores, resolved] at stores ⊢
    exact FileDestination.Stores.reordered stores order
  | none =>
    simp only [Stores, resolved] at stores ⊢
    exact ⟨stores.1, stores.2.reordered order⟩

/-- A map that is stored is taken by its backend, and all of it is kept. -/
theorem Stores.settled (stores : config.Stores map outside) :
    config.backend.takes map = true ∧
      (Value.object (config.backend.kept map)).Reordered (.object map) := by
  cases resolved : config.file? outside.home with
  | some file =>
    rw [Stores, resolved] at stores
    exact FileDestination.Stores.settled (format_of_file? resolved) stores
  | none =>
    rw [backend_of_no_file resolved]
    exact ⟨rfl, .same _⟩

end Config

namespace Invocation

variable {config : Config} {outside : Outside} {map : Data}

/-- A process carries out one command over connections of its own. -/
def process (config : Config) (command : Command) (outside : Outside) : Report × Outside :=
  perform config command outside.reconnected

/-- Processes follow one another, and each finds what the one before it left. -/
def processAll (config : Config) (commands : List Command) (outside : Outside) : Outside :=
  commands.foldl (fun outside command => (process config command outside).2) outside

/-- A process over a file leaves the rest of the outside as it is. -/
theorem process_of_file {file : FileDestination} (updates : config.writeOnUpdate = true)
    (resolved : config.file? outside.home = some file) (command : Command) :
    process config command outside =
      ((command.onFile file ⟨[], outside.tree, true, true⟩).1,
        { outside.reconnected with
          tree := (command.onFile file ⟨[], outside.tree, true, true⟩).2.outside }) := by
  have resolved : config.file? outside.reconnected.home = some file := resolved
  have fresh : (config.newFileDatastore file outside.reconnected.tree).state =
      ⟨[], outside.tree, true, true⟩ := by
    rw [Config.newFileDatastore, updates]
    rfl
  rw [process, perform, resolved]
  simp only [fresh]

/-- A process over the service leaves the rest of the outside as it is. -/
theorem process_of_service {size : BatchSize} (updates : config.writeOnUpdate = true)
    (resolved : config.file? outside.home = none)
    (opened : Redis.open? outside.network config.redisUrl config.batchSize.toNat = .ok size)
    (command : Command) :
    process config command outside =
      ((command.onService Redis.client size ⟨[], outside.service.reconnected, true, false⟩).1,
        { outside with service := (command.onService Redis.client size
            ⟨[], outside.service.reconnected, true, false⟩).2.outside }) := by
  have resolved : config.file? outside.reconnected.home = none := resolved
  have fresh : config.openService outside.reconnected.network outside.reconnected.service =
      .ok (size, ⟨config.version, ⟨[], outside.service.reconnected, true, false⟩⟩) := by
    have opened : Redis.open? outside.reconnected.network config.redisUrl
      config.batchSize.toNat = .ok size := opened
    simp only [Config.openService, Config.newServiceDatastore, updates, opened]
    rfl
  rw [process, perform, resolved]
  simp only [fresh]
  rfl

/-- One process answers about the map that is stored, and stores what its command makes of it. -/
theorem process_performs (updates : config.writeOnUpdate = true)
    (stores : config.Stores map outside) (command : Command) :
    command.Answers config.backend map (process config command outside).1 ∧
      (command.Fits config.backend map →
        config.Stores (command.applied config.backend map) (process config command outside).2) := by
  cases resolved : config.file? outside.home with
  | some file =>
    simp only [Config.Stores, resolved] at stores
    have performed := command.onFile_performs (Config.format_of_file? resolved) stores
    rw [process_of_file updates resolved command]
    refine ⟨performed.answers, fun fits => ?_⟩
    -- The home directory is still the same, and so is the file.
    have resolved : config.file? outside.reconnected.home = some file := resolved
    simp only [Config.Stores, resolved]
    exact performed.keeps fits
  | none =>
    simp only [Config.Stores, resolved] at stores
    obtain ⟨⟨size, opened⟩, stores⟩ := stores
    have performed := command.onService_performs size stores
    -- Without a file the backend is the service, which can still be reached.
    rw [process_of_service updates resolved opened command, Config.backend_of_no_file resolved]
    refine ⟨performed.answers, fun fits => ?_⟩
    simp only [Config.Stores, resolved]
    exact ⟨⟨size, opened⟩, performed.keeps fits⟩

/-- Processes that follow one another store what their commands make of the map. -/
theorem processAll_stores (updates : config.writeOnUpdate = true)
    (stores : config.Stores map outside) {commands : List Command}
    (fits : Command.AllFit config.backend map commands) :
    config.Stores (Command.appliedAll config.backend map commands)
      (processAll config commands outside) := by
  -- Each process starts from the map that the one before it stored.
  induction commands generalizing map outside with
  | nil => exact stores
  | cons command rest ih =>
    have performed := (process_performs updates stores command).2 fits.1
    exact ih performed fits.2

/--
What one process dumps, another one imports where nothing is stored yet.

The text has to be one that is read: its floats are read back, and it is not nested too deep.
-/
theorem import_of_dump {copy : Config} {fresh : Outside} {printed : Report}
    (updates : copy.writeOnUpdate = true) (empty : copy.Stores [] fresh)
    (distinct : (Value.object map).Throughout Value.DistinctKeys)
    (taken : copy.backend.takes map = true)
    (kept : (Value.object (copy.backend.kept map)).Reordered (.object map))
    (dumped : printed.Prints (.object map))
    (floats : (Value.object map).Throughout (Value.FloatSatisfies Binary64.ReadsBack))
    (nested : (Value.object map).nesting ≤ Json.maxDepth) (back : copy.backend.ReadsBack [] map) :
    (process copy (.importObject printed.output) fresh).1 = .silent ∧
      copy.Stores map (process copy (.importObject printed.output) fresh).2 := by
  obtain ⟨value, order, rfl, reads⟩ := dumped
  obtain ⟨members, -, rfl, -, -⟩ := order.of_object
  -- The text is read as the map in some order, which nothing is there to override.
  have writes : (Command.importObject (Report.value (.object members)).output).overrides? =
      some members := by
    have read := reads floats
    rw [if_pos nested] at read
    rw [Command.overrides?, read]
  have whole : OrderedMap.merge [] members = members :=
    OrderedMap.ofEntries_of_distinct (order.distinctKeys distinct.here)
  have same : copy.backend.takes members = true :=
    (copy.backend.takes_of_reordered order).trans taken
  obtain ⟨answers, stored⟩ := process_performs updates empty
    (.importObject (Report.value (.object members)).output)
  constructor
  · rw [Command.Answers, writes] at answers
    simp only [whole, same] at answers
    exact answers
  · have made := stored fun overrides found _ => by
      obtain rfl := Option.some.inj (writes.symm.trans found)
      exact back.of_reordered order distinct.here
    -- The whole map is taken, so what is kept of it is all of it.
    have result : Command.applied copy.backend [] (.importObject
        (Report.value (.object members)).output) = copy.backend.kept members := by
      rw [Command.applied, writes]
      simp only [BackendKind.merged, whole, same, if_true]
    rw [result] at made
    exact made.reordered ((copy.backend.kept_of_reordered order).trans kept)

/-- A dump of a map that is nested too deep is no text that is imported. -/
theorem import_of_deep_dump {copy : Config} {fresh : Outside} {other : Data} {printed : Report}
    (updates : copy.writeOnUpdate = true) (stores : copy.Stores other fresh)
    (dumped : printed.Prints (.object map))
    (floats : (Value.object map).Throughout (Value.FloatSatisfies Binary64.ReadsBack))
    (deep : Json.maxDepth < (Value.object map).nesting) :
    ∃ error, (process copy (.importObject printed.output) fresh).1 = .failed error := by
  obtain ⟨error, refused⟩ := dumped.refused floats deep
  -- What is no JSON text writes nothing.
  have answers := (process_performs updates stores (.importObject printed.output)).1
  rw [Command.Answers, Command.overrides?, refused] at answers
  exact answers

/--
The command line is one map that is kept from process to process.

Something that works stores a map, and after every run of commands that fit it:

- the map that they make of it is stored
- the next process answers about that map, whatever its command is
- its dump brings the map back when it is imported where the same backend has stored nothing yet
-/
theorem processes_keep_one_map {config : Config} {outside : Outside}
    (updates : config.writeOnUpdate = true) (works : config.Works outside) :
    ∃ map, config.Stores map outside ∧ ∀ commands, Command.AllFit config.backend map commands →
      let result := Command.appliedAll config.backend map commands
      let after := processAll config commands outside
      config.Stores result after ∧
        (∀ command : Command,
          command.Answers config.backend result (process config command after).1) ∧
        ∀ copy fresh, copy.backend = config.backend → copy.writeOnUpdate = true →
          copy.Stores [] fresh → config.backend.ReadsBack [] result →
          (Value.object result).Throughout (Value.FloatSatisfies Binary64.ReadsBack) →
          (Value.object result).nesting ≤ Json.maxDepth →
          let imported := process copy (.importObject (process config .dump after).1.output) fresh
          imported.1 = .silent ∧ copy.Stores result imported.2 := by
  obtain ⟨map, stores⟩ := Config.exists_stores works
  refine ⟨map, stores, fun commands fits => ?_⟩
  intro result after
  have stored : config.Stores result after := processAll_stores updates stores fits
  refine ⟨stored, fun command => (process_performs updates stored command).1,
    fun copy fresh same copies empty back floats nested => ?_⟩
  -- The dump prints the map that is stored, and all of that is kept.
  obtain ⟨taken, kept⟩ := stored.settled
  rw [← same] at back taken kept
  exact import_of_dump copies empty stored.distinct taken kept
    (process_performs updates stored .dump).1 floats nested back

/-- A key is set in a missing file, which then holds the text of the only entry. -/
theorem set_of_missing {file : FileDestination} (updates : config.writeOnUpdate = true)
    (resolved : config.file? outside.home = some file) (makes : file.CanBeMade outside.tree)
    (missing : file.IsMissing outside.tree) {key raw text : String}
    (printed : file.format.write [(key, decodeValue raw)] = .ok text) :
    let outcome := process config (.set key raw .default) outside
    outcome.1 = .silent ∧ config.file? outcome.2.home = some file ∧
      outcome.2.tree.read file.path = .ok text := by
  intro outcome
  have stores : file.Stores [] outside.tree := ⟨makes,
    Value.throughout_object.mpr ⟨OrderedMap.distinct_nil, nofun⟩, .inl ⟨missing, rfl⟩⟩
  -- The file is made for empty data, and that is what the process loads.
  obtain ⟨data, after, read, makes, -, order⟩ :=
    FileDestination.Stores.readAll (Config.format_of_file? resolved) stores
  obtain rfl : data = [] := by
    obtain ⟨others, middle, same, perm, parts⟩ := order.of_object
    obtain rfl := List.forall₂_nil_right_iff.mp parts
    rw [Value.object.inj same, List.perm_nil.mp perm]
  obtain ⟨final, written⟩ := FileDestination.writeAll_of_canBeMade printed makes
  obtain ⟨same, again, held⟩ := FileDestination.read_writeAll written
  obtain rfl : text = same := Except.ok.inj (printed.symm.trans again)
  have reading : ∀ mode, Command.set key raw .default ≠ .harden mode := nofun
  have executed : (Command.set key raw .default).onFile file ⟨[], outside.tree, true, true⟩ =
      (.silent, ⟨[(key, decodeValue raw)], final, true, true⟩) := by
    rw [Command.onFile_of_read read reading, Command.execute, SyncedStore.set_of_restricted rfl rfl,
      SyncedStore.writeData_eq, FileDestination.destination_writeAll]
    simp only [OrderedMap.insert, written]
    rfl
  have outcome : outcome = _ := process_of_file updates resolved (.set key raw .default)
  rw [outcome, executed]
  exact ⟨rfl, resolved, held⟩

/-- Nothing is found in a file whose text is refused. -/
theorem get_of_refused {file : FileDestination} (updates : config.writeOnUpdate = true)
    (resolved : config.file? outside.home = some file) {text : String}
    (held : outside.tree.read file.path = .ok text) {error : StoreError}
    (refused : file.format.read text = .error error) (key : String) (default : Option String)
    (fallback : Fallback) :
    ∃ error, (process config (.get key default fallback) outside).1 = .failed error := by
  have read := FileDestination.readAll_of_text held
  rw [refused, mapError_error] at read
  rw [process_of_file updates resolved]
  simp only [Command.onFile, SyncedStore.readData_eq, FileDestination.destination_readAll, read]
  exact ⟨_, rfl⟩

/-- Data is kept in one backend, and in a directory of its own if that is a file. -/
def keeping (kind : BackendKind) : Config :=
  { Config.default with backend := kind, storageDir := "/data", filename := "store" }

/-- Outside there are the directory without a file and a service without a key. -/
def blank : Outside :=
  ⟨⟨[(["data"], .directory FileTree.directoryMode)], []⟩, none, .reachable, .empty⟩

/-- What a command reports when other commands were run since nothing was kept. -/
def reportAfter (kind : BackendKind) (commands : List Command) (command : Command) : Report :=
  (process (keeping kind) command (processAll (keeping kind) commands blank)).1

/-- The first command finds what was there before. -/
theorem reportAfter_nil (kind : BackendKind) (command : Command) :
    reportAfter kind [] command = (process (keeping kind) command blank).1 := rfl

/-- The second command finds what the first one left. -/
theorem reportAfter_singleton (kind : BackendKind) (first second : Command) :
    reportAfter kind [first] second =
      (process (keeping kind) second (process (keeping kind) first blank).2).1 := rfl

/-- A file can be made in the directory, and is missing there. -/
theorem blank_of_file {kind : BackendKind} {format : FileFormat}
    (keeps : kind.format? = some format) :
    ∃ file, (keeping kind).file? blank.home = some file ∧ file.CanBeMade blank.tree ∧
      file.IsMissing blank.tree := by
  let file : FileDestination := .locate format none "/data" "store"
  have resolved : (keeping kind).file? blank.home = some file := by
    rw [Config.file?, show (keeping kind).backend = kind from rfl, keeps]
    rfl
  obtain ⟨directory, missing, opened⟩ : blank.tree.isDirectory file.directory = true ∧
      blank.tree.read file.path = .error .missing ∧
      blank.tree.openForWriting file.path = .ok ["store." ++ format.ending, "data"] := by
    -- Both formats have a name of their own for the file.
    cases kind with
    | redis => cases keeps
    | _ =>
      obtain rfl := Option.some.inj keeps
      decide +kernel
  have settled : blank.tree.IsSettled file.directory := .inr directory
  exact ⟨file, resolved, ⟨_, _, settled.makeDirectories, opened⟩, .of_settled settled missing⟩

/-- The service can be reached, and serves every new connection. -/
theorem blank_of_service : (keeping .redis).Reaches blank.network ∧
    ∀ side, blank.service.reconnected.Serving side := by
  have address : Redis.Address.read (keeping .redis).redisUrl = .ok (.host "localhost" 6379) := by
    decide +kernel
  have connected : Redis.connect blank.network (keeping .redis).redisUrl = .ok () := by
    simp only [Redis.connect, address]
    rfl
  refine ⟨⟨⟨1000, by decide, by decide⟩, ?_⟩, fun side => ⟨rfl, rfl, rfl, rfl, nofun, nofun⟩⟩
  rw [Redis.open?, connected]
  rfl

/-- Nothing fails in any backend before something is kept, and the map in it is empty. -/
theorem blank_works (kind : BackendKind) :
    (keeping kind).Works blank ∧ ∀ map, (keeping kind).Stores map blank → map = [] := by
  cases keeps : kind.format? with
  | some format =>
    obtain ⟨file, resolved, makes, missing⟩ := blank_of_file keeps
    rw [Config.Works, resolved]
    refine ⟨⟨makes, .inl missing⟩, fun map stores => ?_⟩
    rw [Config.Stores, resolved] at stores
    rcases FileDestination.Stores.found stores with ⟨-, empty⟩ | ⟨data, ⟨text, held, -⟩, -⟩
    · exact empty
    · cases missing.now.symm.trans held
  | none =>
    have resolved : (keeping kind).file? blank.home = none := Option.map_eq_none_iff.mpr keeps
    obtain rfl : kind = .redis := Config.backend_of_no_file resolved
    rw [Config.Works, resolved]
    refine ⟨blank_of_service, fun map stores => ?_⟩
    rw [Config.Stores, resolved] at stores
    -- Not a single key has a text.
    cases map with
    | nil => rfl
    | cons entry rest =>
      have found := stores.2.found entry.1
      rw [OrderedMap.get?, if_pos rfl] at found
      cases found

/-- Nothing is kept before a command was run. -/
theorem blank_stores (kind : BackendKind) : (keeping kind).Stores [] blank := by
  obtain ⟨works, empty⟩ := blank_works kind
  obtain ⟨map, stores⟩ := Config.exists_stores works
  exact empty map stores ▸ stores

/-- A map is kept from which a null was left out, and to which an array with one is not added. -/
theorem written_table_is_kept :
    let commands : List Command :=
      [.set "t" "\x7b\"v\":true,\"n\":null\x7d" .default, .set "b" "[null]" .always]
    let after := processAll (keeping .toml) commands blank
    let result : Data := [("t", .object [("v", .bool true)])]
    let dumped := process (keeping .toml) .dump after
    let imported := process (keeping .toml) (.importObject dumped.1.output) blank
    (keeping .toml).Works blank ∧ (keeping .toml).Stores result after ∧
      (process (keeping .toml) (.get "b" none .propagate) after).1 = .failed (.keyNotFound "b") ∧
      imported.1 = .silent ∧ (keeping .toml).Stores result imported.2 := by
  intro commands after result dumped imported
  obtain ⟨works, empty⟩ := blank_works .toml
  obtain ⟨map, stores, run⟩ := processes_keep_one_map rfl works
  obtain rfl := empty map stores
  -- The first command writes the table without its null, and the second one is refused.
  have table : (Command.set "t" "\x7b\"v\":true,\"n\":null\x7d" .default).overrides? =
      some [("t", .object [("v", .bool true), ("n", .null)])] := by cbv
  have array : (Command.set "b" "[null]" .always).overrides? = some [("b", .array [.null])] := by
    cbv
  have made : Command.applied .toml [] (.set "t" "\x7b\"v\":true,\"n\":null\x7d" .default) =
      result := by cbv
  have refused : BackendKind.toml.takes (result.merge [("b", .array [.null])]) = false := by cbv
  have whole : Command.appliedAll .toml [] commands = result := by cbv
  have fits : Command.AllFit .toml [] commands := by
    refine ⟨fun overrides writes _ => ?_, fun overrides writes taken => ?_, trivial⟩
    · obtain rfl := Option.some.inj (table.symm.trans writes)
      exact BackendKind.readsBack_singleton
        (by simp [Toml.Readable, Toml.ReadableMembers, Toml.maxDepth])
    · obtain rfl := Option.some.inj (array.symm.trans writes)
      rw [made, refused] at taken
      cases taken
  obtain ⟨stored, answers, restores⟩ := run commands fits
  rw [show (keeping .toml).backend = .toml from rfl, whole] at stored answers restores
  -- What is left is shallow and has no floats, so its dump is read.
  have back : BackendKind.toml.ReadsBack [] result := BackendKind.readsBack_singleton
    (by simp [Toml.Readable, Toml.ReadableMembers, Toml.maxDepth])
  have floats : (Value.object result).Throughout (Value.FloatSatisfies Binary64.ReadsBack) := by
    simp [result, Value.Throughout, Value.ThroughoutMembers, Value.FloatSatisfies]
  obtain ⟨silent, again⟩ :=
    restores (keeping .toml) blank rfl rfl stores back floats (by decide)
  simp only [imported, dumped, after]
  exact ⟨works, stored, answers (.get "b" none .propagate), silent, again⟩

/-- An empty array stands inside as many other arrays. -/
def nestedArrays : Nat → Value
  | 0 => .array []
  | count + 1 => .array [nestedArrays count]

/-- A value stands inside as many tables. -/
def nestedTables (inner : Value) : Nat → Value
  | 0 => inner
  | count + 1 => .object [("k", nestedTables inner count)]

/-- The empty array counts as well. -/
theorem nesting_nestedArrays (count : Nat) : (nestedArrays count).nesting = count + 1 := by
  induction count with
  | zero => rfl
  | succ count ih => simp [nestedArrays, Value.nesting, Value.nestingOfItems, ih]

/-- Every table counts. -/
theorem nesting_nestedTables (inner : Value) (count : Nat) :
    (nestedTables inner count).nesting = inner.nesting + count := by
  induction count with
  | zero => rfl
  | succ count ih => simp [nestedTables, Value.nesting, Value.nestingOfMembers, ih, Nat.add_assoc]

/-- There is nothing but arrays in nested arrays. -/
theorem exact_nestedArrays (count : Nat) : (nestedArrays count).Exact := by
  induction count with
  | zero => exact ⟨⟨trivial, trivial⟩, ⟨trivial, trivial⟩⟩
  | succ count ih => exact ⟨⟨trivial, ih.distinct, trivial⟩, ⟨trivial, ih.floats, trivial⟩⟩

/-- A table with one key repeats none. -/
theorem exact_nestedTables {inner : Value} (exact : inner.Exact) (count : Nat) :
    (nestedTables inner count).Exact := by
  induction count with
  | zero => exact exact
  | succ count ih =>
    have single : Value.DistinctKeys (.object [("k", nestedTables inner count)]) :=
      OrderedMap.distinct_cons.mpr ⟨nofun, OrderedMap.distinct_nil⟩
    exact ⟨⟨single, ih.distinct, trivial⟩, ⟨trivial, ih.floats, trivial⟩⟩

/-- Nested arrays are decoded from their own text up to the limit of the reader. -/
theorem decode_nestedArrays {count : Nat} (within : count < Json.maxDepth) :
    decodeValue (encodeValue (nestedArrays count)) = nestedArrays count :=
  decodeValue_encodeValue (exact_nestedArrays count) (by rw [nesting_nestedArrays]; exact within)

/-- A dump with as many arrays as are set has an object around them, and is not imported. -/
theorem dump_of_deep_arrays :
    ∃ printed error, reportAfter .yaml [.set "k" (encodeValue (nestedArrays 126)) .default] .dump =
        .value printed ∧
      reportAfter .yaml [] (.importObject (Report.value printed).output) = .failed error := by
  let set : Command := .set "k" (encodeValue (nestedArrays 126)) .default
  have made : set.applied .yaml [] = [("k", nestedArrays 126)] := by
    have decoded := decode_nestedArrays (show 126 < Json.maxDepth by decide)
    simp only [set, Command.applied, Command.overrides?, decoded]
    rfl
  have stored : (keeping .yaml).Stores [("k", nestedArrays 126)]
      (processAll (keeping .yaml) [set] blank) :=
    made ▸ processAll_stores rfl (blank_stores .yaml) ⟨fun _ _ _ => trivial, trivial⟩
  have dumped := (process_performs rfl stored .dump).1
  -- The arrays are nested as deep as the reader goes, and the map is one object more.
  have deep := nesting_nestedTables (nestedArrays 126) 1
  rw [nesting_nestedArrays] at deep
  obtain ⟨error, failed⟩ := import_of_deep_dump rfl (blank_stores .yaml) dumped
    (exact_nestedTables (exact_nestedArrays 126) 1).floats deep.ge
  obtain ⟨printed, -, reported, -⟩ := dumped
  rw [reported] at failed
  refine ⟨printed, error, ?_, ?_⟩
  · rw [reportAfter_singleton]
    exact reported
  · rw [reportAfter_nil]
    exact failed

set_option maxRecDepth 8192 in
/-- The text of as many arrays as TOML takes is refused. -/
theorem toml_refuses_own_text : ∃ text error,
    FileFormat.toml.write [("k", nestedArrays 80)] = .ok text ∧
      FileFormat.toml.read text = .error error := by
  let rendered (document : Toml.Document) : List Char :=
    Toml.valueLines document ++ Toml.renderSections [] (!Toml.hasValue document) document
  let statements? (text : List Char) : Option (List Toml.Statement) :=
    let rest := Toml.skipByteOrderMark text
    Toml.readStatements (rest.length + 1) rest
  -- Lists of characters are evaluated here, because texts take much longer.
  have unread : (Toml.ofData [("k", nestedArrays 80)]).toOption.map
      (fun document => (statements? (rendered document)).isNone) = some true := by
    decide +kernel
  obtain ⟨document, converted, unread⟩ := Option.map_eq_some_iff.mp unread
  refine ⟨Toml.render document, .serialization none .malformedText, ?_, ?_⟩
  · change (Toml.ofData [("k", nestedArrays 80)]).map Toml.render = _
    rw [toOption_eq_some.mp converted]
    rfl
  · have none : statements? (rendered document) = none := Option.isNone_iff_eq_none.mp unread
    have refused : Toml.read? (Toml.render document) = .none := by
      rw [Toml.read?, Toml.render, String.toList_ofList]
      exact congrArg (Option.bind · _) none
    rw [FileFormat.toml_read, FileFormat.readToml, refused]

/-- A file is written with as many arrays as are set, and then its text is refused. -/
theorem get_of_deep_arrays :
    reportAfter .toml [] (.set "k" (encodeValue (nestedArrays 80)) .default) = .silent ∧
      ∃ error, reportAfter .toml [.set "k" (encodeValue (nestedArrays 80)) .default]
        (.get "k" none .propagate) = .failed error := by
  have decoded := decode_nestedArrays (show 80 < Json.maxDepth by decide)
  obtain ⟨text, error, printed, refused⟩ := toml_refuses_own_text
  obtain ⟨file, resolved, makes, missing⟩ :=
    blank_of_file (show BackendKind.toml.format? = some .toml from rfl)
  have format : file.format = .toml := (Option.some.inj (Config.format_of_file? resolved)).symm
  rw [← decoded, ← format] at printed
  rw [← format] at refused
  -- The file holds the text that its reader refuses.
  obtain ⟨silent, same, held⟩ := set_of_missing rfl resolved makes missing printed
  have failed := get_of_refused rfl same held refused "k" none .propagate
  rw [reportAfter_nil, reportAfter_singleton]
  exact ⟨silent, failed⟩

/-- Outside there is a file in the directory. -/
def holding (raw : String) : Outside :=
  { blank with tree := blank.tree.put ["store.toml", "data"] (.file (.text raw) FileTree.fileMode) }

/-- A file stores what its text is read as. -/
theorem holding_stores {raw : String} {data : Data} (read : FileFormat.toml.read raw = .ok data) :
    (keeping .toml).Stores data (holding raw) := by
  have resolved : (keeping .toml).file? (holding raw).home =
      some (.locate .toml none "/data" "store") := rfl
  have directory : (holding raw).tree.isDirectory
      (FileDestination.locate .toml none "/data" "store").directory = true := by rfl
  have opened : (holding raw).tree.openForWriting
      (FileDestination.locate .toml none "/data" "store").path = .ok ["store.toml", "data"] := by
    rfl
  have held : (holding raw).tree.read
      (FileDestination.locate .toml none "/data" "store").path = .ok raw := by rfl
  -- The file stands in its directory, so another write opens it there.
  have settled := FileTree.IsSettled.makeDirectories (.inr directory)
  rw [Config.Stores, resolved]
  exact ⟨⟨_, _, settled, opened⟩, FileFormat.distinctKeys_readToml read,
    .inr ⟨data, ⟨raw, held, read⟩, .same _⟩⟩

/-- Keys in a row make one table inside the other. -/
def deepText : String :=
  String.ofList ((List.replicate 79 ['k', '.']).flatten ++ ['k', '='] ++
    Json.compact (nestedArrays 48))

set_option maxRecDepth 8192 in
/-- Tables and arrays are read inside one another, each of them up to its own limit. -/
theorem toml_reads_deepText :
    FileFormat.toml.read deepText = .ok [("k", nestedTables (nestedArrays 48) 79)] := by
  refine toOption_eq_some.mp ?_
  rw [FileFormat.toml_read, FileFormat.readToml, Toml.read?, deepText, String.toList_ofList]
  decide +kernel

/-- A file that is read has tables and arrays inside one another whose text is not read again. -/
theorem get_of_deep_file :
    (process (keeping .toml) (.get "k" none .propagate) (holding deepText)).1.ending.isOk = true ∧
      ∃ error, Json.read (process (keeping .toml) (.get "k" none .propagate)
        (holding deepText)).1.output = .error error := by
  have prints : (process (keeping .toml) (.get "k" none .propagate) (holding deepText)).1.Prints
      (nestedTables (nestedArrays 48) 79) :=
    (process_performs rfl (holding_stores toml_reads_deepText) (.get "k" none .propagate)).1
  have deep := nesting_nestedTables (nestedArrays 48) 79
  rw [nesting_nestedArrays] at deep
  have exact := exact_nestedTables (exact_nestedArrays 48) 79
  refine ⟨?_, prints.refused exact.floats deep.ge⟩
  obtain ⟨printed, -, reported, -⟩ := prints
  rw [reported]
  rfl

set_option maxRecDepth 8192 in
/-- What texts do not hold is lost, and so is what a directory hides until it is made. -/
theorem kept_map_has_limits :
    let get : Command := .get "k" none .propagate
    let set (raw : String) : Command := .set "k" raw .default
    -- Every run starts where nothing fails and nothing is kept.
    (∀ kind, (keeping kind).Works blank ∧ (keeping kind).Stores [] blank) ∧
    -- The text that is printed for a float is read as the float below.
    Json.read (reportAfter .toml [set "1e-24"] get).output ≠ .ok (decodeValue "1e-24") ∧
    Json.read (reportAfter .toml [set "1e-24"] .dump).output ≠
      .ok (.object [("k", decodeValue "1e-24")]) ∧
    -- A service has nothing but that text, whether the float is set or imported.
    (∀ write ∈ [set "3e49", .importObject "\x7b\"k\":3e49\x7d"],
      Json.read (reportAfter .redis [write] get).output ≠ .ok (decodeValue "3e49")) ∧
    -- A file is written that is not read again.
    (reportAfter .toml [] (set (encodeValue (nestedArrays 80))) = .silent ∧
      ∃ error, reportAfter .toml [set (encodeValue (nestedArrays 80))] get = .failed error) ∧
    -- A dump is printed that is not imported.
    (∃ printed error, reportAfter .yaml [set (encodeValue (nestedArrays 126))] .dump =
        .value printed ∧
      reportAfter .yaml [] (.importObject (Report.value printed).output) = .failed error) ∧
    -- A file is read, and a text is printed for it that is not read again.
    ((process (keeping .toml) get (holding deepText)).1.ending.isOk = true ∧ ∃ error,
      Json.read (process (keeping .toml) get (holding deepText)).1.output = .error error) ∧
    -- A file is missing as long as its directory is, and is found once that is made.
    let config := { keeping .toml with storageDir := "x/.." }
    let outside : Outside :=
      { blank with tree := { (holding "k = 1\n").tree with here := ["data"] } }
    let hardened := process config (.harden FileTree.directoryMode) outside
    (config.file? outside.home).any (outside.tree.read ·.path = .error .missing) = true ∧
      hardened.1.ending.isOk = true ∧ (process config get hardened.2).1.output = "1\n" := by
  dsimp only
  refine ⟨fun kind => ⟨(blank_works kind).1, blank_stores kind⟩, by decide +kernel,
    by decide +kernel, ?_, get_of_deep_arrays, dump_of_deep_arrays, get_of_deep_file,
    by decide +kernel⟩
  simp only [List.forall_mem_cons]
  decide +kernel

end Invocation

end SyncStore
