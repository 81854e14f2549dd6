import SyncStore.CommandLine.Command
import SyncStore.Proofs.Files.Kept
import SyncStore.Proofs.Json.Indented

/-! What a command makes of a map that is kept outside, and what it reports about it. -/

namespace SyncStore

namespace BackendKind

variable {kind : BackendKind} {map overrides : Data}

/-- A map takes overriding entries and what is kept of that replaces it, unless it is not taken. -/
def merged (kind : BackendKind) (map overrides : Data) : Data :=
  if kind.takes (map.merge overrides) then kind.kept (map.merge overrides) else map

/--
A map with overriding entries is read back from what is written of it.

- TOML has to follow the nesting of the map
- YAML follows whatever it has read before, with any entries
- a service has to read the floats of the overriding entries back, which is all that is written
-/
def ReadsBack : BackendKind → (map overrides : Data) → Prop
  | .toml, map, overrides => Toml.ReadableMembers Toml.maxDepth (map.merge overrides)
  | .yaml, _, _ => True
  | .redis, _, overrides =>
    (Value.object overrides).Throughout (Value.FloatSatisfies Binary64.ReadsBack)

/-- A file prints back every order of a map that is read back. -/
theorem ReadsBack.printsBack {format : FileFormat} (keeps : kind.format? = some format)
    (back : kind.ReadsBack map overrides) (follows : kind.Follows (map.merge overrides))
    (distinct : (Value.object (map.merge overrides)).Throughout Value.DistinctKeys) {order : Data}
    (reordered : (Value.object order).Reordered (.object (map.merge overrides))) :
    kind.PrintsBack order := by
  cases kind with
  | redis => cases keeps
  | toml => exact printsBack_toml_of_reordered back distinct reordered
  | yaml => exact printsBack_yaml_of_reordered follows distinct reordered

/-- A map is read back in every order when it is read back in one. -/
theorem ReadsBack.of_reordered {order : Data}
    (reordered : (Value.object order).Reordered (.object map))
    (distinct : OrderedMap.Distinct map) (back : kind.ReadsBack [] map) :
    kind.ReadsBack [] order := by
  -- Over an empty map the merged data is the overriding data itself.
  have whole : OrderedMap.merge [] map = map := OrderedMap.ofEntries_of_distinct distinct
  have again : OrderedMap.merge [] order = order :=
    OrderedMap.ofEntries_of_distinct (reordered.distinctKeys distinct)
  cases kind with
  | redis => exact reordered.throughout Value.Reordered.floatSatisfies back
  | toml =>
    rw [ReadsBack, whole] at back
    rw [ReadsBack, again]
    exact Toml.readableMembers_of_reordered reordered back
  | yaml => trivial

/-- TOML reads a single entry back when it follows its value. -/
theorem readsBack_singleton {key : String} {value : Value}
    (readable : Toml.Readable Toml.maxDepth value) :
    BackendKind.toml.ReadsBack [] [(key, value)] :=
  ⟨readable, trivial⟩

end BackendKind

namespace Report

/--
A report prints a value, with its members in some order.

When every float is read back from its own text, what it prints is read as that value again, or
refused if the value is nested deeper than the reader goes.
-/
def Prints (value : Value) (report : Report) : Prop :=
  ∃ printed : Value, printed.Reordered value ∧ report = .value printed ∧
    (value.Throughout (Value.FloatSatisfies Binary64.ReadsBack) →
      if value.nesting ≤ Json.maxDepth then Json.read report.output = .ok printed
      else ∃ error, Json.read report.output = .error error)

/-- A value without repeated keys is printed in any order. -/
theorem prints_of_reordered {printed value : Value} (order : printed.Reordered value)
    (distinct : value.Throughout Value.DistinctKeys) : (Report.value printed).Prints value := by
  refine ⟨printed, order, rfl, fun floats => ?_⟩
  -- No order matters to what makes a text readable.
  have exact : printed.Exact := ⟨order.throughout Value.Reordered.distinctKeys distinct,
    order.throughout Value.Reordered.floatSatisfies floats⟩
  split
  · rename_i nested
    exact Json.read_indentedText exact (order.nesting_le nested)
  · rename_i beyond
    exact Json.read_indentedText_tooDeep exact
      (Nat.lt_of_not_le fun nested => beyond (order.symm.nesting_le nested))

/-- What is printed for a value is refused when that is nested too deep. -/
theorem Prints.refused {value : Value} {report : Report} (prints : report.Prints value)
    (floats : value.Throughout (Value.FloatSatisfies Binary64.ReadsBack))
    (deep : Json.maxDepth < value.nesting) : ∃ error, Json.read report.output = .error error := by
  obtain ⟨_, -, -, reads⟩ := prints
  have refused := reads floats
  rwa [if_neg (Nat.not_le_of_lt deep)] at refused

/-- A report prints a value that was found, or else the default, and fails without any of them. -/
def Finds (key : String) (default : Option String) (found : Option Value) (report : Report) :
    Prop :=
  match found, default with
  | some value, _ => report.Prints value
  | none, some raw => report.Prints (decodeValue raw)
  | none, none => report = .failed (.keyNotFound key)

/-- A write is silent when its data is taken, and fails otherwise. -/
def Acknowledges (taken : Bool) (report : Report) : Prop :=
  match taken with
  | true => report = .silent
  | false => ∃ error, report = .failed (.store error)

end Report

namespace Command

/-- The entries that a command is to write over those of the map. -/
def overrides? : Command → Option Data
  -- A single change is written unless the command says otherwise.
  | .set key raw policy => if policy.resolve true then some [(key, decodeValue raw)] else none
  | .importObject raw =>
    match Json.read raw with
    | .ok (.object overrides) => some overrides
    | _ => none
  | _ => none

/-- What a command makes of a map: most commands leave it alone. -/
def applied (kind : BackendKind) (map : Data) (command : Command) : Data :=
  match command.overrides? with
  | some overrides => kind.merged map overrides
  | none => map

/-- What commands make of a map one after the other. -/
def appliedAll (kind : BackendKind) (map : Data) (commands : List Command) : Data :=
  commands.foldl (applied kind) map

/-- What a command is to write is read back, if it is taken. -/
def Fits (kind : BackendKind) (map : Data) (command : Command) : Prop :=
  ∀ overrides, command.overrides? = some overrides → kind.takes (map.merge overrides) = true →
    kind.ReadsBack map overrides

/-- Each of several commands fits the map that the ones before it make. -/
def AllFit (kind : BackendKind) : Data → List Command → Prop
  | _, [] => True
  | map, command :: rest => command.Fits kind map ∧ AllFit kind (command.applied kind map) rest

/-- What a command reports about a map, over the backends that serve it and over the others. -/
def Answers (kind : BackendKind) (map : Data) (command : Command) (report : Report) : Prop :=
  match command with
  | .get key default _ => report.Finds key default (map.get? key)
  | .set _ _ _ =>
    match command.overrides? with
    | some overrides => report.Acknowledges (kind.takes (map.merge overrides))
    | none => report = .silent
  | .dump => report.Prints (.object map)
  | .importObject _ =>
    match command.overrides? with
    | some overrides => report.Acknowledges (kind.takes (map.merge overrides))
    | none => ∃ error, report = .failed error
  | .ping => report = if kind = .redis then .line "PONG" else .failed .needsService
  | .harden _ => report = if kind = .redis then .failed .needsFile else .silent

/--
A command is performed when it answers about a map and leaves outside what it makes of the map.

- `keeps`: what it is to write has to be read back
-/
structure Performs {σ : Type} (kind : BackendKind) (stores : Data → σ → Prop) (map : Data)
    (command : Command) (outcome : Report × SyncedStore σ) : Prop where
  answers : command.Answers kind map outcome.1
  keeps : command.Fits kind map → stores (command.applied kind map) outcome.2.outside

/-- A command that writes nothing leaves the map alone. -/
theorem applied_of_none {command : Command} (unwritten : command.overrides? = none)
    (kind : BackendKind) (map : Data) : command.applied kind map = map := by
  rw [applied, unwritten]

/-- An import of an object writes its members, and an import of any other text is refused. -/
theorem import_cases {σ : Type} (destination : Destination σ) (raw : String)
    (store : SyncedStore σ) :
    (∃ overrides, (Command.importObject raw).overrides? = some overrides ∧
        execute destination (.importObject raw) store =
          (.ofAnswer (fun _ => .silent) (store.update destination .async overrides).1,
            (store.update destination .async overrides).2)) ∨
      (Command.importObject raw).overrides? = none ∧ ∃ error,
        execute destination (.importObject raw) store = (.failed error, store) := by
  rw [execute, overrides?]
  -- A text may be no JSON, or JSON of another kind.
  cases Json.read raw with
  | error error => exact .inr ⟨rfl, _, rfl⟩
  | ok value =>
    cases value with
    | object overrides => exact .inl ⟨overrides, rfl, rfl⟩
    | _ => exact .inr ⟨rfl, _, rfl⟩

/-- What a command is to write is sound and never nested deeper than the reader of its text goes. -/
theorem overrides_sound {command : Command} {overrides : Data}
    (writes : command.overrides? = some overrides) :
    (Value.object overrides).Throughout Value.DistinctKeys ∧
      ∀ entry ∈ overrides, entry.2.nesting ≤ Json.maxDepth := by
  cases command with
  | set key raw policy =>
    obtain ⟨-, same⟩ := Option.ite_none_right_eq_some.mp writes
    obtain rfl := Option.some.inj same
    have sound := decodeValue_sound raw
    -- There is only one key, and its value was decoded.
    refine ⟨Value.throughout_object.mpr ⟨?_, ?_⟩, ?_⟩
    · simp [Value.DistinctKeys, OrderedMap.Distinct]
    · exact List.forall_mem_singleton.mpr sound.distinct
    · exact List.forall_mem_singleton.mpr sound.nested
  | importObject raw =>
    rw [overrides?] at writes
    -- The text was read as an object.
    split at writes
    · rename_i found read
      obtain rfl := Option.some.inj writes
      have sound := Json.read_sound read
      have nested := sound.nested
      rw [Value.nesting] at nested
      exact ⟨sound.distinct, Value.nestingOfMembers_le.mp (Nat.le_of_succ_le nested)⟩
    · cases writes
  | _ => cases writes

/-- What is found in a map in some order, or its default, is printed. -/
theorem reportFound_finds {map : Data} (distinct : (Value.object map).Throughout Value.DistinctKeys)
    (key : String) (default : Option String) {found : Option Value}
    (alike : Option.Rel Value.Reordered found (map.get? key)) :
    (reportFound key default found).Finds key default (map.get? key) := by
  cases looked : map.get? key with
  | some value =>
    rw [looked] at alike
    -- The value that was found is that of the map in some order.
    obtain ⟨printed, rfl, order⟩ := Value.exists_of_rel alike
    have inside := (Value.throughout_object.mp distinct).2 _ (OrderedMap.mem_of_get? looked)
    exact Report.prints_of_reordered order inside
  | none =>
    rw [looked] at alike
    cases alike
    -- Nothing is found, so the default is printed if there is one.
    cases default with
    | some raw => exact Report.prints_of_reordered (.same _) (decodeValue_sound raw).distinct
    | none => rfl

/-- The map that overriding entries make repeats no key when the map before repeats none. -/
theorem distinct_merge {map : Data} (distinct : (Value.object map).Throughout Value.DistinctKeys)
    {command : Command} {overrides : Data} (writes : command.overrides? = some overrides) :
    (Value.object (map.merge overrides)).Throughout Value.DistinctKeys :=
  Value.throughout_merge distinct (Value.throughout_object.mp (overrides_sound writes).1).2

end Command

end SyncStore
