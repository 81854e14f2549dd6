import SyncStore.Proofs.Files.WholeWrites
import SyncStore.Proofs.Toml.DistinctKeys
import SyncStore.Proofs.Toml.Float
import SyncStore.Proofs.Toml.Kept
import SyncStore.Proofs.Yaml.Float
import SyncStore.Proofs.Yaml.NestingLimit
import SyncStore.Proofs.Yaml.RoundTrip

/-! Which data a backend takes and what it keeps of that, whatever the order of the keys. -/

namespace SyncStore.BackendKind

/-- TOML takes data without a defect, and the other backends take all data. -/
def takes : BackendKind → Data → Bool
  | .toml, data => (Toml.firstDefect (Toml.placesOfMembers data)).isNone
  | _, _ => true

variable {kind : BackendKind} {format : FileFormat} {left right data : Data}

/-- TOML takes data exactly when that is representable throughout. -/
theorem takes_toml : BackendKind.toml.takes data = true ↔
    (Value.object data).Throughout Toml.Representable := by
  rw [takes, Option.isNone_iff_eq_none, Toml.firstDefect_data]

/-- A backend with files is none over a service. -/
theorem ne_redis (keeps : kind.format? = some format) : kind ≠ .redis := by
  rintro rfl
  cases keeps

/-- A format writes the data that its backend takes, and no other. -/
theorem write_cases (keeps : kind.format? = some format) (data : Data) :
    (kind.takes data = true ∧ ∃ text, format.write data = .ok text) ∨
      kind.takes data = false ∧ ∃ error, format.write data = .error error := by
  cases kind with
  | redis => cases keeps
  | yaml =>
    obtain rfl := Option.some.inj keeps
    exact .inl ⟨rfl, _, rfl⟩
  | toml =>
    obtain rfl := Option.some.inj keeps
    have failed := FileDestination.failure?_toml_write data
    rw [takes]
    -- The data is refused for its first defect, if it has one.
    cases first : Toml.firstDefect (Toml.placesOfMembers data) with
    | none =>
      rw [first] at failed
      exact .inl ⟨rfl, failure?_eq_none.mp failed⟩
    | some defect =>
      rw [first] at failed
      exact .inr ⟨rfl, _, failure?_eq_some.mp failed⟩

/-- A backend takes data in every order, or in none. -/
theorem takes_of_reordered (kind : BackendKind)
    (order : (Value.object left).Reordered (.object right)) :
    kind.takes left = kind.takes right := by
  cases kind with
  | toml =>
    rw [Bool.eq_iff_iff, takes_toml, takes_toml]
    -- Every part is representable in both orders.
    exact ⟨order.symm.throughout Toml.representable_of_reordered,
      order.throughout Toml.representable_of_reordered⟩
  | _ => rfl

/-- What is kept of data in another order is in another order. -/
theorem kept_of_reordered (kind : BackendKind)
    (order : (Value.object left).Reordered (.object right)) :
    (Value.object (kind.kept left)).Reordered (.object (kind.kept right)) := by
  cases kind with
  | toml =>
    -- The data is one value, whose nulls are left out at every depth.
    have kept := Toml.withoutNulls_reordered order
    rwa [Toml.withoutNulls, Toml.withoutNulls] at kept
  | _ => exact order

/-- What is kept of data repeats no key when the data repeats none. -/
theorem distinct_kept (kind : BackendKind)
    (distinct : (Value.object data).Throughout Value.DistinctKeys) :
    (Value.object (kind.kept data)).Throughout Value.DistinctKeys := by
  cases kind with
  | toml =>
    have kept := Toml.distinctKeys_withoutNulls distinct
    rwa [Toml.withoutNulls] at kept
  | _ => exact distinct

/-- What is read from a file is taken again. -/
theorem takes_of_read (keeps : kind.format? = some format) {text : String}
    (read : format.read text = .ok data) : kind.takes data = true := by
  cases kind with
  | toml =>
    obtain rfl := Option.some.inj keeps
    rw [FileFormat.toml_read, FileFormat.readToml] at read
    split at read
    · cases read
    · -- The data of a document has neither nulls nor integers that are too large.
      have plain := Toml.plain_of_toData read
      exact takes_toml.mpr (plain.imp fun _ holds => holds.2)
  | _ => rfl

/-- YAML follows a map no deeper than its reader goes, and the other backends follow any map. -/
def Follows : BackendKind → Data → Prop
  | .yaml, map => (Value.object map).nesting ≤ Yaml.maxDepth
  | _, _ => True

/-- Data in another order is followed as well. -/
theorem Follows.of_reordered (follows : kind.Follows right)
    (order : (Value.object left).Reordered (.object right)) : kind.Follows left := by
  cases kind with
  | yaml => exact order.nesting_le follows
  | _ => trivial

/-- What is read from a file is followed again. -/
theorem follows_of_read (keeps : kind.format? = some format) {text : String}
    (read : format.read text = .ok data) : kind.Follows data := by
  cases kind with
  | yaml =>
    obtain rfl := Option.some.inj keeps
    exact Yaml.nesting_read read
  | _ => trivial

/-- Entries that JSON could read are followed with the data that they are merged into. -/
theorem Follows.merge {overrides : Data} (follows : kind.Follows data)
    (nested : ∀ entry ∈ overrides, entry.2.nesting ≤ Json.maxDepth) :
    kind.Follows (data.merge overrides) := by
  cases kind with
  | yaml =>
    -- The data itself takes one level, and every entry has the others.
    have others := Value.nestingOfMembers_le.mp (Nat.le_of_succ_le_succ follows)
    exact Nat.succ_le_succ (Value.nestingOfMembers_le.mpr fun entry inside =>
      (OrderedMap.mem_merge inside).elim (nested entry) (others entry))
  | _ => trivial

/-- Readable TOML data is printed back in every order. -/
theorem printsBack_toml_of_reordered (readable : Toml.ReadableMembers Toml.maxDepth right)
    (distinct : (Value.object right).Throughout Value.DistinctKeys)
    (order : (Value.object left).Reordered (.object right)) :
    BackendKind.toml.PrintsBack left :=
  printsBack_toml (Toml.readableMembers_of_reordered order readable)
    (order.throughout Value.Reordered.distinctKeys distinct)
    (Value.floatSatisfies_of_forall Toml.readsBack _)

/-- YAML data that is followed is printed back in every order. -/
theorem printsBack_yaml_of_reordered (follows : BackendKind.yaml.Follows right)
    (distinct : (Value.object right).Throughout Value.DistinctKeys)
    (order : (Value.object left).Reordered (.object right)) :
    BackendKind.yaml.PrintsBack left :=
  Yaml.value?_render (order.throughout Value.Reordered.distinctKeys distinct)
    (Value.floatSatisfies_of_forall Yaml.readsBack _) (order.nesting_le follows)

/-- What is read from a file repeats no key at any depth. -/
theorem distinct_of_read (keeps : kind.format? = some format) {text : String}
    (read : format.read text = .ok data) : (Value.object data).Throughout Value.DistinctKeys := by
  cases kind with
  | redis => cases keeps
  | toml =>
    obtain rfl := Option.some.inj keeps
    exact FileFormat.distinctKeys_readToml read
  | yaml =>
    obtain rfl := Option.some.inj keeps
    exact Yaml.distinctKeys_read read

end SyncStore.BackendKind
