import Mathlib.Data.List.Nodup
import SyncStore.Proofs.Reordering

/-! Data in another order answers lookups alike, and stays alike when it changes alike. -/

namespace SyncStore

namespace OrderedMap

variable {α : Type}

/-- A map with distinct keys repeats no entry. -/
theorem Distinct.nodup {map : OrderedMap α} (distinct : Distinct map) : map.Nodup :=
  List.Nodup.of_map Prod.fst distinct

end OrderedMap

namespace Value

variable {left right : Data}

/-- Related lookups both find something, or neither does. -/
theorem exists_of_rel {α β : Type} {R : α → β → Prop} {a : Option α} {b : β}
    (related : Option.Rel R a (some b)) : ∃ found, a = some found ∧ R found b := by
  cases related with
  | some same => exact ⟨_, rfl, same⟩

/-- Lookups that are alike up to order are so through a lookup in between. -/
theorem reordered_rel_trans {a b c : Option Value} (first : Option.Rel Reordered a b)
    (second : Option.Rel Reordered b c) : Option.Rel Reordered a c := by
  cases first with
  | none => exact second
  | some first =>
    cases second with
    | some second => exact .some (first.trans second)

/-- Data with distinct keys that answers every lookup alike is in another order. -/
theorem reordered_of_get? (distinct : left.Distinct) (distinct' : right.Distinct)
    (alike : ∀ key, Option.Rel Reordered (left.get? key) (right.get? key)) :
    (Value.object left).Reordered (.object right) := by
  -- The entries of the left side are put in the order of the keys on the right side.
  let placed : Data := right.map fun entry => (entry.1, (left.get? entry.1).getD .null)
  -- Every key of the right side has a value on the left side.
  have held : ∀ entry ∈ right, ∃ value, left.get? entry.1 = some value ∧
      value.Reordered entry.2 := fun entry member =>
    exists_of_rel (OrderedMap.get?_of_mem distinct' member ▸ alike entry.1)
  have parts : List.Forall₂ ReordersMember placed right := by
    refine List.forall₂_map_left_iff.mpr (List.forall₂_same.mpr fun entry member => ⟨rfl, ?_⟩)
    obtain ⟨value, found, same⟩ := held entry member
    rw [found]
    exact same
  have names : placed.keys = right.keys := by
    simp [placed, OrderedMap.keys, Function.comp_def]
  have unique : placed.Distinct := by
    rw [OrderedMap.Distinct, names]
    exact distinct'
  have order : left.Perm placed := by
    refine (List.perm_ext_iff_of_nodup distinct.nodup unique.nodup).mpr fun entry => ?_
    obtain ⟨key, value⟩ := entry
    constructor
    · intro member
      have found := OrderedMap.get?_of_mem distinct member
      -- A key of the left side is one of the right side.
      have answered := alike key
      rw [found] at answered
      cases other : right.get? key with
      | none => rw [other] at answered; cases answered
      | some old =>
        exact List.mem_map.mpr ⟨(key, old), OrderedMap.mem_of_get? other, by simp [found]⟩
    -- An entry in the new order was found under its key on the left side.
    · intro member
      obtain ⟨entry, inside, same⟩ := List.mem_map.mp member
      obtain ⟨found, lookup, -⟩ := held entry inside
      obtain ⟨rfl, rfl⟩ := Prod.mk.inj same
      refine OrderedMap.mem_of_get? (lookup.trans ?_)
      rw [lookup, Option.getD_some]
  exact .object order (reorderedMembers_iff.mpr parts)

/-- Data in another order stays so when the same key is given a value on both sides. -/
theorem Reordered.insert (reordered : (Value.object left).Reordered (.object right))
    (distinct : right.Distinct) (key : String) (value : Value) :
    (Value.object (left.insert key value)).Reordered (.object (right.insert key value)) := by
  have distinct' : left.Distinct := reordered.distinctKeys distinct
  refine reordered_of_get? (distinct'.insert key value) (distinct.insert key value) fun other => ?_
  -- The key has the new value on both sides, and every other key what it had.
  by_cases same : other = key
  · subst same
    rw [OrderedMap.get?_insert_self, OrderedMap.get?_insert_self]
    exact .some (.same value)
  · rw [OrderedMap.get?_insert_of_ne same, OrderedMap.get?_insert_of_ne same]
    exact reordered.get? distinct' other

/-- Data in another order stays so when the same entries are merged into both sides. -/
theorem Reordered.merge (reordered : (Value.object left).Reordered (.object right))
    (distinct : right.Distinct) (overrides : Data) :
    (Value.object (left.merge overrides)).Reordered (.object (right.merge overrides)) := by
  induction overrides generalizing left right with
  | nil => exact reordered
  | cons entry rest ih =>
    exact ih (reordered.insert distinct entry.1 entry.2) (distinct.insert entry.1 entry.2)

/-- Data repeats no key at any depth after entries that repeat none were merged into it. -/
theorem throughout_merge {data overrides : Data}
    (distinct : (Value.object data).Throughout DistinctKeys)
    (parts : ∀ entry ∈ overrides, entry.2.Throughout DistinctKeys) :
    (Value.object (data.merge overrides)).Throughout DistinctKeys := by
  obtain ⟨here, members⟩ := throughout_object.mp distinct
  refine throughout_object.mpr ⟨OrderedMap.Distinct.merge here overrides, fun member inside => ?_⟩
  exact (OrderedMap.mem_merge inside).elim (parts member) (members member)

end Value

end SyncStore
