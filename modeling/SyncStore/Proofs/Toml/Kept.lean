import SyncStore.Proofs.ReorderedData
import SyncStore.Proofs.Toml.Reading
import SyncStore.Proofs.Toml.Representable

/-! What TOML keeps of data, and whether it takes it, does not depend on the order of its keys. -/

namespace SyncStore.Toml

/-- Null stays null in any order. -/
theorem isNull_of_reordered {left right : Value} (reordered : left.Reordered right) :
    left.isNull = right.isNull := by
  cases right with
  | array items => obtain ⟨_, rfl, -⟩ := reordered.of_array; rfl
  | object members => obtain ⟨_, _, rfl, -⟩ := reordered.of_object; rfl
  | _ => rw [reordered.of_scalar rfl]

/-- An object stays an object in any order. -/
theorem isObject_of_reordered {left right : Value} (reordered : left.Reordered right) :
    left.isObject = right.isObject := by
  cases right with
  | array items => obtain ⟨_, rfl, -⟩ := reordered.of_array; rfl
  | object members => obtain ⟨_, _, rfl, -⟩ := reordered.of_object; rfl
  | _ => rw [reordered.of_scalar rfl]

/-- Members without nulls are in another order when the members are. -/
theorem filter_isWritten_reordered {left right : List (String × Value)}
    (parts : List.Forall₂ Value.ReordersMember left right) :
    List.Forall₂ Value.ReordersMember (left.filter isWritten) (right.filter isWritten) := by
  induction parts with
  | nil => exact .nil
  | @cons a b _ _ first others ih =>
    have same : isWritten a = isWritten b := by
      rw [isWritten, isWritten, isNull_of_reordered first.2]
    rw [List.filter_cons, List.filter_cons, same]
    -- Both members are null, or both are kept.
    split
    · exact .cons first ih
    · exact ih

/-- A value without its nulls is in another order when the value is. -/
theorem withoutNulls_reordered {left right : Value} (reordered : left.Reordered right) :
    (withoutNulls left).Reordered (withoutNulls right) := by
  induction right using Value.parts_induction generalizing left with
  | array items ih =>
    obtain ⟨others, rfl, parts⟩ := reordered.of_array
    rw [withoutNulls, withoutNulls, itemsWithoutNulls_eq_map, itemsWithoutNulls_eq_map]
    refine .array (Value.reorderedItems_iff.mpr ?_)
    -- Every item loses its own nulls, and stays in its place.
    rw [List.forall₂_map_left_iff, List.forall₂_map_right_iff]
    exact Value.forall₂_trans parts (List.forall₂_same.mpr fun _ _ => rfl)
      fun a b c member r same => ih c member (same ▸ r)
  | object members ih =>
    obtain ⟨others, middle, rfl, order, parts⟩ := reordered.of_object
    rw [withoutNulls, withoutNulls, membersWithoutNulls_eq_map, membersWithoutNulls_eq_map]
    -- The permutation of the members is one of those that are kept as well.
    refine .object ((order.filter isWritten).map _) (Value.reorderedMembers_iff.mpr ?_)
    rw [List.forall₂_map_left_iff, List.forall₂_map_right_iff]
    exact Value.forall₂_trans (filter_isWritten_reordered parts)
      (List.forall₂_same.mpr fun _ _ => rfl)
      fun a b c member r same => by
        obtain rfl : b = c := same
        exact ⟨r.1, ih b (List.mem_of_mem_filter member) r.2⟩
  | _ =>
    obtain rfl := reordered.of_scalar rfl
    exact .same _

/-- Whether something is wrong with a value does not depend on any order. -/
theorem representable_of_reordered {left right : Value} (reordered : left.Reordered right)
    (representable : Representable right) : Representable left := by
  cases right with
  | array items =>
    obtain ⟨others, rfl, parts⟩ := reordered.of_array
    -- An item is null in every order of its members, or in none.
    exact forall_mem_converted parts.flip fun item inside other r =>
      (isNull_of_reordered r).trans (representable item inside)
  | object members => obtain ⟨_, _, rfl, -⟩ := reordered.of_object; trivial
  | _ => exact reordered.of_scalar rfl ▸ representable

/-- Items are a list of tables in any order of their members, or in none. -/
theorem isTableList_of_reordered {left right : List Value}
    (items : List.Forall₂ Value.Reordered left right) : isTableList left = isTableList right := by
  have objects : left.all Value.isObject = right.all Value.isObject := by
    induction items with
    | nil => rfl
    | cons first others ih => rw [List.all_cons, List.all_cons, isObject_of_reordered first, ih]
  rw [isTableList, isTableList, objects]
  cases items <;> rfl

/-- Whether the reader follows a value does not depend on any order. -/
theorem readable_of_reordered {left right : Value} (reordered : left.Reordered right) {keys : Nat}
    (readable : Readable keys right) : Readable keys left := by
  induction right using Value.parts_induction generalizing left keys with
  | array items ih =>
    have nesting := @reordered.nesting_le
    obtain ⟨others, rfl, parts⟩ := reordered.of_array
    rw [Readable] at readable ⊢
    rw [isTableList_of_reordered parts]
    -- The items are tables, or they stand on one line.
    split
    · rename_i tables
      rw [if_pos tables] at readable
      exact readableItems_iff.mpr (forall_mem_converted parts.flip fun item inside other r =>
        ih item inside r (readableItems_iff.mp readable item inside))
    · rename_i line
      rw [if_neg line] at readable
      exact nesting readable
  | object members ih =>
    obtain ⟨others, middle, rfl, order, parts⟩ := reordered.of_object
    rw [Readable] at readable ⊢
    exact ⟨readable.1, readableMembers_iff.mpr (Value.forall_mem_reordered order parts
      fun member inside other r =>
        ih member inside r.2 (readableMembers_iff.mp readable.2 member inside))⟩
  | _ =>
    obtain rfl := reordered.of_scalar rfl
    exact readable

/-- Whether the reader follows the members of a table does not depend on any order. -/
theorem readableMembers_of_reordered {keys : Nat} {left right : List (String × Value)}
    (reordered : (Value.object left).Reordered (.object right))
    (readable : ReadableMembers keys right) : ReadableMembers keys left := by
  obtain ⟨others, middle, same, order, parts⟩ := reordered.of_object
  obtain rfl := Value.object.inj same
  exact readableMembers_iff.mpr (Value.forall_mem_reordered order parts
    fun member inside other r => readable_of_reordered r.2
      (readableMembers_iff.mp readable member inside))

/-- A value without its nulls repeats no key when the value repeats none. -/
theorem distinctKeys_withoutNulls {value : Value}
    (distinct : value.Throughout Value.DistinctKeys) :
    (withoutNulls value).Throughout Value.DistinctKeys := by
  induction value using Value.parts_induction with
  | array items ih =>
    rw [withoutNulls, itemsWithoutNulls_eq_map]
    refine Value.throughout_array.mpr ⟨trivial, List.forall_mem_map.mpr fun item inside => ?_⟩
    exact ih item inside ((Value.throughout_array.mp distinct).2 item inside)
  | object members ih =>
    obtain ⟨here, parts⟩ := Value.throughout_object.mp distinct
    rw [withoutNulls, membersWithoutNulls_eq_map]
    refine Value.throughout_object.mpr ⟨?_, List.forall_mem_map.mpr fun member kept => ?_⟩
    · -- The keys that are left stand in a part of the row that had no repetition.
      have names : ((members.filter isWritten).map fun member =>
          (member.1, withoutNulls member.2)).map Prod.fst =
          (members.filter isWritten).map Prod.fst := by
        rw [List.map_map]
        rfl
      change (List.map Prod.fst _).Nodup
      rw [names]
      exact here.sublist (List.filter_sublist.map Prod.fst)
    · have inside := List.mem_of_mem_filter kept
      exact ih member inside (parts member inside)
  | _ => rw [withoutNulls] <;> first | exact distinct | simp

end SyncStore.Toml
