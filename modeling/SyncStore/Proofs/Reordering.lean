import Mathlib.Data.List.Perm.Basic
import SyncStore.Proofs.Except
import SyncStore.Proofs.Value

/-! Values that differ only in the order of the members of their objects. -/

namespace SyncStore

namespace OrderedMap

variable {α : Type} {left right : OrderedMap α}

/-- Maps with distinct keys and the same entries answer every lookup alike. -/
theorem get?_of_perm (distinct : Distinct left) (order : left.Perm right) (key : String) :
    get? key left = get? key right := by
  have names : (keys left).Perm (keys right) := order.map Prod.fst
  cases found : get? key right with
  | none =>
    -- A key without an entry on one side has none on the other.
    rw [get?_eq_none_iff] at found ⊢
    exact fun present => found (names.subset present)
  | some value => exact get?_of_mem distinct (order.symm.subset (mem_of_get? found))

end OrderedMap

namespace Value

mutual

/-- A value is another one with the members of its objects in any order, at every depth. -/
inductive Reordered : Value → Value → Prop where
  | same (value : Value) : Reordered value value
  | array {left right : List Value} (items : ReorderedItems left right) :
    Reordered (.array left) (.array right)
  | object {left middle right : List (String × Value)} (order : left.Perm middle)
    (members : ReorderedMembers middle right) : Reordered (.object left) (.object right)

/-- Items keep their order, and each of them is reordered in itself. -/
inductive ReorderedItems : List Value → List Value → Prop where
  | nil : ReorderedItems [] []
  | cons {left right : Value} {lefts rights : List Value} (first : Reordered left right)
    (others : ReorderedItems lefts rights) : ReorderedItems (left :: lefts) (right :: rights)

/-- Members in the same order, each of which is reordered in itself. -/
inductive ReorderedMembers : List (String × Value) → List (String × Value) → Prop where
  | nil : ReorderedMembers [] []
  | cons {key : String} {left right : Value} {lefts rights : List (String × Value)}
    (first : Reordered left right) (others : ReorderedMembers lefts rights) :
    ReorderedMembers ((key, left) :: lefts) ((key, right) :: rights)

end

/-- Two conversions of the same items reorder each other when they do so item by item. -/
theorem reorderedItems_map {f g : Value → Value} {items : List Value}
    (parts : ∀ item ∈ items, (f item).Reordered (g item)) :
    ReorderedItems (items.map f) (items.map g) := by
  induction items with
  | nil => exact .nil
  | cons item rest ih =>
    obtain ⟨first, others⟩ := List.forall_mem_cons.mp parts
    exact .cons first (ih others)

/-- Two conversions of the same members reorder each other when they do so value by value. -/
theorem reorderedMembers_map {f g : Value → Value} {members : List (String × Value)}
    (parts : ∀ member ∈ members, (f member.2).Reordered (g member.2)) :
    ReorderedMembers (members.map fun member => (member.1, f member.2))
      (members.map fun member => (member.1, g member.2)) := by
  induction members with
  | nil => exact .nil
  | cons member rest ih =>
    obtain ⟨first, others⟩ := List.forall_mem_cons.mp parts
    exact .cons first (ih others)

/-- Members in the same order answer a lookup with values that reorder each other. -/
theorem ReorderedMembers.get? {left right : List (String × Value)}
    (members : ReorderedMembers left right) (key : String) :
    Option.Rel Reordered (OrderedMap.get? key left) (OrderedMap.get? key right) := by
  -- The keys stand in the same places on both sides.
  induction right generalizing left with
  | nil =>
    cases members
    exact .none
  | cons member rest ih =>
    cases members with
    | @cons found _ _ _ _ first others =>
      rw [OrderedMap.get?, OrderedMap.get?]
      -- Both sides stop at the first member, or both pass over it.
      split
      · exact .some first
      · exact ih others

/-- A reordered object with distinct keys answers every lookup alike, up to order. -/
theorem Reordered.get? {left right : List (String × Value)}
    (reordered : (Value.object left).Reordered (.object right))
    (distinct : OrderedMap.Distinct left) (key : String) :
    Option.Rel Reordered (OrderedMap.get? key left) (OrderedMap.get? key right) := by
  cases reordered with
  | same =>
    cases OrderedMap.get? key left with
    | none => exact .none
    | some value => exact .some (.same value)
  | object order members =>
    -- The order of distinct members does not matter to a lookup.
    rw [OrderedMap.get?_of_perm distinct order]
    exact members.get? key

/-- Items reorder others when each reorders the one in its place. -/
theorem reorderedItems_iff {left right : List Value} :
    ReorderedItems left right ↔ List.Forall₂ Reordered left right := by
  constructor
  · intro items
    induction right generalizing left with
    | nil => cases items; exact .nil
    | cons item rest ih =>
      cases items with
      | cons first others => exact .cons first (ih others)
  · intro items
    induction items with
    | nil => exact .nil
    | cons first others ih => exact .cons first ih

/-- A member reorders another one with the same key when its value does. -/
def ReordersMember (left right : String × Value) : Prop :=
  left.1 = right.1 ∧ left.2.Reordered right.2

/-- Members reorder others when each reorders the one in its place. -/
theorem reorderedMembers_iff {left right : List (String × Value)} :
    ReorderedMembers left right ↔ List.Forall₂ ReordersMember left right := by
  constructor
  · intro members
    induction right generalizing left with
    | nil => cases members; exact .nil
    | cons member rest ih =>
      cases members with
      | cons first others => exact .cons ⟨rfl, first⟩ (ih others)
  · intro members
    induction members with
    | nil => exact .nil
    | @cons left right lefts rights first others ih =>
      obtain ⟨key, value⟩ := left
      obtain ⟨other, found⟩ := right
      obtain ⟨same, first⟩ := first
      obtain rfl : key = other := same
      exact .cons first ih

/-- Only an array reorders an array, item by item. -/
theorem Reordered.of_array {left : Value} {items : List Value}
    (reordered : left.Reordered (.array items)) :
    ∃ others, left = .array others ∧ List.Forall₂ Reordered others items := by
  cases reordered with
  | same => exact ⟨items, rfl, List.forall₂_same.mpr fun item _ => .same item⟩
  | array others => exact ⟨_, rfl, reorderedItems_iff.mp others⟩

/-- Only an object reorders an object, by some order of its members. -/
theorem Reordered.of_object {left : Value} {members : List (String × Value)}
    (reordered : left.Reordered (.object members)) :
    ∃ others middle, left = .object others ∧ others.Perm middle ∧
      List.Forall₂ ReordersMember middle members := by
  cases reordered with
  | same =>
    exact ⟨members, members, rfl, .refl _, List.forall₂_same.mpr fun _ _ => ⟨rfl, .same _⟩⟩
  | object order others => exact ⟨_, _, rfl, order, reorderedMembers_iff.mp others⟩

/-- Only a scalar itself reorders a scalar. -/
theorem Reordered.of_scalar {left right : Value} (reordered : left.Reordered right)
    (scalar : right.nesting = 0) : left = right := by
  cases reordered with
  | same => rfl
  | array => simp [nesting] at scalar
  | object => simp [nesting] at scalar

/-- Rows whose parts follow one another are followed through the row in between. -/
theorem forall₂_trans {α β γ : Type} {R : α → β → Prop} {S : β → γ → Prop} {T : α → γ → Prop}
    {left : List α} {middle : List β} {right : List γ} (first : List.Forall₂ R left middle)
    (second : List.Forall₂ S middle right)
    (through : ∀ a b, ∀ c ∈ right, R a b → S b c → T a c) : List.Forall₂ T left right := by
  induction second generalizing left with
  | nil => cases first; exact .nil
  | @cons b c middles rights part others ih =>
    cases first with
    | cons head tail =>
      exact .cons (through _ b c List.mem_cons_self head part)
        (ih tail fun a b c member => through a b c (List.mem_cons_of_mem _ member))

/-- An order of an order of members is another order of them. -/
theorem Reordered.trans {left middle right : Value} (first : left.Reordered middle)
    (second : middle.Reordered right) : left.Reordered right := by
  induction right using parts_induction generalizing left middle with
  | array items ih =>
    obtain ⟨middles, rfl, later⟩ := second.of_array
    obtain ⟨lefts, rfl, before⟩ := first.of_array
    exact .array (reorderedItems_iff.mpr
      (forall₂_trans before later fun a b c member => ih c member))
  | object members ih =>
    obtain ⟨middles, ordered, rfl, order, later⟩ := second.of_object
    obtain ⟨lefts, places, rfl, front, before⟩ := first.of_object
    -- It does not matter whether members are put in order before or after their own members are.
    have swapped : Relation.Comp (List.Forall₂ ReordersMember) List.Perm places ordered :=
      ⟨middles, before, order⟩
    rw [List.forall₂_comp_perm_eq_perm_comp_forall₂] at swapped
    obtain ⟨joined, back, before⟩ := swapped
    exact .object (front.trans back) (reorderedMembers_iff.mpr
      (forall₂_trans before later fun a b c member r s =>
        ⟨r.1.trans s.1, ih c member r.2 s.2⟩))
  | _ => exact second.of_scalar rfl ▸ first

/-- A value with its members in some order is in some order again when that is undone. -/
theorem Reordered.symm {left right : Value} (reordered : left.Reordered right) :
    right.Reordered left := by
  induction right using parts_induction generalizing left with
  | array items ih =>
    obtain ⟨others, rfl, parts⟩ := reordered.of_array
    have back := (List.forall₂_and_left items others).mpr ⟨@ih, parts.flip⟩
    exact .array (reorderedItems_iff.mpr (back.imp fun item other both => both.1 both.2))
  | object members ih =>
    obtain ⟨others, middle, rfl, order, parts⟩ := reordered.of_object
    have back := (List.forall₂_and_left members middle).mpr ⟨@ih, parts.flip⟩
    -- Members are put in order first here, and their own members second.
    have swapped : Relation.Comp (List.Forall₂ ReordersMember) List.Perm members others :=
      ⟨middle, back.imp fun member other both => ⟨both.2.1.symm, both.1 both.2.2⟩, order.symm⟩
    rw [List.forall₂_comp_perm_eq_perm_comp_forall₂] at swapped
    obtain ⟨placed, order, parts⟩ := swapped
    exact .object order (reorderedMembers_iff.mpr parts)
  | _ => exact reordered.of_scalar rfl ▸ .same _

/-- What a member hands on to any order of it holds of all members of the other object. -/
theorem forall_mem_reordered {q : String × Value → Prop}
    {others middle members : List (String × Value)} (order : others.Perm middle)
    (parts : List.Forall₂ ReordersMember middle members)
    (holds : ∀ member ∈ members, ∀ other, ReordersMember other member → q other) :
    ∀ other ∈ others, q other :=
  fun other inside => forall_mem_converted parts.flip holds other (order.subset inside)

/-- What holds throughout a value holds throughout any order of it, if no order matters to it. -/
theorem Reordered.throughout {p : Value → Prop}
    (carries : ∀ {left right : Value}, left.Reordered right → p right → p left)
    {left right : Value} (reordered : left.Reordered right) (holds : right.Throughout p) :
    left.Throughout p := by
  -- Each part is an order of a part of the other value.
  induction right using parts_induction generalizing left with
  | array items ih =>
    have here := carries reordered holds.here
    obtain ⟨others, rfl, parts⟩ := reordered.of_array
    exact throughout_array.mpr ⟨here, forall_mem_converted parts.flip fun item member other r =>
      ih item member r ((throughout_array.mp holds).2 item member)⟩
  | object members ih =>
    have here := carries reordered holds.here
    obtain ⟨others, middle, rfl, order, parts⟩ := reordered.of_object
    exact throughout_object.mpr ⟨here, forall_mem_reordered order parts fun member inside other r =>
      ih member inside r.2 ((throughout_object.mp holds).2 member inside)⟩
  | _ =>
    obtain rfl := reordered.of_scalar rfl
    exact holds

/-- The order of members says nothing about the keys that an object repeats. -/
theorem Reordered.distinctKeys {left right : Value} (reordered : left.Reordered right)
    (distinct : right.DistinctKeys) : left.DistinctKeys := by
  cases right with
  | object members =>
    obtain ⟨others, middle, rfl, order, parts⟩ := reordered.of_object
    -- The keys are the same ones, in some order.
    have names : OrderedMap.keys middle = OrderedMap.keys members := by
      clear order reordered distinct
      induction parts with
      | nil => rfl
      | cons first _ ih => rw [OrderedMap.keys_cons, OrderedMap.keys_cons, first.1, ih]
    refine (order.map Prod.fst).nodup_iff.mpr ?_
    rw [show middle.map Prod.fst = members.map Prod.fst from names]
    exact distinct
  | array items =>
    obtain ⟨others, rfl, -⟩ := reordered.of_array
    trivial
  | _ =>
    obtain rfl := reordered.of_scalar rfl
    trivial

/-- A float stays what it is in any order. -/
theorem Reordered.floatSatisfies {p : Binary64 → Prop} {left right : Value}
    (reordered : left.Reordered right) (holds : right.FloatSatisfies p) :
    left.FloatSatisfies p := by
  cases right with
  | object members =>
    obtain ⟨others, _, rfl, -⟩ := reordered.of_object
    trivial
  | array items =>
    obtain ⟨others, rfl, -⟩ := reordered.of_array
    trivial
  | _ =>
    obtain rfl := reordered.of_scalar rfl
    exact holds

/-- Any order of a value is nested no deeper. -/
theorem Reordered.nesting_le {left right : Value} (reordered : left.Reordered right) {depth : Nat}
    (nested : right.nesting ≤ depth) : left.nesting ≤ depth := by
  -- Parts are only moved within their array or object, so each keeps its depth.
  induction right using parts_induction generalizing left depth with
  | array items ih =>
    obtain ⟨others, rfl, parts⟩ := reordered.of_array
    rw [nesting] at nested ⊢
    obtain ⟨inner, rfl⟩ : ∃ inner, depth = inner + 1 := ⟨depth - 1, by omega⟩
    have within := nestingOfItems_le.mp (Nat.le_of_succ_le_succ nested)
    exact Nat.succ_le_succ (nestingOfItems_le.mpr (forall_mem_converted parts.flip
      fun item member other r => ih item member r (within item member)))
  | object members ih =>
    obtain ⟨others, middle, rfl, order, parts⟩ := reordered.of_object
    rw [nesting] at nested ⊢
    obtain ⟨inner, rfl⟩ : ∃ inner, depth = inner + 1 := ⟨depth - 1, by omega⟩
    have within := nestingOfMembers_le.mp (Nat.le_of_succ_le_succ nested)
    exact Nat.succ_le_succ (nestingOfMembers_le.mpr (forall_mem_reordered order parts
      fun member inside other r => ih member inside r.2 (within member inside)))
  | _ =>
    obtain rfl := reordered.of_scalar rfl
    exact nested

end Value

end SyncStore
