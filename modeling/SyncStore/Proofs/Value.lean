import SyncStore.Proofs.OrderedMap
import SyncStore.Value

/-! Values are taken apart by induction, and measured by how deep their composites are nested. -/

namespace SyncStore.Value

mutual

/-- The number of arrays and objects around the innermost part of a value. -/
def nesting : Value → Nat
  | .array items => nestingOfItems items + 1
  | .object members => nestingOfMembers members + 1
  | _ => 0

/-- The nesting of the deepest item. -/
def nestingOfItems : List Value → Nat
  | [] => 0
  | item :: rest => max (nesting item) (nestingOfItems rest)

/-- The nesting of the deepest member. -/
def nestingOfMembers : List (String × Value) → Nat
  | [] => 0
  | (_, value) :: rest => max (nesting value) (nestingOfMembers rest)

end

mutual

/-- A property holds throughout a value when it holds of the value and of everything inside it. -/
def Throughout (p : Value → Prop) : Value → Prop
  | .array items => p (.array items) ∧ ThroughoutItems p items
  | .object members => p (.object members) ∧ ThroughoutMembers p members
  | value => p value

/-- A property holds throughout all items. -/
def ThroughoutItems (p : Value → Prop) : List Value → Prop
  | [] => True
  | item :: rest => Throughout p item ∧ ThroughoutItems p rest

/-- A property holds throughout the values of all members. -/
def ThroughoutMembers (p : Value → Prop) : List (String × Value) → Prop
  | [] => True
  | (_, value) :: rest => Throughout p value ∧ ThroughoutMembers p rest

end

/-- What holds of scalars, and of composites whose parts have it, holds of every value. -/
theorem parts_induction {motive : Value → Prop} (null : motive .null)
    (bool : ∀ b, motive (.bool b)) (number : ∀ n, motive (.number n))
    (string : ∀ s, motive (.string s))
    (array : ∀ items, (∀ item ∈ items, motive item) → motive (.array items))
    (object : ∀ members, (∀ member ∈ members, motive member.2) → motive (.object members))
    (value : Value) : motive value := by
  -- The recursor walks lists of parts too, where the property is asked of every part.
  refine @Value.rec motive (fun items => ∀ item ∈ items, motive item)
    (fun members => ∀ member ∈ members, motive member.2) (fun member => motive member.2)
    null bool number string array object ?_ ?_ ?_ ?_ ?_ value
  · simp
  · exact fun first rest head tail => List.forall_mem_cons.mpr ⟨head, tail⟩
  · simp
  · exact fun first rest head tail => List.forall_mem_cons.mpr ⟨head, tail⟩
  · exact fun key value holds => holds

mutual

/-- Whether two values are the same. -/
def same : Value → Value → Bool
  | .null, .null => true
  | .bool a, .bool b => a == b
  | .number a, .number b => decide (a = b)
  | .string a, .string b => a == b
  | .array a, .array b => sameItems a b
  | .object a, .object b => sameMembers a b
  | _, _ => false

/-- Whether two rows of items are the same. -/
def sameItems : List Value → List Value → Bool
  | [], [] => true
  | a :: as, b :: bs => same a b && sameItems as bs
  | _, _ => false

/-- Whether two rows of members are the same, in the same order. -/
def sameMembers : List (String × Value) → List (String × Value) → Bool
  | [], [] => true
  | (key, a) :: as, (name, b) :: bs => key == name && same a b && sameMembers as bs
  | _, _ => false

end

/-- Values are found to be the same exactly when they are. -/
theorem same_iff {left right : Value} : same left right = true ↔ left = right := by
  induction left using parts_induction generalizing right with
  | array items ih =>
    cases right with
    | array others =>
      rw [same, array.injEq]
      -- The items are compared in their places, as far as both rows reach.
      induction items generalizing others with
      | nil => cases others <;> simp [sameItems]
      | cons item rest later =>
        obtain ⟨first, behind⟩ := List.forall_mem_cons.mp ih
        cases others with
        | nil => simp [sameItems]
        | cons other others => simp [sameItems, first, later behind]
    | _ => simp [same]
  | object members ih =>
    cases right with
    | object others =>
      rw [same, object.injEq]
      induction members generalizing others with
      | nil => cases others <;> simp [sameMembers]
      | cons member rest later =>
        obtain ⟨key, value⟩ := member
        obtain ⟨first, behind⟩ := List.forall_mem_cons.mp ih
        cases others with
        | nil => simp [sameMembers]
        | cons other others => simp [sameMembers, first, later behind, Prod.ext_iff]
    | _ => simp [same]
  | _ => cases right <;> simp [same]

/-- Values can be told apart. -/
instance : DecidableEq Value := fun _ _ => decidable_of_iff _ same_iff

/-- Items are nested within a depth when each of them is. -/
theorem nestingOfItems_le {depth : Nat} {items : List Value} :
    nestingOfItems items ≤ depth ↔ ∀ item ∈ items, item.nesting ≤ depth := by
  -- A bound on the deepest of all items is one on the first and on those behind it.
  induction items with
  | nil => simp [nestingOfItems]
  | cons item rest ih => rw [nestingOfItems, Nat.max_le, ih, List.forall_mem_cons]

/-- Members are nested within a depth when the value of each is. -/
theorem nestingOfMembers_le {depth : Nat} {members : List (String × Value)} :
    nestingOfMembers members ≤ depth ↔ ∀ member ∈ members, member.2.nesting ≤ depth := by
  induction members with
  | nil => simp [nestingOfMembers]
  | cons member rest ih =>
    obtain ⟨key, value⟩ := member
    rw [nestingOfMembers, Nat.max_le, ih, List.forall_mem_cons]

/-- A property holds throughout items when it holds throughout each of them. -/
theorem throughoutItems_iff {p : Value → Prop} {items : List Value} :
    ThroughoutItems p items ↔ ∀ item ∈ items, item.Throughout p := by
  -- What holds inside a list holds inside its first item and inside the others.
  induction items with
  | nil => simp [ThroughoutItems]
  | cons item rest ih => simp [ThroughoutItems, ih]

/-- A property holds throughout members when it holds throughout the value of each. -/
theorem throughoutMembers_iff {p : Value → Prop} {members : List (String × Value)} :
    ThroughoutMembers p members ↔ ∀ member ∈ members, member.2.Throughout p := by
  induction members with
  | nil => simp [ThroughoutMembers]
  | cons member rest ih =>
    obtain ⟨key, value⟩ := member
    simp [ThroughoutMembers, ih]

theorem throughout_array {p : Value → Prop} {items : List Value} :
    (Value.array items).Throughout p ↔ p (.array items) ∧ ∀ item ∈ items, item.Throughout p := by
  rw [Throughout, throughoutItems_iff]

theorem throughout_object {p : Value → Prop} {members : List (String × Value)} :
    (Value.object members).Throughout p ↔
      p (.object members) ∧ ∀ member ∈ members, member.2.Throughout p := by
  rw [Throughout, throughoutMembers_iff]

/-- What holds throughout a value holds of the value itself. -/
theorem Throughout.here {p : Value → Prop} {value : Value} (holds : value.Throughout p) :
    p value := by
  -- A composite holds by itself and inside, and a scalar only by itself.
  cases value with
  | array items => exact (throughout_array.mp holds).1
  | object members => exact (throughout_object.mp holds).1
  | _ => simpa only [Throughout] using holds

/-- What holds throughout a value is followed throughout it by what it implies. -/
theorem Throughout.imp {p q : Value → Prop} (implies : ∀ value, p value → q value) {value : Value}
    (holds : value.Throughout p) : value.Throughout q := by
  induction value using parts_induction with
  | array items ih =>
    obtain ⟨here, parts⟩ := throughout_array.mp holds
    exact throughout_array.mpr ⟨implies _ here,
      fun item inside => ih item inside (parts item inside)⟩
  | object members ih =>
    obtain ⟨here, parts⟩ := throughout_object.mp holds
    exact throughout_object.mpr
      ⟨implies _ here, fun member inside => ih member inside (parts member inside)⟩
  | _ => exact implies _ holds

/-- No object repeats a key among its members. -/
def DistinctKeys : Value → Prop
  | .object members => OrderedMap.Distinct members
  | _ => True

/-- A property holds of the value when it is a float. -/
def FloatSatisfies (p : Binary64 → Prop) : Value → Prop
  | .number (.float x) => p x
  | _ => True

/-- What holds of every value holds throughout each of them. -/
theorem throughout_of_forall {p : Value → Prop} (holds : ∀ value, p value) (value : Value) :
    value.Throughout p := by
  induction value using parts_induction with
  | array items ih => exact throughout_array.mpr ⟨holds _, ih⟩
  | object members ih => exact throughout_object.mpr ⟨holds _, ih⟩
  | _ => exact holds _

/-- What holds of every float holds of all floats in a value. -/
theorem floatSatisfies_of_forall {p : Binary64 → Prop} (holds : ∀ x, p x) (value : Value) :
    value.Throughout (FloatSatisfies p) := by
  refine throughout_of_forall (fun value => ?_) value
  unfold FloatSatisfies
  split
  · exact holds _
  · trivial

end SyncStore.Value
