import SyncStore.Proofs.Value
import SyncStore.Toml.Conversion

/-! Printed data has no null members, and in its tables the sections follow the values. -/

namespace SyncStore.Toml

mutual

/-- A value keeps everything but the null members of its objects. -/
def withoutNulls : Value → Value
  | .array items => .array (itemsWithoutNulls items)
  | .object members => .object (membersWithoutNulls members)
  | value => value

/-- Every item of an array is kept. -/
def itemsWithoutNulls : List Value → List Value
  | [] => []
  | item :: rest => withoutNulls item :: itemsWithoutNulls rest

/-- The members of an object that are not null keep their order. -/
def membersWithoutNulls : List (String × Value) → List (String × Value)
  | [] => []
  | (_, .null) :: rest => membersWithoutNulls rest
  | (key, value) :: rest => (key, withoutNulls value) :: membersWithoutNulls rest

end

/-- Objects and non-empty arrays of objects are printed as sections of a table. -/
def isSection : Value → Bool
  | .object _ => true
  | .array items => isTableList items
  | _ => false

/-- The members that are printed as sections follow all the others. -/
def sectionsLast (members : List (String × Value)) : List (String × Value) :=
  members.filter (fun member => !isSection member.2) ++
    members.filter fun member => isSection member.2

mutual

/-- A member of a table is a table itself, a list of tables, or a value on one line. -/
def asPrinted : Value → Value
  | .array items =>
    .array (if isTableList items then itemsAsPrinted items else itemsWithoutNulls items)
  | .object members => .object (sectionsLast (membersAsPrinted members))
  | value => value

/-- The tables of a list keep their order. -/
def itemsAsPrinted : List Value → List Value
  | [] => []
  | item :: rest => asPrinted item :: itemsAsPrinted rest

/-- The members of a table that are not null, as yet in their order. -/
def membersAsPrinted : List (String × Value) → List (String × Value)
  | [] => []
  | (_, .null) :: rest => membersAsPrinted rest
  | (key, value) :: rest => (key, asPrinted value) :: membersAsPrinted rest

end

/-- Data is printed as the root table. -/
def dataAsPrinted (data : Data) : Data := sectionsLast (membersAsPrinted data)

/-- A member that is written at all. -/
def isWritten (member : String × Value) : Bool := !member.2.isNull

/-- Every item is kept without its null members. -/
theorem itemsWithoutNulls_eq_map (items : List Value) :
    itemsWithoutNulls items = items.map withoutNulls := by
  induction items with
  | nil => rfl
  | cons item rest ih => rw [itemsWithoutNulls, ih, List.map_cons]

/-- The written members are kept without the null members in them. -/
theorem membersWithoutNulls_eq_map (members : List (String × Value)) :
    membersWithoutNulls members =
      (members.filter isWritten).map fun member => (member.1, withoutNulls member.2) := by
  induction members with
  | nil => rfl
  | cons member rest ih =>
    obtain ⟨key, value⟩ := member
    -- A null is filtered out, and any other value is kept without its own nulls.
    cases value <;> simp [membersWithoutNulls, isWritten, Value.isNull, ih]

/-- Every table of a list is printed in its turn. -/
theorem itemsAsPrinted_eq_map (items : List Value) :
    itemsAsPrinted items = items.map asPrinted := by
  induction items with
  | nil => rfl
  | cons item rest ih => rw [itemsAsPrinted, ih, List.map_cons]

/-- The written members are printed in their turn. -/
theorem membersAsPrinted_eq_map (members : List (String × Value)) :
    membersAsPrinted members =
      (members.filter isWritten).map fun member => (member.1, asPrinted member.2) := by
  induction members with
  | nil => rfl
  | cons member rest ih =>
    obtain ⟨key, value⟩ := member
    -- A null is filtered out here as well.
    cases value <;> simp [membersAsPrinted, isWritten, Value.isNull, ih]

/-- A value on one line is printed without its null members. -/
theorem asPrinted_of_not_section {value : Value} (line : isSection value = false) :
    asPrinted value = withoutNulls value := by
  -- Only a list with something beside tables is left, and scalars are what they are.
  cases value with
  | array items =>
    rw [isSection] at line
    rw [asPrinted, withoutNulls, line, if_neg Bool.false_ne_true]
  | object members => cases line
  | _ => simp only [asPrinted, withoutNulls]

/-- A value has members with or without the null ones. -/
theorem isObject_withoutNulls (value : Value) :
    (withoutNulls value).isObject = value.isObject := by
  cases value <;> simp [withoutNulls, Value.isObject]

/-- A value is printed as a section with or without null members. -/
theorem isSection_withoutNulls (value : Value) :
    isSection (withoutNulls value) = isSection value := by
  -- Dropping nulls inside its items makes no item a table that was none before.
  cases value with
  | array items =>
    rw [withoutNulls, isSection, isSection, isTableList, isTableList, itemsWithoutNulls_eq_map]
    simp [Function.comp_def, isObject_withoutNulls]
  | _ => simp [withoutNulls, isSection]

end SyncStore.Toml
