import SyncStore.Proofs.Except
import SyncStore.Proofs.Value
import SyncStore.Toml.Conversion

/-! Data has a TOML document exactly when no place in it is defective. -/

namespace SyncStore.Toml

/--
A value at some place in data.

- `isItem`: the place is that of an item of an array
-/
structure Place where
  isItem : Bool
  value : Value

/-- Null has no form as an item, and an integer above the signed words has none anywhere. -/
def Place.defect? (place : Place) : Option Defect :=
  match place.value with
  | .null => if place.isItem then some .nullInArray else none
  | .number (.int n) => if n.isSigned then none else some (.integerOutOfRange n)
  | _ => none

mutual

/-- The places of a value: its own, and then depth-first those inside it. -/
def places (isItem : Bool) : Value → List Place
  | .array items => ⟨isItem, .array items⟩ :: placesOfItems items
  | .object members => ⟨isItem, .object members⟩ :: placesOfMembers members
  | value => [⟨isItem, value⟩]

/-- The places of the items of an array. -/
def placesOfItems : List Value → List Place
  | [] => []
  | item :: rest => places true item ++ placesOfItems rest

/-- The places of the members of an object, in the order of their keys. -/
def placesOfMembers : List (String × Value) → List Place
  | [] => []
  | (_, value) :: rest => places false value ++ placesOfMembers rest

end

/-- The first defect among some places. -/
def firstDefect (places : List Place) : Option Defect := places.findSome? Place.defect?

@[simp] theorem firstDefect_nil : firstDefect [] = none := rfl

@[simp] theorem firstDefect_append (front back : List Place) :
    firstDefect (front ++ back) = (firstDefect front).or (firstDefect back) :=
  List.findSome?_append

/-- A composite has no defect of its own. -/
theorem firstDefect_array (isItem : Bool) (items : List Value) :
    firstDefect (places isItem (.array items)) = firstDefect (placesOfItems items) := by
  rw [places, firstDefect, List.findSome?_cons]
  rfl

theorem firstDefect_object (isItem : Bool) (members : List (String × Value)) :
    firstDefect (places isItem (.object members)) = firstDefect (placesOfMembers members) := by
  rw [places, firstDefect, List.findSome?_cons]
  rfl

/-- A scalar is the only place in it. -/
theorem firstDefect_scalar {isItem : Bool} {value : Value}
    (scalar : places isItem value = [⟨isItem, value⟩]) :
    firstDefect (places isItem value) = Place.defect? ⟨isItem, value⟩ := by
  rw [scalar, firstDefect, List.findSome?_cons]
  cases Place.defect? ⟨isItem, value⟩ <;> rfl

/-- A word is signed or refused. -/
theorem SignedInt.ofInt?_word (n : WordInt) :
    (SignedInt.ofInt? n.val).isSome = n.isSigned := by
  unfold ofInt? WordInt.isSigned
  -- No word lies below the signed ones.
  split
  · rename_i inside
    exact (decide_eq_true inside.2).symm
  · rename_i outside
    exact (decide_eq_false fun below => outside ⟨n.lower, below⟩).symm

/-- An integer is refused exactly when it lies above the signed words. -/
theorem failure?_inlineNumber (isItem : Bool) (n : Number) :
    failure? (inlineNumber n) = (Place.defect? ⟨isItem, .number n⟩).map unwritable := by
  cases n with
  | float x => rfl
  | int n =>
    have signed := SignedInt.ofInt?_word n
    rw [inlineNumber]
    cases word : SignedInt.ofInt? n.val with
    | some m =>
      rw [word] at signed
      simp [Place.defect?, ← signed]
    | none =>
      rw [word] at signed
      simp [Place.defect?, ← signed]

/-- The first failure of a row of items is that of its first item, or of those behind it. -/
theorem failure?_inlineItems_cons (item : Value) (rest : List Value) :
    failure? (inlineItems (item :: rest)) =
      (failure? (inlineOf item)).or (failure? (inlineItems rest)) := by
  rw [inlineItems]
  cases inlineOf item <;> simp

/-- A null member is passed over in an inline table. -/
theorem failure?_inlineMembers_cons (key : String) (value : Value)
    (rest : List (String × Value)) :
    failure? (inlineMembers ((key, value) :: rest)) =
      (if value.isNull then none else failure? (inlineOf value)).or
        (failure? (inlineMembers rest)) := by
  cases null : value.isNull with
  | true =>
    cases value with
    | null => rw [inlineMembers]; rfl
    | _ => cases null
  | false =>
    rw [inlineMembers]
    · cases inlineOf value <;> simp
    · rintro rfl
      cases null

/-- A null member of a table has no item and no failure. -/
theorem failure?_tableOf_cons (key : String) (value : Value) (rest : List (String × Value)) :
    failure? (tableOf ((key, value) :: rest)) =
      (failure? (itemOf value)).or (failure? (tableOf rest)) := by
  rw [tableOf]
  cases itemOf value with
  | error error => simp
  | ok item => cases item <;> simp

/-- The first failure of a list of tables is that of its first table, or of those behind it. -/
theorem failure?_tablesOf_cons (item : Value) (rest : List Value) (object : item.isObject) :
    failure? (tablesOf (item :: rest)) =
      (failure? (itemOf item)).or (failure? (tablesOf rest)) := by
  cases item with
  | object members =>
    rw [tablesOf, itemOf]
    cases tableOf members <;> simp
  | _ => cases object

/--
A value fails as its first defect says, wherever it stands.

- `inline`: inside an array or an inline table, where null members are passed over before
- `item`: as a member of a table
-/
structure FailsFirst (value : Value) : Prop where
  inline : ∀ isItem, (value.isNull = true → isItem = true) →
    failure? (inlineOf value) = (firstDefect (places isItem value)).map unwritable
  item : failure? (itemOf value) = (firstDefect (places false value)).map unwritable

/-- Items fail as the first defect among them says. -/
theorem failure?_inlineItems {items : List Value} (first : ∀ item ∈ items, FailsFirst item) :
    failure? (inlineItems items) = (firstDefect (placesOfItems items)).map unwritable := by
  induction items with
  | nil => rw [inlineItems]; rfl
  | cons item rest ih =>
    obtain ⟨head, tail⟩ := List.forall_mem_cons.mp first
    rw [failure?_inlineItems_cons, placesOfItems, firstDefect_append, Option.map_or, ih tail,
      head.inline true fun _ => rfl]

/-- So do the members of an inline table. -/
theorem failure?_inlineMembers {members : List (String × Value)}
    (first : ∀ member ∈ members, FailsFirst member.2) :
    failure? (inlineMembers members) = (firstDefect (placesOfMembers members)).map unwritable := by
  induction members with
  | nil => rw [inlineMembers]; rfl
  | cons member rest ih =>
    obtain ⟨key, value⟩ := member
    obtain ⟨head, tail⟩ := List.forall_mem_cons.mp first
    rw [failure?_inlineMembers_cons, placesOfMembers, firstDefect_append, Option.map_or, ih tail]
    -- A null member has no defect, because it is no item.
    cases null : value.isNull with
    | true =>
      cases value with
      | null => rfl
      | _ => cases null
    | false => rw [if_neg (by simp), head.inline false (by simp [null])]

/-- So do the members of a table. -/
theorem failure?_tableOf {members : List (String × Value)}
    (first : ∀ member ∈ members, FailsFirst member.2) :
    failure? (tableOf members) = (firstDefect (placesOfMembers members)).map unwritable := by
  induction members with
  | nil => rw [tableOf]; rfl
  | cons member rest ih =>
    obtain ⟨key, value⟩ := member
    obtain ⟨head, tail⟩ := List.forall_mem_cons.mp first
    rw [failure?_tableOf_cons, placesOfMembers, firstDefect_append, Option.map_or, ih tail,
      head.item]

/-- So do the objects of a list of tables, where being an item or a member is all the same. -/
theorem failure?_tablesOf {items : List Value} (objects : items.all Value.isObject)
    (first : ∀ item ∈ items, FailsFirst item) :
    failure? (tablesOf items) = (firstDefect (placesOfItems items)).map unwritable := by
  induction items with
  | nil => rw [tablesOf]; rfl
  | cons item rest ih =>
    obtain ⟨head, tail⟩ := List.forall_mem_cons.mp first
    obtain ⟨object, objects⟩ := by simpa using objects
    rw [failure?_tablesOf_cons item rest object, placesOfItems, firstDefect_append, Option.map_or,
      ih (by simpa using objects) tail, head.item]
    cases item with
    | object members => rw [firstDefect_object, firstDefect_object]
    | _ => cases object

/-- Every value fails as its first defect says. -/
theorem failsFirst (value : Value) : FailsFirst value := by
  -- The parts of a composite fail so, and a composite adds no defect of its own.
  induction value using Value.parts_induction with
  | null =>
    constructor
    · intro isItem item
      obtain rfl := item rfl
      rw [inlineOf]; rfl
    · rw [itemOf]; rfl
  | bool b => exact ⟨fun isItem _ => by rw [inlineOf]; rfl, by rw [itemOf]; rfl⟩
  | string s => exact ⟨fun isItem _ => by rw [inlineOf]; rfl, by rw [itemOf]; rfl⟩
  | number n =>
    refine ⟨fun isItem _ => ?_, ?_⟩
    · rw [inlineOf, firstDefect_scalar rfl, failure?_inlineNumber isItem]
    · rw [itemOf, firstDefect_scalar rfl, failure?_map, failure?_inlineNumber false]
  | array items first =>
    refine ⟨fun isItem _ => ?_, ?_⟩
    · rw [inlineOf, failure?_map, firstDefect_array, failure?_inlineItems first]
    · rw [itemOf, firstDefect_array]
      -- The array is a list of tables, or it is written on one line.
      split
      · rename_i tables
        rw [isTableList, Bool.and_eq_true] at tables
        rw [failure?_map, failure?_tablesOf tables.2 first]
      · rw [failure?_map, failure?_inlineItems first]
  | object members first =>
    refine ⟨fun isItem _ => ?_, ?_⟩
    · rw [inlineOf, failure?_map, firstDefect_object, failure?_inlineMembers first]
    · rw [itemOf, failure?_map, firstDefect_object, failure?_tableOf first]

/-- The conversion of data fails with its first defect, and succeeds when there is none. -/
theorem failure?_ofData (data : Data) :
    failure? (ofData data) = (firstDefect (placesOfMembers data)).map unwritable :=
  failure?_tableOf fun member _ => failsFirst member.2

/-- What is defective under a key is defective in the data. -/
theorem firstDefect_of_get? {data : Data} {key : String} {value : Value}
    (found : data.get? key = some value)
    (defective : firstDefect (places false value) ≠ none) :
    firstDefect (placesOfMembers data) ≠ none := by
  induction data with
  | nil => cases found
  | cons member rest ih =>
    obtain ⟨first, other⟩ := member
    rw [placesOfMembers, firstDefect_append, ne_eq, Option.or_eq_none_iff, not_and_or]
    rw [OrderedMap.get?] at found
    -- The key is the first one, or it is found behind that.
    split at found
    · obtain rfl := Option.some.inj found
      exact .inl defective
    · exact .inr (ih found)

/-- Nothing is wrong with a value itself: it is no array with nulls and no integer too large. -/
def Representable : Value → Prop
  | .array items => ∀ item ∈ items, item.isNull = false
  | .number (.int n) => n.isSigned = true
  | _ => True

/-- Items have no defect when none of them has one. -/
theorem firstDefect_placesOfItems {items : List Value} :
    firstDefect (placesOfItems items) = none ↔
      ∀ item ∈ items, firstDefect (places true item) = none := by
  induction items with
  | nil => simp [placesOfItems]
  | cons item rest ih => simp [placesOfItems, ih]

/-- Members have no defect when none of them has one. -/
theorem firstDefect_placesOfMembers {members : List (String × Value)} :
    firstDefect (placesOfMembers members) = none ↔
      ∀ member ∈ members, firstDefect (places false member.2) = none := by
  induction members with
  | nil => simp [placesOfMembers]
  | cons member rest ih =>
    obtain ⟨key, value⟩ := member
    simp [placesOfMembers, ih]

/-- A value has no defect when it is representable throughout, and no null where items stand. -/
theorem firstDefect_eq_none {value : Value} {isItem : Bool} :
    firstDefect (places isItem value) = none ↔
      (isItem = true → value.isNull = false) ∧ value.Throughout Representable := by
  induction value using Value.parts_induction generalizing isItem with
  | null =>
    rw [firstDefect_scalar rfl]
    cases isItem <;> simp [Place.defect?, Value.isNull, Value.Throughout, Representable]
  | number n =>
    rw [firstDefect_scalar rfl]
    cases n <;> simp [Place.defect?, Value.isNull, Value.Throughout, Representable]
  | array items ih =>
    rw [firstDefect_array, firstDefect_placesOfItems, Value.throughout_array, Representable]
    -- No item is a null, and nothing is wrong inside any.
    constructor
    · intro none
      have parts := fun item inside => (ih item inside).mp (none item inside)
      exact ⟨fun _ => rfl, fun item inside => (parts item inside).1 rfl,
        fun item inside => (parts item inside).2⟩
    · rintro ⟨-, written, parts⟩ item inside
      exact (ih item inside).mpr ⟨fun _ => written item inside, parts item inside⟩
  | object members ih =>
    rw [firstDefect_object, firstDefect_placesOfMembers, Value.throughout_object]
    constructor
    · intro none
      exact ⟨fun _ => rfl, trivial, fun member inside =>
        ((ih member inside).mp (none member inside)).2⟩
    · rintro ⟨-, -, parts⟩ member inside
      exact (ih member inside).mpr
        ⟨fun listed => (Bool.false_ne_true listed).elim, parts member inside⟩
  | _ =>
    rw [firstDefect_scalar rfl]
    simp [Place.defect?, Value.isNull, Value.Throughout, Representable]

/-- Data has no defect when it is representable throughout. -/
theorem firstDefect_data {data : Data} :
    firstDefect (placesOfMembers data) = none ↔ (Value.object data).Throughout Representable := by
  rw [← firstDefect_object false, firstDefect_eq_none]
  simp

end SyncStore.Toml
