import SyncStore.Store.StoreError
import SyncStore.Toml.Document

/-! Data becomes a TOML document unless TOML cannot represent it, and a
document becomes data again. -/

namespace SyncStore.Toml

/-- A defect of the data itself is a failure of its serialization. -/
def unwritable (defect : Defect) : StoreError := .serialization none defect

/-- An integer above the signed words is refused. -/
def inlineNumber : Number → Except StoreError Inline
  | .int n =>
    match SignedInt.ofInt? n.val with
    | some n => .ok (.integer n)
    | none => .error (unwritable (.integerOutOfRange n))
  | .float x => .ok (.float (.finite x))

mutual

/-- A value inside an array or an inline table; null has no form of its own. -/
def inlineOf : Value → Except StoreError Inline
  | .null => .error (unwritable .nullInArray)
  | .bool b => .ok (.boolean b)
  | .number n => inlineNumber n
  | .string s => .ok (.string s)
  | .array items => (inlineItems items).map .array
  | .object members => (inlineMembers members).map .table

/-- The first item that cannot be represented decides the failure. -/
def inlineItems : List Value → Except StoreError (List Inline)
  | [] => .ok []
  | item :: rest =>
    match inlineOf item with
    | .error error => .error error
    | .ok first => (inlineItems rest).map (first :: ·)

/-- Null members are left out of inline tables. -/
def inlineMembers : List (String × Value) → Except StoreError (List (String × Inline))
  | [] => .ok []
  | (_, .null) :: rest => inlineMembers rest
  | (key, value) :: rest =>
    match inlineOf value with
    | .error error => .error error
    | .ok first => (inlineMembers rest).map ((key, first) :: ·)

end

/-- A non-empty array whose items are all objects is written as a list of tables. -/
def isTableList (items : List Value) : Bool := !items.isEmpty && items.all Value.isObject

mutual

/-- A member of a table is an item, and null is none. -/
def itemOf : Value → Except StoreError (Option Item)
  | .null => .ok none
  | .object members => (tableOf members).map fun entries => some (.table entries)
  | .array items =>
    -- Only such a list can stand in sections of its own.
    if isTableList items then (tablesOf items).map fun elements => some (.tables elements)
    else (inlineItems items).map fun items => some (.value (.array items))
  | .bool b => .ok (some (.value (.boolean b)))
  | .number n => (inlineNumber n).map fun n => some (.value n)
  | .string s => .ok (some (.value (.string s)))

/-- The members of a table keep their order, and null members are left out. -/
def tableOf : List (String × Value) → Except StoreError (List (String × Item))
  | [] => .ok []
  | (key, value) :: rest =>
    match itemOf value with
    | .error error => .error error
    -- A null member has no item.
    | .ok none => tableOf rest
    | .ok (some item) => (tableOf rest).map ((key, item) :: ·)

/-- The objects among some values become tables. -/
def tablesOf : List Value → Except StoreError (List (List (String × Item)))
  | [] => .ok []
  | .object members :: rest =>
    match tableOf members with
    | .error error => .error error
    | .ok first => (tablesOf rest).map (first :: ·)
  -- A list of tables has no other items, so nothing is lost here.
  | _ :: rest => tablesOf rest

end

/-- Data becomes a document, or the first value that cannot be represented decides the failure. -/
def ofData (data : Data) : Except StoreError Document := tableOf data

/-- Only finite floats have a value. -/
def floatValue : Real64 → Except StoreError Value
  | .finite x => .ok (.number (.float x))
  | x => .error (.invalidData none (.nonFiniteFloat x))

mutual

/-- The value of an inline form; dates and times become their text. -/
def inlineValue : Inline → Except StoreError Value
  | .string s => .ok (.string s)
  | .integer n => .ok (.number (.int n.toWord))
  | .float x => floatValue x
  | .boolean b => .ok (.bool b)
  | .datetime text => .ok (.string text)
  | .array items => (itemValues items).map .array
  | .table entries => (inlineEntries entries).map .object

/-- The values of items in a row. -/
def itemValues : List Inline → Except StoreError (List Value)
  | [] => .ok []
  | item :: rest =>
    match inlineValue item with
    | .error error => .error error
    | .ok first => (itemValues rest).map (first :: ·)

/-- The values of the entries of an inline table. -/
def inlineEntries : List (String × Inline) → Except StoreError (List (String × Value))
  | [] => .ok []
  | (key, item) :: rest =>
    match inlineValue item with
    | .error error => .error error
    | .ok first => (inlineEntries rest).map ((key, first) :: ·)

end

mutual

/-- The value of an item of a table. -/
def itemValue : Item → Except StoreError Value
  | .value v => inlineValue v
  | .table entries => (entryValues entries).map .object
  | .tables elements => (elementValues elements).map .array

/-- The values of the entries of a table, in their order. -/
def entryValues : List (String × Item) → Except StoreError (List (String × Value))
  | [] => .ok []
  | (key, item) :: rest =>
    match itemValue item with
    | .error error => .error error
    | .ok first => (entryValues rest).map ((key, first) :: ·)

/-- The values of a list of tables. -/
def elementValues : List (List (String × Item)) → Except StoreError (List Value)
  | [] => .ok []
  | entries :: rest =>
    match entryValues entries with
    | .error error => .error error
    | .ok first => (elementValues rest).map (.object first :: ·)

end

/-- The data of a document; the first float that is not finite decides the failure. -/
def toData (document : Document) : Except StoreError Data := entryValues document

end SyncStore.Toml
