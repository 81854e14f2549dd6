import SyncStore.Decimal.Layout

/-! The value of a setting has one of five types. -/

namespace SyncStore

/-- The type that a setting is fixed to. -/
inductive SettingType where
  | int
  | float
  | str
  | bool
  | list
  deriving DecidableEq

/-- The name of a type. -/
def SettingType.name : SettingType → String
  | .int => "int"
  | .float => "float"
  | .str => "str"
  | .bool => "bool"
  | .list => "list"

/-- The value of a setting; the items of a list may have any type. -/
inductive SettingValue where
  | int (n : Int)
  | float (x : Real64)
  | str (s : String)
  | bool (b : Bool)
  | list (items : List SettingValue)
  deriving Inhabited

namespace SettingValue

/-- Every value has exactly one type. -/
def type : SettingValue → SettingType
  | .int _ => .int
  | .float _ => .float
  | .str _ => .str
  | .bool _ => .bool
  | .list _ => .list

/-- The integer of an integer value. -/
def int? : SettingValue → Option Int
  | .int n => some n
  | _ => none

/-- The numeric view of a value widens integers to the nearest float. -/
def real? : SettingValue → Option Real64
  | .int n => some (.ofInt n)
  | .float x => some x
  | _ => none

/-- The text of a text value. -/
def str? : SettingValue → Option String
  | .str s => some s
  | _ => none

/-- The items of a list value. -/
def list? : SettingValue → Option (List SettingValue)
  | .list items => some items
  | _ => none

mutual

/-- The display of a value shows texts without quotes. -/
def display : SettingValue → List Char
  | .int n => (toString n).toList
  | .float x => FloatLayout.plain.renderReal x
  | .str s => s.toList
  | .bool true => "true".toList
  | .bool false => "false".toList
  | .list items => '[' :: (displayItems items ++ [']'])

/-- The items of a list are separated by a comma and a space. -/
def displayItems : List SettingValue → List Char
  | [] => []
  | [item] => display item
  | item :: rest => display item ++ ',' :: ' ' :: displayItems rest

end

end SettingValue

end SyncStore
