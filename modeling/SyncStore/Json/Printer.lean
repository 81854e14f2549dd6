import SyncStore.Decimal.Layout
import SyncStore.Value

/-! The compact and the indented JSON text of a value. -/

namespace SyncStore.Json

/-- JSON shows numbers far from one with a signed exponent and keeps a fraction on every float. -/
def floats : FloatLayout := ⟨true, true, true, .toEven⟩

/-- The hexadecimal digits of a character below U+0020, four in all and in lower case. -/
def controlDigits (c : Char) : List Char :=
  '0' :: '0' :: Nat.digitChar (c.toNat / 16) :: [Nat.digitChar (c.toNat % 16)]

/-- A character inside a string is escaped when it is a quote, a backslash or
a control character. -/
def escape (c : Char) : List Char :=
  match c with
  | '"' => ['\\', '"']
  | '\\' => ['\\', '\\']
  | '\n' => ['\\', 'n']
  | '\r' => ['\\', 'r']
  | '\t' => ['\\', 't']
  | '\x08' => ['\\', 'b']
  | '\x0c' => ['\\', 'f']
  -- Other control characters have no short escape.
  | c => if c.toNat < 0x20 then '\\' :: 'u' :: controlDigits c else [c]

/-- A string stands between quotes. -/
def quote (s : String) : List Char := '"' :: (s.toList.flatMap escape ++ ['"'])

/-- A number is written in decimal, and only floats have a point. -/
def number : Number → List Char
  | .int n => n.render
  | .float x => floats.render x

/-- A scalar has one text in both layouts, and a composite has none here. -/
def scalar : Value → List Char
  | .null => "null".toList
  | .bool true => "true".toList
  | .bool false => "false".toList
  | .number n => number n
  | .string s => quote s
  | _ => []

mutual

/-- The compact text of a value has no blanks. -/
def compact : Value → List Char
  | .array items => '[' :: (compactItems items ++ [']'])
  | .object members => '{' :: (compactMembers members ++ ['}'])
  | value => scalar value

/-- Items are separated by commas. -/
def compactItems : List Value → List Char
  | [] => []
  | [item] => compact item
  | item :: rest => compact item ++ ',' :: compactItems rest

/-- Members are keys and values joined by colons and separated by commas. -/
def compactMembers : List (String × Value) → List Char
  | [] => []
  | [(key, value)] => quote key ++ ':' :: compact value
  | (key, value) :: rest => quote key ++ ':' :: (compact value ++ ',' :: compactMembers rest)

end

/-- A new line is indented by two blanks for each level. -/
def newLine (level : Nat) : List Char := '\n' :: List.replicate (2 * level) ' '

mutual

/-- The indented text of a value puts each item and each member on a line of its own. -/
def indented (level : Nat) : Value → List Char
  | .array [] => ['[', ']']
  | .array items => '[' :: (indentedItems (level + 1) items ++ newLine level ++ [']'])
  | .object [] => ['{', '}']
  | .object members => '{' :: (indentedMembers (level + 1) members ++ newLine level ++ ['}'])
  | value => scalar value

/-- Every item opens a line, and all but the last end in a comma. -/
def indentedItems (level : Nat) : List Value → List Char
  | [] => []
  | [item] => newLine level ++ indented level item
  | item :: rest => newLine level ++ indented level item ++ ',' :: indentedItems level rest

/-- Every member opens a line, and all but the last end in a comma. -/
def indentedMembers (level : Nat) : List (String × Value) → List Char
  | [] => []
  | [(key, value)] => newLine level ++ quote key ++ ':' :: ' ' :: indented level value
  | (key, value) :: rest =>
    newLine level ++ quote key ++ ':' :: ' ' :: indented level value ++
      ',' :: indentedMembers level rest

end

end SyncStore.Json

namespace SyncStore

/-- The compact JSON text of a value. -/
def Value.compactText (value : Value) : String := String.ofList (Json.compact value)

/-- The indented JSON text of a value. -/
def Value.indentedText (value : Value) : String := String.ofList (Json.indented 0 value)

end SyncStore
