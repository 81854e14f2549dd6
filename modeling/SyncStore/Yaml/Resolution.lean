import SyncStore.Decimal.Integer
import SyncStore.Json.Reader

/-! Plain text stands for null, a boolean, an integer, a float or itself. -/

namespace SyncStore.Yaml

/-- What plain text stands for; an integer may lie outside every word. -/
inductive Plain where
  | null
  | bool (b : Bool)
  | integer (n : Int)
  | float (x : Real64)
  | text

/-- Null has four spellings. -/
def isNull (text : String) : Bool := ["null", "Null", "NULL", "~"].contains text

/-- Either boolean has three spellings. -/
def boolean? (text : String) : Option Bool :=
  if ["true", "True", "TRUE"].contains text then some true
  else if ["false", "False", "FALSE"].contains text then some false
  else none

/-- Several digits that start with a zero are no number. -/
def isPadded (text : List Char) : Bool :=
  match (splitSign text).2 with
  | '0' :: c :: rest => (c :: rest).all Char.isDigit
  | _ => false

/-- A digit of a base. -/
def isDigitOf (base : Nat) (c : Char) : Bool := (Json.hexValue? c).any (· < base)

/-- A natural number in a base has digits and nothing else. -/
def natural? (base : Nat) (digits : List Char) : Option Nat :=
  if !digits.isEmpty && digits.all (isDigitOf base)
  then some (digits.foldl (fun n c => base * n + (Json.hexValue? c).getD 0) 0)
  else none

/-- The largest integer that is recognised as one has this many bits. -/
def widestBits : Nat := 128

/-- A number without a minus sign is decimal, or hexadecimal, octal or binary behind its mark. -/
def unsigned? (text : List Char) : Option Nat :=
  match text with
  | '0' :: 'x' :: digits => natural? 16 digits
  | '0' :: 'o' :: digits => natural? 8 digits
  | '0' :: 'b' :: digits => natural? 2 digits
  | digits => if isPadded digits then none else natural? 10 digits

/-- An integer has at most one sign and stays within the widest word. -/
def integer? (text : List Char) : Option Int :=
  match text with
  | '-' :: rest =>
    match unsigned? rest with
    | some n => if n ≤ 2 ^ (widestBits - 1) then some (-n) else none
    | none => none
  | '+' :: rest =>
    (unsigned? rest).bind fun n => if n < 2 ^ widestBits then some (n : Int) else none
  | rest => (unsigned? rest).bind fun n => if n < 2 ^ widestBits then some (n : Int) else none

/-- The text behind one plus sign, which no other sign follows. -/
def withoutPlus? (text : List Char) : Option (List Char) :=
  match text with
  | '+' :: c :: rest => if c = '+' || c = '-' then none else some (c :: rest)
  | '+' :: [] => some []
  | text => some text

/-- A float is infinite or no number by name, or else finite. -/
def float? (text : List Char) : Option Real64 :=
  match withoutPlus? text with
  | none => none
  | some unsigned =>
    if [".inf", ".Inf", ".INF"].contains (String.ofList unsigned) then some (.infinite false)
    else if ["-.inf", "-.Inf", "-.INF"].contains (String.ofList text) then some (.infinite true)
    else if [".nan", ".NaN", ".NAN"].contains (String.ofList text) then some .notANumber
    else
      match Real64.read? unsigned with
      | some (.finite x) => some (.finite x)
      | _ => none

/-- The first reading that fits decides what plain text stands for. -/
def Plain.ofText (text : String) : Plain :=
  if text.isEmpty || isNull text then .null
  else
    match boolean? text, integer? text.toList with
    | some b, _ => .bool b
    | none, some n => .integer n
    | none, none =>
      if isPadded text.toList then .text
      else ((float? text.toList).map Plain.float).getD .text

end SyncStore.Yaml
