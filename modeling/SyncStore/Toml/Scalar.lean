import SyncStore.Toml.Datetime
import SyncStore.Toml.Document
import SyncStore.Toml.Quoted

/-! Unquoted TOML values are booleans, numbers, dates and times. -/

namespace SyncStore.Toml

/-- An unquoted value ends at a gap, a line end, a comment, a bracket, a comma or a quote. -/
def endsScalar (c : Char) : Bool := " \t\r\n#,[]\x7b\x7d=\"'".toList.contains c

/-- Digits of a base in either case, with single underscores between them. -/
def ungrouped? (isDigit : Char → Bool) (text : List Char) : Option (List Char) :=
  -- An underscore without a digit on either side leaves an empty group.
  let groups := text.splitOn '_'
  if groups.all fun group => !group.isEmpty && group.all isDigit then some groups.flatten
  else none

/-- A whole part has no leading zero. -/
def wholeDigits? (text : List Char) : Option (List Char) :=
  -- A zero may only stand alone.
  if text.head? = some '0' && text.length ≠ 1 then none else ungrouped? Char.isDigit text

/-- A magnitude under a sign must fit a signed word. -/
def integer? (negative : Bool) (magnitude : Nat) : Option Inline :=
  (SignedInt.ofInt? (if negative then -magnitude else magnitude)).map .integer

/-- The digits of a power of two as base. -/
def isDigitOf (base : Nat) (c : Char) : Bool := (Json.hexValue? c).any (· < base)

/-- An integer in a base other than ten has no sign. -/
def basedInteger? (base : Nat) (text : List Char) : Option Inline := do
  let digits ← ungrouped? (isDigitOf base) text
  integer? false (digits.foldl (fun n c => base * n + (Json.hexValue? c).getD 0) 0)

/-- The exponent of a float is marked by a letter. -/
def marksExponent (c : Char) : Bool := c = 'e' || c = 'E'

/-- An exponent is an optional sign and digits, which may start with zeros. -/
def exponent? (text : List Char) : Option (Option (List Char)) :=
  match text with
  | [] => some none
  | _ :: rest =>
    let (negative, digits) := splitSign rest
    (ungrouped? Char.isDigit digits).map fun digits =>
      some ((if negative then ['-'] else []) ++ digits)

/-- A fraction has digits behind its point. -/
def fraction? (text : List Char) : Option (Option (List Char)) :=
  match text with
  | [] => some none
  | _ :: digits => (ungrouped? Char.isDigit digits).map some

/-- A float is a whole part with a fraction or an exponent or both, and is
read as the nearest number. -/
def float? (negative : Bool) (text : List Char) : Option Inline := do
  let mantissa := text.takeWhile (!marksExponent ·)
  let whole ← wholeDigits? (mantissa.takeWhile (· ≠ '.'))
  let fraction ← fraction? (mantissa.dropWhile (· ≠ '.'))
  let exponent ← exponent? (text.dropWhile (!marksExponent ·))
  let spelled := whole ++ ((fraction.map ('.' :: ·)).getD []) ++ ((exponent.map ('e' :: ·)).getD [])
  let x ← Real64.read? ((if negative then ['-'] else []) ++ spelled)
  match x with
  -- A float past the largest one is refused, and infinity has a name of its own.
  | .finite _ => some (.float x)
  | _ => none

/-- A number is a float when it has a point or an exponent. -/
def number? (negative : Bool) (text : List Char) : Option Inline :=
  if text.any fun c => c = '.' || marksExponent c then float? negative text
  else (wholeDigits? text).bind fun digits => integer? negative (Decimal.natOfDigits digits)

/-- Behind its first digits a date or a time goes on with a dash or a colon. -/
def isDatetime (text : List Char) : Bool :=
  match text.dropWhile Char.isDigit with
  | '-' :: _ => true
  | ':' :: _ => true
  | _ => false

/-- A value without quotes is told by its first characters. -/
def unquoted? (text : List Char) : Option Inline :=
  match text with
  | '0' :: 'x' :: digits => basedInteger? 16 digits
  | '0' :: 'o' :: digits => basedInteger? 8 digits
  | '0' :: 'b' :: digits => basedInteger? 2 digits
  | _ =>
    -- A sign may stand in front of a number, infinity included, and of nothing else.
    let (negative, unsigned) := splitSign text
    if text = "true".toList then some (.boolean true)
    else if text = "false".toList then some (.boolean false)
    else if unsigned = "inf".toList then some (.float (.infinite negative))
    else if unsigned = "nan".toList then some (.float .notANumber)
    -- A date starts with digits as well, so it is tried before the numbers.
    else if (text.head?.any Char.isDigit) && isDatetime text then
      (readDatetime text).map fun datetime => .datetime (String.ofList datetime.render)
    else if unsigned.head?.any Char.isDigit then number? negative unsigned
    else none

/-- A date may be followed by a blank and a time. -/
def scalarText (text : List Char) : List Char × List Char :=
  let word := text.takeWhile (!endsScalar ·)
  match text.dropWhile (!endsScalar ·) with
  | ' ' :: c :: rest =>
    -- Only a date of ten characters may be followed by a blank and a time.
    if word.length = 10 && isDatetime word && c.isDigit then
      (word ++ ' ' :: (c :: rest).takeWhile (!endsScalar ·), (c :: rest).dropWhile (!endsScalar ·))
    else (word, ' ' :: c :: rest)
  | rest => (word, rest)

/-- A value without quotes is taken off the front of a text. -/
def readUnquoted (text : List Char) : Option (Inline × List Char) :=
  let (word, rest) := scalarText text
  (unquoted? word).map fun value => (value, rest)

end SyncStore.Toml
