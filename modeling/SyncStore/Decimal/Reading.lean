import SyncStore.Decimal.Shortest

/-! Decimal text is read as the nearest binary64 number. -/

namespace SyncStore

namespace Decimal

/-- A decimal digit has this value. -/
def digitValue (c : Char) : Nat := c.toNat - '0'.toNat

/-- The value of a run of decimal digits. -/
def natOfDigits (digits : List Char) : Nat :=
  digits.foldl (fun value c => 10 * value + digitValue c) 0

/--
The datum nearest to a signed decimal.

Decimals far outside the range of binary64 are settled by their size alone, so a huge exponent
costs nothing.
-/
def toReal (negative : Bool) (d : Decimal) : Real64 :=
  let size := d.exponent + d.digits.length
  if d.coefficient = 0 ∨ size < -400 then .finite (Binary64.zero negative)
  else if 400 < size then .infinite negative
  else .ofQuotient negative d.numerator d.denominator

/-- Whole digits and fraction digits together are one coefficient, scaled by the fraction digits. -/
def ofParts (whole fraction : List Char) (exponent : Int) : Decimal :=
  ⟨natOfDigits (whole ++ fraction), exponent - fraction.length⟩

end Decimal

/-- An optional sign in front of a text is negative only when it is a minus sign. -/
def splitSign : List Char → Bool × List Char
  | '-' :: rest => (true, rest)
  | '+' :: rest => (false, rest)
  | rest => (false, rest)

/-- A run of digits with an optional sign is an integer, and anything else is none. -/
def readSignedDigits? (text : List Char) : Option Int :=
  let (negative, digits) := splitSign text
  if digits.isEmpty || !digits.all Char.isDigit then none
  else
    let value := Decimal.natOfDigits digits
    some (if negative then -value else value)

/-- The part of a number after its digits is empty or an exponent. -/
def readExponent? : List Char → Option Int
  | [] => some 0
  | c :: rest => if c = 'e' ∨ c = 'E' then readSignedDigits? rest else none

/-- Text without a sign is a decimal when it has a digit before or after an optional point. -/
def readUnsignedDecimal? (text : List Char) : Option Decimal :=
  let whole := text.takeWhile Char.isDigit
  let afterWhole := text.dropWhile Char.isDigit
  let (fraction, rest) := match afterWhole with
    | '.' :: tail => (tail.takeWhile Char.isDigit, tail.dropWhile Char.isDigit)
    | tail => ([], tail)
  -- A point alone is no number.
  if whole.isEmpty && fraction.isEmpty then none
  else (readExponent? rest).map (Decimal.ofParts whole fraction)

/--
Text is a number when it is a signed decimal or, in any case of letters, a name of infinity or of
no number.

The number read is the nearest one, and a decimal past the largest one reads as infinity.
-/
def Real64.read? (text : List Char) : Option Real64 :=
  let (negative, rest) := splitSign text
  let name := rest.map Char.toLower
  if name = "inf".toList ∨ name = "infinity".toList then some (.infinite negative)
  else if name = "nan".toList then some .notANumber
  else (readUnsignedDecimal? rest).map (Decimal.toReal negative)

end SyncStore
