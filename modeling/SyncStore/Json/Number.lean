import SyncStore.Decimal.Reading
import SyncStore.Json.SyntaxError
import SyncStore.Value

/-! JSON numbers are integers while they fit a word, and floats rounded once per step otherwise. -/

namespace SyncStore.Json

/-- Reading takes a value off the front of a text and leaves the rest. -/
abbrev Reads (α : Type) := Except Fault (α × List Char)

/-- A fault behind the text that is left. -/
def failAt {α : Type} (cause : Cause) (rest : List Char) : Except Fault α :=
  .error ⟨cause, byteCount rest⟩

/-- A fault one byte into the text that is left. -/
def failAfter {α : Type} (cause : Cause) (rest : List Char) : Except Fault α :=
  .error ⟨cause, byteCount rest - 1⟩

/-- Digits enter a significand while it stays below a bound; the count tells how many did. -/
def absorbDigits (bound : Nat) (significand count : Nat) : List Char → Nat × Nat × List Char
  | [] => (significand, count, [])
  | c :: rest =>
    let next := 10 * significand + Decimal.digitValue c
    -- The first digit that would reach the bound is left in the text.
    if c.isDigit && next < bound then absorbDigits bound next (count + 1) rest
    else (significand, count, c :: rest)

/-- The largest power of ten that a float can hold. -/
def largestPower : Nat := 308

/-- A power of ten as the nearest float. -/
def tenToThe (power : Nat) : Option Binary64 := Binary64.ofQuotient? false (10 ^ power) 1

/--
A float is scaled by a power of ten, or is none when it grows past the largest float.

Small powers take one rounded step, and tiny ones take a further step for each round.
-/
def scaleByTen (rounds : Nat) (f : Binary64) (exponent : Int) : Option Binary64 :=
  -- One rounded step is enough while the power itself is a float.
  if exponent.natAbs ≤ largestPower then
    if 0 ≤ exponent then (tenToThe exponent.natAbs).bind f.mul?
    else (tenToThe exponent.natAbs).bind f.div?
  -- Zero stays zero, however far it is scaled.
  else if f.isZero then some f
  else if 0 ≤ exponent then none
  else
    match rounds with
    | 0 => none
    | rounds + 1 =>
      -- Each further round takes one step more, and rounds once more.
      ((tenToThe largestPower).bind f.div?).bind fun smaller =>
        scaleByTen rounds smaller (exponent + largestPower)

/-- The largest float is scaled down to zero within this many rounds. -/
def scalingRounds : Nat := 3

/-- A float is its word-sized significand, rounded, and then scaled. -/
def floatOfParts (negative : Bool) (significand : Nat) (exponent : Int) (rest : List Char) :
    Reads Number :=
  -- The sign is put back last, so rounding never sees it.
  match (Binary64.ofQuotient? false significand 1).bind (scaleByTen scalingRounds · exponent) with
  | some x => .ok (.float { x with negative := negative }, rest)
  | none => failAt .numberOutOfRange rest

/-- The largest exponent that is read digit by digit is below this bound. -/
def exponentBound : Nat := 2 ^ 31

/-- An exponent is an optional sign and at least one digit. -/
def readExponent (negative : Bool) (significand : Nat) (start : Int) (text : List Char) :
    Reads Number :=
  let (down, digits) := splitSign text
  match digits with
  | [] => failAt .unfinishedValue []
  | c :: rest =>
    -- At least one digit must follow the sign.
    if !c.isDigit then failAfter .invalidNumber digits
    else
      match absorbDigits exponentBound (Decimal.digitValue c) 0 rest with
      | (exponent, _, rest) =>
        if (rest.head?.map Char.isDigit).getD false then
          -- An exponent past the bound leaves zero, or a number out of range.
          if significand ≠ 0 ∧ !down then failAfter .numberOutOfRange rest
          else .ok (.float (Binary64.zero negative), rest.dropWhile Char.isDigit)
        else
          floatOfParts negative significand
            (if down then start - exponent else start + exponent) rest

/-- A float may end in an exponent. -/
def readFloatTail (negative : Bool) (significand : Nat) (start : Int) (text : List Char) :
    Reads Number :=
  match text with
  | 'e' :: rest => readExponent negative significand start rest
  | 'E' :: rest => readExponent negative significand start rest
  | rest => floatOfParts negative significand start rest

/-- A fraction has at least one digit, and its digits past the bound of the
significand are dropped. -/
def readFraction (negative : Bool) (significand : Nat) (start : Int) (text : List Char) :
    Reads Number :=
  match absorbDigits (2 ^ 64) significand 0 text with
  | (full, count, rest) =>
    let dropped := rest.takeWhile Char.isDigit
    -- A point must be followed by a digit.
    if count = 0 ∧ dropped.isEmpty then
      if rest.isEmpty then failAt .unfinishedValue [] else failAfter .invalidNumber rest
    -- Each digit that was taken in lowers the exponent by one.
    else readFloatTail negative full (start - count) (rest.dropWhile Char.isDigit)

/-- A number without fraction or exponent is an integer, unless it is minus zero or fits no word. -/
def integerOf (negative : Bool) (magnitude : Nat) : Number :=
  -- No integer is minus zero.
  if negative && magnitude = 0 then .float (Binary64.zero true)
  else
    match WordInt.ofInt? (if negative then -magnitude else magnitude) with
    | some n => .int n
    -- An integer past the words is rounded to a float.
    | none => .float ((Binary64.ofQuotient? negative magnitude 1).getD (Binary64.zero negative))

/-- Digits of the whole part past the bound of the significand only raise the exponent. -/
def readWhole (negative : Bool) (significand : Nat) (text : List Char) : Reads Number :=
  match absorbDigits (2 ^ 64) significand 0 text with
  | (full, _, rest) =>
    let raised := (rest.takeWhile Char.isDigit).length
    match rest.dropWhile Char.isDigit with
    | '.' :: rest => readFraction negative full raised rest
    | rest =>
      -- Dropped digits or an exponent make a float of the number.
      if raised = 0 ∧ rest.head? ≠ some 'e' ∧ rest.head? ≠ some 'E'
      then .ok (integerOf negative full, rest)
      else readFloatTail negative full raised rest

/-- A number starts with a digit, and a leading zero stands alone before the point. -/
def readUnsigned (negative : Bool) (text : List Char) : Reads Number :=
  match text with
  | [] => failAt .unfinishedValue []
  | c :: rest =>
    if !c.isDigit then failAfter .invalidNumber text
    -- Nothing but a point or an exponent may follow a leading zero.
    else if c = '0' ∧ (rest.head?.map Char.isDigit).getD false then failAfter .invalidNumber rest
    else readWhole negative (Decimal.digitValue c) rest

end SyncStore.Json
