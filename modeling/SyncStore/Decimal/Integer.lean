import SyncStore.Decimal.Reading

/-! Integers in text are read digit by digit, and the first fault stops the reading. -/

namespace SyncStore

/-- Why text is not an integer of a range. -/
inductive IntegerFault where
  | empty
  | invalidDigit
  | tooLarge
  | tooSmall
  deriving DecidableEq

/-- The words for an integer fault. -/
def IntegerFault.message : IntegerFault → String
  | .empty => "cannot parse integer from empty string"
  | .invalidDigit => "invalid digit found in string"
  | .tooLarge => "number too large to fit in target type"
  | .tooSmall => "number too small to fit in target type"

/-- A range of integers includes both of its ends. -/
structure IntegerRange where
  lowest : Int
  highest : Int

namespace IntegerRange

/-- Signed 64-bit words. -/
def signed64 : IntegerRange := ⟨-2 ^ 63, 2 ^ 63 - 1⟩

/-- Unsigned 64-bit words. -/
def unsigned64 : IntegerRange := ⟨0, 2 ^ 64 - 1⟩

/-- Unsigned 32-bit words. -/
def unsigned32 : IntegerRange := ⟨0, 2 ^ 32 - 1⟩

/-- An integer outside a range is too small or too large for it. -/
def check (range : IntegerRange) (n : Int) : Except IntegerFault Int :=
  if n < range.lowest then .error .tooSmall
  else if range.highest < n then .error .tooLarge
  else .ok n

/-- Digits of a base extend a number as long as it stays in the range. -/
def readDigits (range : IntegerRange) (base : Nat) (negative : Bool) (value : Int) :
    List Char → Except IntegerFault Int
  | [] => .ok value
  | c :: rest =>
    if !c.isDigit || base ≤ Decimal.digitValue c then .error .invalidDigit
    else
      let digit : Int := Decimal.digitValue c
      -- Each step is checked, so the first digit too many decides the fault.
      match range.check (base * value + if negative then -digit else digit) with
      | .error fault => .error fault
      | .ok next => readDigits range base negative next rest

/-- Text is an optional sign and digits; a range without negative numbers knows no minus sign. -/
def read (range : IntegerRange) (base : Nat) (text : List Char) : Except IntegerFault Int :=
  match text with
  | [] => .error .empty
  | ['+'] => .error .invalidDigit
  | ['-'] => .error .invalidDigit
  | '+' :: digits => range.readDigits base false 0 digits
  | '-' :: digits =>
    if range.lowest < 0 then range.readDigits base true 0 digits else .error .invalidDigit
  | digits => range.readDigits base false 0 digits

end IntegerRange

end SyncStore
