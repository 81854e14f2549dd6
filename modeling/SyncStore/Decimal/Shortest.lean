import SyncStore.Decimal.Binary64

/-! The shortest decimal of a binary64 number is the first decimal grid with a
point that reads back. -/

namespace SyncStore

/-- A decimal is a coefficient times a power of ten. -/
structure Decimal where
  coefficient : Nat
  exponent : Int
  deriving DecidableEq

namespace Decimal

/-- The numerator of a decimal carries the power of ten when the exponent is not negative. -/
def numerator (d : Decimal) : Nat := d.coefficient * 10 ^ d.exponent.toNat

/-- The denominator of a decimal carries the power of ten when the exponent is negative. -/
def denominator (d : Decimal) : Nat := 10 ^ (-d.exponent).toNat

/-- The digits of a coefficient, most significant first. -/
def digits (d : Decimal) : List Char := Nat.toDigits 10 d.coefficient

/-- The magnitude word nearest to a decimal. -/
def word (d : Decimal) : Nat := nearestWord d.numerator d.denominator

/-- Trailing zeros move from the coefficient into the exponent, at most `limit` of them. -/
def normalize (limit : Nat) (d : Decimal) : Decimal :=
  match limit with
  | 0 => d
  | limit + 1 =>
    if d.coefficient ≠ 0 ∧ d.coefficient % 10 = 0
    then normalize limit ⟨d.coefficient / 10, d.exponent + 1⟩
    else d

end Decimal

/-- The power of ten of the leading digit of a positive quotient. -/
def leadingPower (num den : Nat) : Int :=
  if den ≤ num then ((Nat.toDigits 10 (num / den)).length - 1 : Nat)
  else
    -- Below one the inverse has as many digits as there are places to the leading digit.
    let places := (Nat.toDigits 10 (den / num)).length
    if den ≤ num * 10 ^ (places - 1) then -((places - 1 : Nat) : Int) else -(places : Int)

/-- Which of the two nearest grid points stands for a number halfway between them. -/
inductive TieRule where
  | toEven
  | up
  deriving DecidableEq

/-- Whether the upper point stands for a number halfway above a lower point of this coefficient. -/
def TieRule.goesUp (rule : TieRule) (lower : Nat) : Bool :=
  match rule with
  | .toEven => lower % 2 = 1
  | .up => true

namespace Binary64

/-- The two points of a decimal grid around the magnitude of a number, the nearer one first. -/
def gridNeighbours (x : Binary64) (rule : TieRule) (exponent : Int) : List Decimal :=
  let num := x.numerator * 10 ^ (-exponent).toNat
  let den := x.denominator * 10 ^ exponent.toNat
  let below : Decimal := ⟨num / den, exponent⟩
  let above : Decimal := ⟨num / den + 1, exponent⟩
  -- Twice the remainder tells on which side of the middle the number lies.
  let twice := 2 * (num % den)
  if twice < den ∨ twice = den ∧ !rule.goesUp below.coefficient then [below, above]
  else [above, below]

/-- The first point that reads back on a grid of at most seventeen digits,
starting from `digits`. -/
def shortestFrom (x : Binary64) (rule : TieRule) (leading : Int) :
    (digits remaining : Nat) → Decimal
  | digits, 0 => ⟨x.numerator * 10 ^ digits, -digits⟩
  | digits, remaining + 1 =>
    -- A coarser grid has fewer digits, so the first point that reads back is shortest.
    match (x.gridNeighbours rule (leading + 1 - digits)).find? (·.word == x.magnitude) with
    | some found => found
    | none => shortestFrom x rule leading (digits + 1) remaining

/-- The shortest decimal that reads back as the magnitude of a number, without trailing zeros. -/
def shortest (x : Binary64) (rule : TieRule) : Decimal :=
  if x.isZero then ⟨0, 0⟩
  else (x.shortestFrom rule (leadingPower x.numerator x.denominator) 1 17).normalize 18

end Binary64

end SyncStore
