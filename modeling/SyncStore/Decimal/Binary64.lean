/-! Binary64 numbers are exact naturals under a sign, and rounding is exact natural arithmetic. -/

namespace SyncStore

-- Powers are the same function in every module, whatever other powers a module knows of.
attribute [instance (2000)] instPowNat
attribute [default_instance 20000] instPowNat

/--
A finite binary64 number is a sign and a magnitude word.

The magnitude word holds the exponent field above fifty-two fraction bits.
Words of larger magnitude stand for larger numbers, so the finite ones end below the word of
infinity.
-/
structure Binary64 where
  negative : Bool
  magnitude : Nat
  finite : magnitude < 2047 * 2 ^ 52
  deriving DecidableEq

namespace Binary64

/-- The first magnitude word past the finite numbers stands for infinity. -/
def infinityWord : Nat := 2047 * 2 ^ 52

/-- Zero has the empty magnitude word under either sign. -/
def zero (negative : Bool) : Binary64 := ⟨negative, 0, by decide⟩

/-- A number is zero exactly when its magnitude word is empty. -/
def isZero (x : Binary64) : Bool := x.magnitude == 0

/-- The significand carries a hidden leading bit unless the exponent field is empty. -/
def significand (x : Binary64) : Nat :=
  -- Numbers below the normal ones have no hidden bit.
  if x.magnitude / 2 ^ 52 = 0 then x.magnitude else 2 ^ 52 + x.magnitude % 2 ^ 52

/-- The magnitude is the significand times two to this power, counted up from the smallest power. -/
def scale (x : Binary64) : Nat := x.magnitude / 2 ^ 52 - 1

/-- The smallest power of two of a significand is minus this number. -/
def deepest : Nat := 1074

/-- The magnitude as a quotient of naturals has this numerator. -/
def numerator (x : Binary64) : Nat := x.significand * 2 ^ (x.scale - deepest)

/-- The magnitude as a quotient of naturals has this denominator. -/
def denominator (x : Binary64) : Nat := 2 ^ (deepest - x.scale)

end Binary64

/-- A quotient is rounded to the nearest natural, and a tie goes to the even one. -/
def roundHalfEven (num den : Nat) : Nat :=
  let floor := num / den
  let twice := 2 * (num % den)
  if twice < den then floor
  else if den < twice then floor + 1
  -- At a tie an odd floor is raised, and an even one stays.
  else floor + floor % 2

/--
The scale of a quotient leaves at most fifty-three bits before its point.

The scale counts powers of two up from the smallest one, so tiny quotients have scale zero.
-/
def quotientScale (num den : Nat) : Nat :=
  -- The two lengths place the quotient within a factor of two on either side.
  let guess := num.log2 + Binary64.deepest - den.log2 - 52
  -- The lower scale applies when the quotient stays below fifty-three bits there.
  let lower := guess - 1
  if num * 2 ^ (Binary64.deepest - lower) < den * 2 ^ (lower - Binary64.deepest) * 2 ^ 53
  then lower else guess

/--
The magnitude word nearest to a quotient of naturals, where a tie goes to the even word.

The word may reach infinity or lie past it.
-/
def nearestWord (num den : Nat) : Nat :=
  if num = 0 then 0
  else
    let scale := quotientScale num den
    -- A significand that rounds up to the next power of two carries into the exponent field.
    scale * 2 ^ 52 +
      roundHalfEven (num * 2 ^ (Binary64.deepest - scale)) (den * 2 ^ (scale - Binary64.deepest))

namespace Binary64

/-- The finite number nearest to a signed quotient, if the quotient does not round to infinity. -/
def ofQuotient? (negative : Bool) (num den : Nat) : Option Binary64 :=
  if finite : nearestWord num den < 2047 * 2 ^ 52 then some ⟨negative, nearestWord num den, finite⟩
  else none

/-- The product of two numbers is rounded once, if it does not round to infinity. -/
def mul? (x y : Binary64) : Option Binary64 :=
  ofQuotient? (x.negative != y.negative) (x.numerator * y.numerator) (x.denominator * y.denominator)

/-- The quotient by a nonzero number is rounded once, if it does not round to infinity. -/
def div? (x y : Binary64) : Option Binary64 :=
  ofQuotient? (x.negative != y.negative) (x.numerator * y.denominator) (x.denominator * y.numerator)

/-- A number is below zero when its sign is set and its magnitude is not zero. -/
def isNegative (x : Binary64) : Bool := x.negative && !x.isZero

/-- A number is above zero when neither its sign is set nor its magnitude is zero. -/
def isPositive (x : Binary64) : Bool := !x.negative && !x.isZero

end Binary64

/-- A binary64 datum also admits the two infinities and a value that is no number. -/
inductive Real64 where
  | finite (x : Binary64)
  | infinite (negative : Bool)
  | notANumber
  deriving DecidableEq

namespace Real64

/-- A quotient that rounds past the finite numbers becomes an infinity. -/
def ofQuotient (negative : Bool) (num den : Nat) : Real64 :=
  match Binary64.ofQuotient? negative num den with
  | some x => .finite x
  | none => .infinite negative

/-- The nearest datum to an integer. -/
def ofInt (n : Int) : Real64 := ofQuotient (n < 0) n.natAbs 1

/-- Only proper numbers lie above zero. -/
def isPositive : Real64 → Bool
  | .finite x => x.isPositive
  | .infinite negative => !negative
  | .notANumber => false

/-- Only proper numbers lie below zero. -/
def isNegative : Real64 → Bool
  | .finite x => x.isNegative
  | .infinite negative => negative
  | .notANumber => false

end Real64

end SyncStore
