import SyncStore.Decimal.Shortest

/-! A float layout fixes how the shortest digits of a number are set out as text. -/

namespace SyncStore

/--
A float layout is the set of choices a format makes for its numbers.

- `exponents`: numbers below 1e-5 and from 1e16 on are written with an exponent
- `plusSign`: an exponent that is not negative is written with a plus sign
- `fraction`: a number without fractional digits is still written with a point and a zero
- `ties`: the digits of a number halfway between two shortest candidates
-/
structure FloatLayout where
  exponents : Bool
  plusSign : Bool
  fraction : Bool
  ties : TieRule

namespace FloatLayout

/-- Digits set out without an exponent, where `point` digits stand before the decimal point. -/
def positional (layout : FloatLayout) (digits : List Char) (point : Int) : List Char :=
  -- The digits start behind the point, or end in front of it, or stand on both sides.
  if point ≤ 0 then
    '0' :: '.' :: List.replicate (-point).toNat '0' ++ digits
  else if digits.length ≤ point.toNat then
    digits ++ List.replicate (point.toNat - digits.length) '0' ++
      (if layout.fraction then ['.', '0'] else [])
  else
    digits.take point.toNat ++ '.' :: digits.drop point.toNat

/-- Digits set out with one digit before the point and a power of ten after them. -/
def scientific (layout : FloatLayout) (digits : List Char) (power : Int) : List Char :=
  let sign := if power < 0 then ['-'] else if layout.plusSign then ['+'] else []
  let fraction := if digits.length ≤ 1 then [] else '.' :: digits.drop 1
  digits.take 1 ++ fraction ++ 'e' :: sign ++ Nat.toDigits 10 power.natAbs

/-- The magnitude of a number is set out from its shortest decimal. -/
def magnitude (layout : FloatLayout) (d : Decimal) : List Char :=
  if d.coefficient = 0 then layout.positional ['0'] 1
  else
    let point := d.exponent + d.digits.length
    if layout.exponents && (point ≤ -5 || 16 < point)
    then layout.scientific d.digits (point - 1)
    else layout.positional d.digits point

/-- The text of a number is its sign and its magnitude. -/
def render (layout : FloatLayout) (x : Binary64) : List Char :=
  (if x.negative then ['-'] else []) ++ layout.magnitude (x.shortest layout.ties)

/-- The text of a datum names the infinities and the value that is no number. -/
def renderReal (layout : FloatLayout) : Real64 → List Char
  | .finite x => layout.render x
  | .infinite negative => if negative then "-inf".toList else "inf".toList
  | .notANumber => "NaN".toList

/-- Plain display shows neither exponents nor empty fractions. -/
def plain : FloatLayout := ⟨false, false, false, .up⟩

end FloatLayout

end SyncStore
