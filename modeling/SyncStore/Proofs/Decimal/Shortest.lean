import SyncStore.Decimal.Reading
import SyncStore.Proofs.Decimal.Nearest

/-! The shortest decimal of a number rounds to that number, because seventeen digits suffice. -/

namespace SyncStore

/-- The value of a decimal is a rational. -/
def Decimal.value (d : Decimal) : ℚ := d.coefficient * 10 ^ d.exponent

/-- The magnitude of a number is a rational. -/
def Binary64.value (x : Binary64) : ℚ := x.numerator / x.denominator

namespace Decimal

/-- The value of a decimal is that of its two parts. -/
theorem value_eq_div (d : Decimal) : d.value = (d.numerator : ℚ) / d.denominator := by
  have powers : d.exponent = (d.exponent.toNat : ℤ) - ((-d.exponent).toNat : ℤ) := by omega
  rw [value, powers, zpow_sub₀ (by norm_num), zpow_natCast, zpow_natCast, ← mul_div_assoc]
  simp only [numerator, denominator]
  push_cast
  congr 3

/-- A decimal has a positive denominator. -/
theorem denominator_pos (d : Decimal) : 0 < d.denominator := Nat.pow_pos (by decide)

/-- Decimals of the same value have the same nearest word. -/
theorem word_congr {first second : Decimal} (same : first.value = second.value) :
    first.word = second.word := by
  rw [value_eq_div, value_eq_div] at same
  exact nearestWord_congr first.denominator_pos second.denominator_pos same

/-- Moving trailing zeros into the exponent keeps the value. -/
theorem value_normalize (limit : Nat) (d : Decimal) : (d.normalize limit).value = d.value := by
  induction limit generalizing d with
  | zero => rfl
  | succ limit ih =>
    rw [normalize]
    split
    · rename_i zeros
      -- The last digit is a zero, which counts for one power of ten.
      obtain ⟨tens, whole⟩ := Nat.dvd_of_mod_eq_zero zeros.2
      rw [ih, value, value, whole, Nat.mul_div_cancel_left _ (by decide),
        zpow_add_one₀ (by norm_num)]
      push_cast
      ring
    · rfl

end Decimal

/-- A number that is not zero reaches the power of ten of its leading digit. -/
theorem pow_length_toDigits_le {n : Nat} (some : 0 < n) :
    10 ^ ((Nat.toDigits 10 n).length - 1) ≤ n := by
  by_contra less
  obtain few | many := Nat.eq_zero_or_pos ((Nat.toDigits 10 n).length - 1)
  · rw [few] at less
    omega
  · have := (Nat.length_toDigits_le_iff (by decide) many).mpr (Nat.lt_of_not_le less)
    omega

/-- The leading digit of a positive quotient stands for no more than the quotient. -/
theorem pow_leadingPower_le {num den : Nat} (nonzero : 0 < num) (positive : 0 < den) :
    (10 : ℚ) ^ leadingPower num den ≤ num / den := by
  have whole : (0 : ℚ) < num := by exact_mod_cast nonzero
  have parts : (0 : ℚ) < den := by exact_mod_cast positive
  unfold leadingPower
  split
  · rename_i reached
    -- From one on the digits are those of the floor.
    have floor := pow_length_toDigits_le (Nat.div_pos reached positive)
    rw [zpow_natCast, le_div_iff₀ parts]
    have most := (Nat.mul_le_mul_right den floor).trans (Nat.div_mul_le_self num den)
    exact_mod_cast most
  · rename_i less
    have less : num < den := Nat.lt_of_not_le less
    dsimp only
    split
    · rename_i exact
      rw [zpow_neg, zpow_natCast, inv_le_iff_one_le_mul₀ (by positivity), ← mul_div_right_comm,
        one_le_div₀ parts]
      exact_mod_cast exact
    · -- Below one the inverse is less than the power of ten behind its digits.
      have below := (Nat.length_toDigits_le_iff (n := den / num) (by decide)
        Nat.length_toDigits_pos).mp (le_refl (Nat.toDigits 10 (den / num)).length)
      rw [Nat.div_lt_iff_lt_mul nonzero] at below
      rw [zpow_neg, zpow_natCast, inv_le_iff_one_le_mul₀ (by positivity), ← mul_div_right_comm,
        one_le_div₀ parts, mul_comm]
      exact_mod_cast below.le

section Halves

variable {num den : Nat} (positive : 0 < den)
include positive

/-- A quotient is its floor and what is left of it. -/
theorem div_eq_floor_add_rest :
    (num : ℚ) / den = (num / den : Nat) + (num % den : Nat) / den := by
  have parts : (den : ℚ) ≠ 0 := by exact_mod_cast positive.ne'
  have split : (den : ℚ) * (num / den : Nat) + (num % den : Nat) = num := by
    exact_mod_cast Nat.div_add_mod num den
  rw [div_eq_iff parts, add_mul, div_mul_cancel₀ _ parts, mul_comm, split]

/-- The floor of a quotient is near it when no more than half is left. -/
theorem abs_floor_sub_le (half : 2 * (num % den) ≤ den) :
    |((num / den : Nat) : ℚ) - num / den| ≤ 1 / 2 := by
  have parts : (0 : ℚ) < den := by exact_mod_cast positive
  have half : ((num % den : Nat) : ℚ) / den ≤ 1 / 2 := by
    rw [div_le_div_iff₀ parts (by norm_num), one_mul, mul_comm]
    exact_mod_cast half
  have least : (0 : ℚ) ≤ ((num % den : Nat) : ℚ) / den := by positivity
  rw [div_eq_floor_add_rest positive, abs_le]
  constructor <;> linarith

/-- The natural above the floor of a quotient is near it when at least half is left. -/
theorem abs_floor_succ_sub_le (half : den ≤ 2 * (num % den)) :
    |((num / den + 1 : Nat) : ℚ) - num / den| ≤ 1 / 2 := by
  have parts : (0 : ℚ) < den := by exact_mod_cast positive
  have half : 1 / 2 ≤ ((num % den : Nat) : ℚ) / den := by
    rw [div_le_div_iff₀ (by norm_num) parts, one_mul, mul_comm]
    exact_mod_cast half
  have most : ((num % den : Nat) : ℚ) / den ≤ 1 := by
    rw [div_le_one parts]
    exact_mod_cast (Nat.mod_lt num positive).le
  rw [div_eq_floor_add_rest positive, abs_le]
  push_cast
  constructor <;> linarith

end Halves

namespace Binary64

variable {x : Binary64}

/-- The word of a number is its scale above its significand. -/
theorem magnitude_eq (x : Binary64) : x.magnitude = x.scale * 2 ^ 52 + x.significand := by
  unfold scale significand
  split <;> omega

/-- A significand has at most fifty-three bits, and all of them above the smallest scale. -/
theorem significand_bounds (x : Binary64) :
    x.significand < 2 ^ 53 ∧ (x.scale = 0 ∨ 2 ^ 52 ≤ x.significand) := by
  unfold scale significand
  split <;> omega

/-- In the units of its scale a number is its significand. -/
theorem inUnits_value (x : Binary64) : inUnits x.value x.scale = x.significand := by
  have powers :
      (deepest : ℤ) - x.scale = (deepest - x.scale : Nat) - (x.scale - deepest : Nat) := by
    omega
  have up : (2 : ℚ) ^ (deepest - x.scale) ≠ 0 := by positivity
  have down : (2 : ℚ) ^ (x.scale - deepest) ≠ 0 := by positivity
  rw [inUnits, value, numerator, denominator, powers, zpow_sub₀ two_ne_zero, zpow_natCast,
    zpow_natCast]
  push_cast
  field_simp

/-- A number that is not zero has a positive numerator. -/
theorem numerator_pos (nonzero : x.isZero = false) : 0 < x.numerator := by
  have some : x.magnitude ≠ 0 := by simpa [isZero] using nonzero
  refine Nat.mul_pos (Nat.pos_of_ne_zero fun none => some ?_) (Nat.two_pow_pos _)
  -- Without a significand the scale is the smallest, and the word is empty.
  rw [magnitude_eq, none, (x.significand_bounds.2.resolve_right (by omega))]

/-- A number has a positive denominator. -/
theorem denominator_pos (x : Binary64) : 0 < x.denominator := Nat.two_pow_pos _

/-- A number that is not zero has a positive value. -/
theorem value_pos (nonzero : x.isZero = false) : 0 < x.value := by
  have above : (0 : ℚ) < x.numerator := by exact_mod_cast numerator_pos nonzero
  have below : (0 : ℚ) < x.denominator := by exact_mod_cast x.denominator_pos
  exact div_pos above below

section Near

variable {q : ℚ} (near : |q - x.value| ≤ x.value / (2 * 10 ^ 16))

include near

/-- What is near a number is as near its significand in the units of its scale. -/
theorem abs_inUnits_sub_le :
    |inUnits q x.scale - x.significand| ≤ x.significand / (2 * 10 ^ 16) := by
  have unit : (0 : ℚ) < 2 ^ ((deepest : ℤ) - x.scale) := by positivity
  have scaled := mul_le_mul_of_nonneg_right near unit.le
  rwa [← abs_of_pos unit, ← abs_mul, abs_of_pos unit, sub_mul, div_mul_eq_mul_div,
    ← inUnits, ← inUnits, inUnits_value] at scaled

/-- What is near a positive number is not zero. -/
theorem ne_zero_of_near (nonzero : x.isZero = false) : q ≠ 0 := by
  intro none
  have positive := value_pos nonzero
  rw [none, zero_sub, abs_neg, abs_of_pos positive, le_div_iff₀ (by positivity)] at near
  nlinarith

/-- Only powers of two are near what has fewer bits in the units of their scale. -/
theorem significand_of_fewer_bits (scaled : x.scale ≠ 0) (below : inUnits q x.scale < 2 ^ 52) :
    x.significand = 2 ^ 52 := by
  obtain ⟨low, -⟩ := abs_le.mp (abs_inUnits_sub_le near)
  obtain ⟨few, many⟩ := x.significand_bounds
  have many := many.resolve_left scaled
  have few : (x.significand : ℚ) < 2 ^ 53 := by exact_mod_cast few
  by_contra other
  -- A larger significand is a whole unit above, and nothing near it is that far away.
  have more : (2 : ℚ) ^ 52 + 1 ≤ x.significand := by
    have : 2 ^ 52 + 1 ≤ x.significand := by omega
    exact_mod_cast this
  linarith

end Near

/-- A decimal that differs from a number by less than its seventeenth digit rounds to the number. -/
theorem word_of_near {d : Decimal} (nonzero : x.isZero = false)
    (near : |d.value - x.value| ≤ x.value / (2 * 10 ^ 16)) : d.word = x.magnitude := by
  have some : 0 < d.numerator := by
    refine Nat.pos_of_ne_zero fun none => ne_zero_of_near near nonzero ?_
    rw [Decimal.value_eq_div, none, Nat.cast_zero, zero_div]
  have few : (x.significand : ℚ) ≤ 2 ^ 53 - 1 := by
    have : x.significand + 1 ≤ 2 ^ 53 := x.significand_bounds.1
    have : (x.significand : ℚ) + 1 ≤ 2 ^ 53 := by exact_mod_cast this
    linarith
  have single := significand_of_fewer_bits near
  obtain ⟨low, high⟩ := abs_le.mp (abs_inUnits_sub_le near)
  rw [Decimal.word, magnitude_eq]
  rw [Decimal.value_eq_div] at low high single
  by_cases same : x.scale = 0 ∨ 2 ^ 52 ≤ inUnits ((d.numerator : ℚ) / d.denominator) x.scale
  · -- The decimal has the scale of the number, and lies within half a unit of it.
    refine nearestWord_of_fits some d.denominator_pos ⟨by linarith, same⟩ ?_
    rw [abs_lt]
    constructor <;> linarith
  · -- The number is a power of two, and the decimal lies below it in units half as large.
    obtain ⟨scaled, below⟩ := not_or.mp same
    have least := single scaled (not_le.mp below)
    obtain ⟨lower, next⟩ := Nat.exists_eq_add_one_of_ne_zero scaled
    rw [next] at low high below ⊢
    rw [least] at low high ⊢
    push_cast at low high
    have doubled := inUnits_add ((d.numerator : ℚ) / d.denominator) lower 1
    have fits : FitsScale ((d.numerator : ℚ) / d.denominator) lower := by
      refine ⟨?_, .inr ?_⟩ <;> linarith
    rw [nearestWord_of_fits (m := 2 ^ 53) some d.denominator_pos fits]
    · omega
    · push_cast
      rw [abs_lt]
      constructor <;> linarith

/-- In steps of a grid a number is the quotient that its neighbours are found from. -/
theorem value_eq_steps (x : Binary64) (exponent : Int) :
    x.value = ((x.numerator * 10 ^ (-exponent).toNat : Nat) : ℚ) /
      (x.denominator * 10 ^ exponent.toNat : Nat) * 10 ^ exponent := by
  have powers : exponent = (exponent.toNat : ℤ) - ((-exponent).toNat : ℤ) := by omega
  have up : (10 : ℚ) ^ exponent.toNat ≠ 0 := by positivity
  have down : (10 : ℚ) ^ (-exponent).toNat ≠ 0 := by positivity
  conv_rhs => rw [powers, zpow_sub₀ (by norm_num), zpow_natCast, zpow_natCast, ← powers]
  rw [Nat.cast_mul, Nat.cast_mul, Nat.cast_pow, Nat.cast_pow, mul_div_mul_comm, value, mul_assoc,
    Nat.cast_ofNat, div_mul_div_cancel₀ up, div_self down, mul_one]

/-- The first point of a grid around a number lies within half a step of it. -/
theorem exists_near_gridNeighbours (x : Binary64) (rule : TieRule) (exponent : Int) :
    ∃ point ∈ x.gridNeighbours rule exponent,
      |point.value - x.value| ≤ (10 : ℚ) ^ exponent / 2 := by
  have step : (0 : ℚ) < 10 ^ exponent := by positivity
  have positive : 0 < x.denominator * 10 ^ exponent.toNat :=
    Nat.mul_pos x.denominator_pos (Nat.pow_pos (by decide))
  rw [value_eq_steps x exponent]
  unfold gridNeighbours
  generalize x.numerator * 10 ^ (-exponent).toNat = num,
    x.denominator * 10 ^ exponent.toNat = den at positive ⊢
  -- It is enough to look at the number and the point as multiples of a step.
  have near (point : Nat) (close : |(point : ℚ) - num / den| ≤ 1 / 2) :
      |(⟨point, exponent⟩ : Decimal).value - num / den * 10 ^ exponent| ≤
        (10 : ℚ) ^ exponent / 2 := by
    rw [Decimal.value, ← sub_mul, abs_mul, abs_of_pos step]
    nlinarith
  dsimp only
  split
  · rename_i lower
    have half : 2 * (num % den) ≤ den := lower.elim Nat.le_of_lt fun tie => tie.1.le
    exact ⟨_, List.mem_cons_self, near _ (abs_floor_sub_le positive half)⟩
  · rename_i upper
    have half : den ≤ 2 * (num % den) := Nat.le_of_not_lt fun lower => upper (.inl lower)
    exact ⟨_, List.mem_cons_self, near _ (abs_floor_succ_sub_le positive half)⟩

/-- On the grid of seventeen digits a point reads back. -/
theorem exists_word_gridNeighbours (nonzero : x.isZero = false) (rule : TieRule) :
    ∃ point ∈ x.gridNeighbours rule (leadingPower x.numerator x.denominator + 1 - (17 : Nat)),
      point.word = x.magnitude := by
  obtain ⟨point, inside, near⟩ := x.exists_near_gridNeighbours rule
    (leadingPower x.numerator x.denominator + 1 - (17 : Nat))
  refine ⟨point, inside, word_of_near nonzero (near.trans ?_)⟩
  -- The step of the grid is the leading power of ten sixteen places further.
  have leading := pow_leadingPower_le (numerator_pos nonzero) x.denominator_pos
  have step : (10 : ℚ) ^ (leadingPower x.numerator x.denominator + 1 - (17 : Nat)) =
      10 ^ leadingPower x.numerator x.denominator / 10 ^ 16 := by
    rw [show leadingPower x.numerator x.denominator + 1 - (17 : Nat) =
      leadingPower x.numerator x.denominator - (16 : Nat) by push_cast; ring,
      zpow_sub₀ (by norm_num), zpow_natCast]
  rw [step, value]
  rw [div_div, mul_comm (10 ^ 16 : ℚ)]
  gcongr

/-- The search for the shortest decimal ends at one that reads back. -/
theorem word_shortestFrom (nonzero : x.isZero = false) (rule : TieRule) {digits remaining : Nat}
    (enough : digits + remaining = 17) :
    (x.shortestFrom rule (leadingPower x.numerator x.denominator) digits (remaining + 1)).word =
      x.magnitude := by
  -- The induction is on the grids that are left, of which the last one is never passed.
  induction remaining generalizing digits with
  | zero =>
    obtain rfl : digits = 17 := by omega
    rw [shortestFrom]
    split
    · rename_i found looked
      simpa using List.find?_some looked
    · rename_i missed
      obtain ⟨point, inside, reads⟩ := exists_word_gridNeighbours nonzero rule
      exact absurd (beq_iff_eq.mpr reads) (List.find?_eq_none.mp missed point inside)
  | succ remaining ih =>
    rw [shortestFrom]
    split
    · rename_i found looked
      simpa using List.find?_some looked
    · exact ih (by omega)

/-- The shortest decimal of a number rounds to that number. -/
theorem word_shortest (nonzero : x.isZero = false) (rule : TieRule) :
    (x.shortest rule).word = x.magnitude := by
  rw [shortest, nonzero, if_neg Bool.false_ne_true,
    Decimal.word_congr (Decimal.value_normalize _ _)]
  exact word_shortestFrom nonzero rule rfl

end Binary64

end SyncStore
