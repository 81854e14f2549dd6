import Mathlib
import SyncStore.Decimal.Binary64

/-! The word nearest to a quotient depends on its value alone, and what is near a float rounds
to it. -/

namespace SyncStore

/-- A quotient that lies nearer to a natural than halfway to the next one is rounded to it. -/
theorem roundHalfEven_eq {num den m : Nat} (positive : 0 < den)
    (near : |(num : ℚ) / den - m| < 1 / 2) : roundHalfEven num den = m := by
  have cast : (0 : ℚ) < den := by exact_mod_cast positive
  obtain ⟨low, high⟩ := abs_lt.mp near
  -- Without the denominator both bounds are about naturals.
  have above : 2 * (m * den) < 2 * num + den := by
    have : (m : ℚ) * den < num + den / 2 := by
      have := mul_lt_mul_of_pos_right (show (m : ℚ) < num / den + 1 / 2 by linarith) cast
      rwa [add_mul, div_mul_cancel₀ _ cast.ne', one_div_mul_eq_div] at this
    have : 2 * ((m : ℚ) * den) < 2 * num + den := by linarith
    exact_mod_cast this
  have below : 2 * num < 2 * (m * den) + den := by
    have : (num : ℚ) < m * den + den / 2 := by
      have := mul_lt_mul_of_pos_right (show (num : ℚ) / den < m + 1 / 2 by linarith) cast
      rwa [add_mul, div_mul_cancel₀ _ cast.ne', one_div_mul_eq_div] at this
    have : 2 * (num : ℚ) < 2 * (m * den) + den := by linarith
    exact_mod_cast this
  have split := Nat.div_add_mod num den
  have rest := Nat.mod_lt num positive
  rw [Nat.mul_comm] at split
  unfold roundHalfEven
  by_cases reached : m * den ≤ num
  · -- The floor is the natural itself, and what is left is less than a half.
    have floor : num / den = m :=
      Nat.div_eq_of_lt_le reached (by rw [Nat.add_mul]; omega)
    rw [floor] at split ⊢
    simp only [show 2 * (num % den) < den by omega, ↓reduceIte]
  · -- The floor is the natural before it, and what is left is more than a half.
    obtain ⟨before, rfl⟩ : ∃ before, m = before + 1 :=
      Nat.exists_eq_succ_of_ne_zero fun none => reached (by simp [none])
    rw [Nat.add_mul] at above below reached
    have floor : num / den = before :=
      Nat.div_eq_of_lt_le (by omega) (by rw [Nat.add_mul]; omega)
    rw [floor] at split ⊢
    have most : den < 2 * (num % den) := by omega
    simp only [show ¬ 2 * (num % den) < den by omega, most, ↓reduceIte]

/-- Rounding goes no lower than a natural that a quotient reaches. -/
theorem le_roundHalfEven {num den m : Nat} (positive : 0 < den) (reached : m * den ≤ num) :
    m ≤ roundHalfEven num den := by
  have floor : m ≤ num / den := (Nat.le_div_iff_mul_le positive).mpr reached
  unfold roundHalfEven
  dsimp only
  split
  · exact floor
  split
  · exact Nat.le_succ_of_le floor
  · exact Nat.le_add_right_of_le floor

/-- A common factor is left out of rounding. -/
theorem roundHalfEven_mul (num den : Nat) {factor : Nat} (positive : 0 < factor) :
    roundHalfEven (num * factor) (den * factor) = roundHalfEven num den := by
  have twice : 2 * (num * factor % (den * factor)) = 2 * (num % den) * factor := by
    rw [Nat.mul_mod_mul_right, Nat.mul_assoc]
  simp only [roundHalfEven, twice, Nat.mul_div_mul_right _ _ positive,
    Nat.mul_lt_mul_right positive]

/-- Equal quotients are rounded alike. -/
theorem roundHalfEven_congr {num den top bottom : Nat} (positive : 0 < den) (above : 0 < bottom)
    (same : num * bottom = top * den) : roundHalfEven num den = roundHalfEven top bottom := by
  rw [← roundHalfEven_mul num den above, ← roundHalfEven_mul top bottom positive, same,
    Nat.mul_comm bottom den]

/-- A quotient counted in the units of a scale. -/
def inUnits (q : ℚ) (scale : Nat) : ℚ := q * 2 ^ ((Binary64.deepest : ℤ) - scale)

/-- The units of the next scale are twice as large. -/
theorem inUnits_add (q : ℚ) (scale more : Nat) :
    inUnits q scale = inUnits q (scale + more) * 2 ^ more := by
  have powers :
      (Binary64.deepest : ℤ) - scale = Binary64.deepest - (scale + more : Nat) + more := by
    push_cast
    ring
  rw [inUnits, inUnits, mul_assoc, ← zpow_natCast, ← zpow_add₀ two_ne_zero, powers]

/-- A scaled quotient is the quotient in the units of the scale. -/
theorem inUnits_eq_div (num den scale : Nat) :
    inUnits (num / den) scale =
      ((num * 2 ^ (Binary64.deepest - scale) : Nat) : ℚ) /
        (den * 2 ^ (scale - Binary64.deepest) : Nat) := by
  have powers : (Binary64.deepest : ℤ) - scale =
      (Binary64.deepest - scale : Nat) - (scale - Binary64.deepest : Nat) := by omega
  rw [inUnits, powers, zpow_sub₀ two_ne_zero, zpow_natCast, zpow_natCast, ← mul_div_mul_comm]
  push_cast
  rfl

/--
A scale fits a quotient that has at most fifty-three bits before the point in its units.

Unless the scale is the smallest one, the quotient has all of them.
-/
structure FitsScale (q : ℚ) (scale : Nat) : Prop where
  below : inUnits q scale < 2 ^ 53
  above : scale = 0 ∨ 2 ^ 52 ≤ inUnits q scale

/-- No lower scale fits a quotient that a scale fits. -/
theorem FitsScale.le {q : ℚ} {first second : Nat} (fits : FitsScale q first)
    (other : FitsScale q second) : second ≤ first := by
  by_contra lower
  obtain ⟨more, rfl⟩ : ∃ more, second = first + (more + 1) := ⟨second - first - 1, by omega⟩
  -- In smaller units the quotient has one bit more than fits.
  have reached := other.above.resolve_left (by omega)
  have doubled := inUnits_add q first (more + 1)
  have grown : (1 : ℚ) ≤ 2 ^ more := one_le_pow₀ one_le_two
  have below := fits.below
  rw [doubled, pow_succ] at below
  nlinarith

/-- Only one scale fits a quotient. -/
theorem FitsScale.unique {q : ℚ} {first second : Nat} (fits : FitsScale q first)
    (other : FitsScale q second) : first = second :=
  Nat.le_antisymm (other.le fits) (fits.le other)

/-- A quotient in units lies below a bound exactly when it does without its denominator. -/
theorem inUnits_lt_iff (num : Nat) {den : Nat} (positive : 0 < den) (scale bound : Nat) :
    inUnits (num / den) scale < bound ↔
      num * 2 ^ (Binary64.deepest - scale) < den * 2 ^ (scale - Binary64.deepest) * bound := by
  have units : (0 : ℚ) < (den * 2 ^ (scale - Binary64.deepest) : Nat) := by
    exact_mod_cast Nat.mul_pos positive (Nat.two_pow_pos _)
  rw [inUnits_eq_div, div_lt_iff₀ units, ← Nat.cast_mul, Nat.cast_lt, Nat.mul_comm bound]

/-- The lengths of both parts bound a quotient from above. -/
theorem quotient_lt_two_pow (num : Nat) {den : Nat} (positive : 0 < den) :
    (num : ℚ) / den < 2 ^ ((num.log2 : ℤ) - den.log2 + 1) := by
  have parts : (0 : ℚ) < den := by exact_mod_cast positive
  have above : (num : ℚ) < 2 ^ (num.log2 + 1) := by exact_mod_cast Nat.lt_log2_self
  have below : (2 : ℚ) ^ den.log2 ≤ den := by exact_mod_cast Nat.log2_self_le positive.ne'
  rw [div_lt_iff₀ parts]
  calc (num : ℚ) < 2 ^ (num.log2 + 1) := above
    _ = 2 ^ ((num.log2 : ℤ) - den.log2 + 1) * 2 ^ den.log2 := by
      rw [← zpow_natCast, ← zpow_natCast, ← zpow_add₀ two_ne_zero]
      congr 1
      push_cast
      ring
    _ ≤ _ := by gcongr

/-- The lengths of both parts bound a quotient from below. -/
theorem two_pow_lt_quotient {num den : Nat} (nonzero : 0 < num) (positive : 0 < den) :
    2 ^ ((num.log2 : ℤ) - den.log2 - 1) < (num : ℚ) / den := by
  have parts : (0 : ℚ) < den := by exact_mod_cast positive
  have above : (den : ℚ) < 2 ^ (den.log2 + 1) := by exact_mod_cast Nat.lt_log2_self
  have below : (2 : ℚ) ^ num.log2 ≤ num := by exact_mod_cast Nat.log2_self_le nonzero.ne'
  rw [lt_div_iff₀ parts]
  calc (2 : ℚ) ^ ((num.log2 : ℤ) - den.log2 - 1) * den
      < 2 ^ ((num.log2 : ℤ) - den.log2 - 1) * 2 ^ (den.log2 + 1) := by gcongr
    _ = 2 ^ num.log2 := by
      rw [← zpow_natCast, ← zpow_natCast, ← zpow_add₀ two_ne_zero]
      congr 1
      push_cast
      ring
    _ ≤ num := below

/-- A scale that the lengths reach leaves at most fifty-three bits of a quotient. -/
theorem inUnits_lt_of_le {num den scale : Nat} (positive : 0 < den)
    (reached : num.log2 + Binary64.deepest ≤ den.log2 + 52 + scale) :
    inUnits (num / den) scale < 2 ^ 53 := by
  have high := quotient_lt_two_pow num positive
  calc inUnits (num / den) scale
      < 2 ^ ((num.log2 : ℤ) - den.log2 + 1) * 2 ^ ((Binary64.deepest : ℤ) - scale) := by
        rw [inUnits]
        gcongr
    _ = 2 ^ ((num.log2 : ℤ) - den.log2 + 1 + (Binary64.deepest - scale)) :=
      (zpow_add₀ two_ne_zero _ _).symm
    _ ≤ 2 ^ (53 : ℤ) := zpow_le_zpow_right₀ one_le_two (by omega)
    _ = 2 ^ 53 := by norm_num

/-- A scale that the lengths do not pass leaves at least fifty-two bits of a quotient. -/
theorem lt_inUnits_of_le {num den scale : Nat} (nonzero : 0 < num) (positive : 0 < den)
    (kept : den.log2 + 52 + scale ≤ num.log2 + Binary64.deepest) :
    2 ^ 51 < inUnits (num / den) scale := by
  have low := two_pow_lt_quotient nonzero positive
  calc (2 : ℚ) ^ 51 = 2 ^ (51 : ℤ) := by norm_num
    _ ≤ 2 ^ ((num.log2 : ℤ) - den.log2 - 1 + (Binary64.deepest - scale)) :=
      zpow_le_zpow_right₀ one_le_two (by omega)
    _ = 2 ^ ((num.log2 : ℤ) - den.log2 - 1) * 2 ^ ((Binary64.deepest : ℤ) - scale) :=
      zpow_add₀ two_ne_zero _ _
    _ < inUnits (num / den) scale := by
      rw [inUnits]
      gcongr

/-- The scale of a quotient fits it. -/
theorem fitsScale_quotientScale {num den : Nat} (nonzero : 0 < num) (positive : 0 < den) :
    FitsScale (num / den) (quotientScale num den) := by
  let q : ℚ := num / den
  let guess := num.log2 + Binary64.deepest - den.log2 - 52
  -- The guess leaves at most fifty-three bits, and at least fifty-two unless it is the smallest.
  have fits : inUnits q guess < 2 ^ 53 := inUnits_lt_of_le positive (by omega)
  have filled : guess = 0 ∨ 2 ^ 51 < inUnits q guess :=
    or_iff_not_imp_left.mpr fun some => lt_inUnits_of_le nonzero positive (by omega)
  have decides := inUnits_lt_iff num positive (guess - 1) (2 ^ 53)
  push_cast at decides
  have scale : quotientScale num den =
      if inUnits q (guess - 1) < 2 ^ 53 then guess - 1 else guess := by
    unfold quotientScale
    exact if_congr decides.symm rfl rfl
  rw [scale]
  split
  · rename_i lower
    refine ⟨lower, ?_⟩
    by_cases none : guess - 1 = 0
    · exact .inl none
    -- In units half as large the quotient has one bit more.
    · have doubled := inUnits_add q (guess - 1) 1
      rw [Nat.sub_add_cancel (by omega)] at doubled
      have reached := filled.resolve_left (by omega)
      refine .inr ?_
      rw [doubled]
      linarith
  · rename_i higher
    refine ⟨fits, ?_⟩
    by_cases none : guess = 0
    · exact .inl none
    · have doubled := inUnits_add q (guess - 1) 1
      rw [Nat.sub_add_cancel (by omega)] at doubled
      refine .inr ?_
      rw [doubled] at higher
      linarith

/-- A quotient near a natural in the units that fit it has the word of that natural. -/
theorem nearestWord_of_fits {num den scale m : Nat} (nonzero : 0 < num) (positive : 0 < den)
    (fits : FitsScale (num / den) scale) (near : |inUnits (num / den) scale - m| < 1 / 2) :
    nearestWord num den = scale * 2 ^ 52 + m := by
  have same := (fitsScale_quotientScale nonzero positive).unique fits
  rw [nearestWord, if_neg nonzero.ne', same]
  rw [inUnits_eq_div] at near
  dsimp only
  rw [roundHalfEven_eq (Nat.mul_pos positive (Nat.two_pow_pos _)) near]

/-- Equal quotients have the same nearest word. -/
theorem nearestWord_congr {num den top bottom : Nat} (positive : 0 < den) (above : 0 < bottom)
    (same : (num : ℚ) / den = top / bottom) : nearestWord num den = nearestWord top bottom := by
  have cast : (0 : ℚ) < den := by exact_mod_cast positive
  have casts : (0 : ℚ) < bottom := by exact_mod_cast above
  have crossed : num * bottom = top * den := by
    have := (div_eq_div_iff cast.ne' casts.ne').mp same
    exact_mod_cast this
  by_cases zero : num = 0
  · -- Only zero is equal to zero.
    have none : top = 0 := by
      rw [zero, Nat.zero_mul] at crossed
      exact (Nat.mul_eq_zero.mp crossed.symm).resolve_right positive.ne'
    rw [zero, none, nearestWord, nearestWord, if_pos rfl, if_pos rfl]
  · have some : top ≠ 0 := by
      rintro rfl
      rw [Nat.zero_mul] at crossed
      exact zero ((Nat.mul_eq_zero.mp crossed).resolve_right above.ne')
    -- The same scale fits both, and there they are rounded alike.
    have first := fitsScale_quotientScale (Nat.pos_of_ne_zero zero) positive
    have second := fitsScale_quotientScale (Nat.pos_of_ne_zero some) above
    rw [← same] at second
    rw [nearestWord, nearestWord, if_neg zero, if_neg some, second.unique first]
    dsimp only
    rw [roundHalfEven_congr (Nat.mul_pos positive (Nat.two_pow_pos _))
      (Nat.mul_pos above (Nat.two_pow_pos _))]
    generalize 2 ^ (Binary64.deepest - _) = up, 2 ^ (_ - Binary64.deepest) = down
    calc num * up * (bottom * down) = num * bottom * (up * down) := Nat.mul_mul_mul_comm ..
      _ = top * up * (den * down) := by rw [crossed, Nat.mul_mul_mul_comm]

/-- A quotient whose word is finite is no larger than the finite numbers go. -/
theorem lt_of_nearestWord_lt {num den : Nat} (positive : 0 < den)
    (finite : nearestWord num den < Binary64.infinityWord) : (num : ℚ) / den < 2 ^ (1024 : ℤ) := by
  by_contra large
  have large : (2 : ℚ) ^ (1024 : ℤ) ≤ num / den := le_of_not_gt large
  have nonzero : 0 < num := Nat.pos_of_ne_zero fun none => by
    rw [none, Nat.cast_zero, zero_div] at large
    exact absurd large (not_le_of_gt (by positivity))
  have fits := fitsScale_quotientScale nonzero positive
  rw [nearestWord, if_neg nonzero.ne'] at finite
  dsimp only at finite
  generalize quotientScale num den = scale at fits finite
  -- The quotient has too many bits in the units of every scale but the last ones.
  have units : (2 : ℚ) ^ (1024 + ((Binary64.deepest : ℤ) - scale)) < 2 ^ (53 : ℤ) := by
    rw [zpow_add₀ two_ne_zero]
    calc (2 : ℚ) ^ (1024 : ℤ) * 2 ^ ((Binary64.deepest : ℤ) - scale)
        ≤ inUnits (num / den) scale := by
          rw [inUnits]
          gcongr
      _ < 2 ^ (53 : ℤ) := by exact_mod_cast fits.below
  have past := (zpow_lt_zpow_iff_right₀ one_lt_two).mp units
  have deepest : (Binary64.deepest : ℤ) = 1074 := rfl
  -- There its word is that of infinity at least.
  have filled := fits.above.resolve_left (by omega)
  rw [inUnits_eq_div, le_div_iff₀
    (by exact_mod_cast Nat.mul_pos positive (Nat.two_pow_pos _))] at filled
  have rounded := le_roundHalfEven (m := 2 ^ 52) (Nat.mul_pos positive (Nat.two_pow_pos _))
    (by exact_mod_cast filled)
  rw [Binary64.infinityWord] at finite
  omega

/-- A quotient whose word is not that of zero is at least half of the smallest number. -/
theorem le_of_nearestWord_ne_zero {num den : Nat} (positive : 0 < den)
    (some : nearestWord num den ≠ 0) : (2 : ℚ) ^ (-1075 : ℤ) ≤ num / den := by
  by_contra small
  have small : (num : ℚ) / den < 2 ^ (-1075 : ℤ) := lt_of_not_ge small
  have nonzero : 0 < num :=
    Nat.pos_of_ne_zero fun none => some (by rw [none, nearestWord, if_pos rfl])
  have whole : (0 : ℚ) < num / den := by
    have top : (0 : ℚ) < num := by exact_mod_cast nonzero
    have bottom : (0 : ℚ) < den := by exact_mod_cast positive
    exact div_pos top bottom
  have deepest : (Binary64.deepest : ℤ) = 1074 := rfl
  -- In the units of the smallest scale the quotient is less than a half.
  have units : inUnits (num / den) 0 < 1 / 2 := by
    calc inUnits (num / den) 0 < 2 ^ (-1075 : ℤ) * 2 ^ ((Binary64.deepest : ℤ) - (0 : Nat)) := by
          rw [inUnits]
          gcongr
      _ = 2 ^ (-1 : ℤ) := by
        rw [← zpow_add₀ two_ne_zero, deepest]
        rfl
      _ = 1 / 2 := by norm_num
  have fits : FitsScale ((num : ℚ) / den) 0 := ⟨units.trans (by norm_num), .inl rfl⟩
  have least : 0 ≤ inUnits ((num : ℚ) / den) 0 := by
    rw [inUnits]
    positivity
  refine some (nearestWord_of_fits (m := 0) nonzero positive fits ?_)
  rw [Nat.cast_zero, sub_zero, abs_of_nonneg least]
  exact units

end SyncStore
