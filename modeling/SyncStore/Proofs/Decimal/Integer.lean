import SyncStore.Decimal.Integer
import SyncStore.Proofs.Decimal.Digits

/-! An integer is read from exactly the texts that spell one of its range. -/

namespace SyncStore

/-- The value of a number with more digits behind it. -/
def Decimal.extended (value : Nat) (digits : List Char) : Nat :=
  digits.foldl (fun value c => 10 * value + digitValue c) value

/-- Digits behind a number never make it smaller. -/
theorem Decimal.le_extended (value : Nat) (digits : List Char) :
    value ≤ extended value digits := by
  -- Each digit makes the number at least ten times as large.
  induction digits generalizing value with
  | nil => exact Nat.le_refl value
  | cons c rest ih =>
    have later := ih (10 * value + digitValue c)
    show value ≤ extended (10 * value + digitValue c) rest
    omega

/-- A magnitude counts below zero behind a minus sign. -/
def signed (negative : Bool) (magnitude : Nat) : Int :=
  if negative then -magnitude else magnitude

/--
A text spells an integer with decimal digits, of which there is at least one.

A sign may stand in front of the digits, and zeros may lead them.
-/
inductive SpellsInteger : List Char → Int → Prop where
  | plain {digits : List Char} (some : digits ≠ []) (all : ∀ c ∈ digits, c.isDigit = true) :
    SpellsInteger digits (Decimal.natOfDigits digits)
  | positive {digits : List Char} (some : digits ≠ []) (all : ∀ c ∈ digits, c.isDigit = true) :
    SpellsInteger ('+' :: digits) (Decimal.natOfDigits digits)
  | negative {digits : List Char} (some : digits ≠ []) (all : ∀ c ∈ digits, c.isDigit = true) :
    SpellsInteger ('-' :: digits) (-Decimal.natOfDigits digits)

/-- A written number spells itself. -/
theorem spellsInteger_toDigits (n : Nat) : SpellsInteger (Nat.toDigits 10 n) n := by
  have spelled := SpellsInteger.plain (Nat.toDigits_ne_nil (b := 10) (n := n))
    fun _ => Decimal.isDigit_of_mem_toDigits
  rwa [Decimal.natOfDigits_toDigits] at spelled

namespace IntegerRange

variable {range : IntegerRange} {n : Int}

/-- An integer lies in a range between its two ends. -/
def Includes (range : IntegerRange) (n : Int) : Prop := range.lowest ≤ n ∧ n ≤ range.highest

instance : DecidablePred range.Includes := fun n =>
  inferInstanceAs (Decidable (range.lowest ≤ n ∧ n ≤ range.highest))

/-- Checking an integer answers it when the range includes it. -/
theorem check_eq_ok_iff {checked : Int} :
    range.check n = .ok checked ↔ checked = n ∧ range.Includes n := by
  unfold check Includes
  -- An integer is too small, or too large, or inside.
  split
  · simp only [reduceCtorEq, false_iff, not_and]
    omega
  · split
    · simp only [reduceCtorEq, false_iff, not_and]
      omega
    · simp only [Except.ok.injEq]
      omega

/-- A magnitude is outside when a smaller one is, because ranges include zero. -/
theorem Includes.of_le (zero : range.Includes 0) {negative : Bool} {small large : Nat}
    (ordered : small ≤ large) (inside : range.Includes (signed negative large)) :
    range.Includes (signed negative small) := by
  obtain ⟨lowest, highest⟩ := zero
  obtain ⟨below, above⟩ := inside
  -- The smaller magnitude stands between zero and the larger one, on either side of zero.
  cases negative with
  | true =>
    simp only [signed, if_true] at below above ⊢
    constructor <;> omega
  | false =>
    simp only [signed, Bool.false_eq_true, if_false] at below above ⊢
    constructor <;> omega

/-- A digit behind a signed magnitude counts towards the same side of zero. -/
theorem signed_digit (negative : Bool) (magnitude digit : Nat) :
    ((10 : Nat) : Int) * signed negative magnitude + (if negative then -(digit : Int) else digit) =
      signed negative (10 * magnitude + digit) := by
  cases negative with
  | true =>
    simp only [signed, if_true]
    omega
  | false =>
    simp only [signed, Bool.false_eq_true, if_false]
    omega

/-- Digits extend a magnitude as long as all of them are digits and the result lies in the range. -/
theorem readDigits_eq_ok_iff (zero : range.Includes 0) (negative : Bool) {magnitude : Nat}
    (inside : range.Includes (signed negative magnitude)) (digits : List Char) :
    range.readDigits 10 negative (signed negative magnitude) digits = .ok n ↔
      (∀ c ∈ digits, c.isDigit = true) ∧
        n = signed negative (Decimal.extended magnitude digits) ∧ range.Includes n := by
  -- The induction is on the digits still to come, from whatever magnitude was read by then.
  induction digits generalizing magnitude with
  | nil =>
    show Except.ok (signed negative magnitude) = .ok n ↔ _
    rw [Except.ok.injEq]
    constructor
    · rintro rfl
      exact ⟨by simp, rfl, inside⟩
    · rintro ⟨-, same, -⟩
      exact same.symm
  | cons c rest ih =>
    rw [readDigits, List.forall_mem_cons]
    cases digit : c.isDigit with
    | false => simp
    | true =>
      have small : ¬ 10 ≤ Decimal.digitValue c := by
        have := Decimal.digitValue_lt digit
        omega
      simp only [small, Bool.not_true, decide_false, Bool.or_false, Bool.false_eq_true,
        ↓reduceIte, signed_digit, true_and]
      have step : Decimal.extended magnitude (c :: rest) =
          Decimal.extended (10 * magnitude + Decimal.digitValue c) rest := rfl
      rw [step]
      cases checked : range.check (signed negative (10 * magnitude + Decimal.digitValue c)) with
      | ok next =>
        obtain ⟨rfl, stays⟩ := check_eq_ok_iff.mp checked
        exact ih stays
      | error fault =>
        -- A prefix outside the range has no extension inside, so the first fault is final.
        simp only [reduceCtorEq, false_iff, not_and]
        rintro - rfl extended
        have stays := zero.of_le (Decimal.le_extended _ rest) extended
        rw [check_eq_ok_iff.mpr ⟨rfl, stays⟩] at checked
        cases checked

/-- A run of digits is read from zero on. -/
theorem readDigits_zero (zero : range.Includes 0) (negative : Bool) (digits : List Char) :
    range.readDigits 10 negative 0 digits = .ok n ↔
      (∀ c ∈ digits, c.isDigit = true) ∧
        n = signed negative (Decimal.natOfDigits digits) ∧ range.Includes n := by
  have none : signed negative 0 = 0 := by cases negative <;> rfl
  have read := readDigits_eq_ok_iff (n := n) zero negative (none.symm ▸ zero) digits
  rwa [none] at read

/-- A range with negative numbers reads exactly the texts that spell one of its integers. -/
theorem read_eq_ok_iff (zero : range.Includes 0) (below : range.lowest < 0) (text : List Char) :
    range.read 10 text = .ok n ↔ SpellsInteger text n ∧ range.Includes n := by
  have sign {c : Char} (marks : c = '+' ∨ c = '-') {digits : List Char}
      (all : ∀ d ∈ c :: digits, d.isDigit = true) : False := by
    have digit := all c List.mem_cons_self
    rcases marks with rfl | rfl <;> cases digit
  unfold read
  -- The cases are those of the sign, and of whether anything stands behind it.
  split
  · refine iff_of_false (by simp) ?_
    rintro ⟨spelled, -⟩
    cases spelled with
    | plain some all => exact some rfl
  · refine iff_of_false (by simp) ?_
    rintro ⟨spelled, -⟩
    cases spelled with
    | plain some all => exact sign (.inl rfl) all
    | positive some all => exact some rfl
  · refine iff_of_false (by simp) ?_
    rintro ⟨spelled, -⟩
    cases spelled with
    | plain some all => exact sign (.inr rfl) all
    | negative some all => exact some rfl
  · rename_i digits filled
    rw [readDigits_zero zero]
    constructor
    · rintro ⟨all, rfl, inside⟩
      exact ⟨.positive filled all, inside⟩
    · rintro ⟨spelled, inside⟩
      cases spelled with
      | plain some all => exact (sign (.inl rfl) all).elim
      | positive some all => exact ⟨all, rfl, inside⟩
  · rename_i digits filled
    rw [if_pos below, readDigits_zero zero]
    constructor
    · rintro ⟨all, rfl, inside⟩
      exact ⟨.negative filled all, inside⟩
    · rintro ⟨spelled, inside⟩
      cases spelled with
      | plain some all => exact (sign (.inr rfl) all).elim
      | negative some all => exact ⟨all, rfl, inside⟩
  · -- Without a sign in front, the text is all digits.
    rename_i filled _ _ noPlus noMinus
    rw [readDigits_zero zero]
    constructor
    · rintro ⟨all, rfl, inside⟩
      exact ⟨.plain filled all, inside⟩
    · rintro ⟨spelled, inside⟩
      cases spelled with
      | plain some all => exact ⟨all, rfl, inside⟩
      | positive some all => exact (noPlus _ rfl).elim
      | negative some all => exact (noMinus _ rfl).elim

end IntegerRange

end SyncStore
