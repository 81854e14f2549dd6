import SyncStore.Decimal.Layout
import SyncStore.Decimal.Reading
import SyncStore.Value

/-! Runs of decimal digits: their values, where they end, and the numbers that start with them. -/

namespace SyncStore

/-- What follows a number does not start with one of its digits. -/
def NoDigitAhead (rest : List Char) : Prop := ∀ c ∈ rest.head?, c.isDigit = false

@[simp] theorem noDigitAhead_nil : NoDigitAhead [] := by simp [NoDigitAhead]

/-- Digits behind a text belong to it only when it ends in the middle of a run. -/
theorem takeWhile_digits_append (text : List Char) {rest : List Char} (ends : NoDigitAhead rest) :
    (text ++ rest).takeWhile Char.isDigit = text.takeWhile Char.isDigit := by
  induction text with
  -- What follows is not taken, because it starts with no digit.
  | nil =>
    cases rest with
    | nil => rfl
    | cons c rest => simp [ends c (by simp)]
  | cons c text ih =>
    by_cases digit : c.isDigit <;> simp [digit, ih]

/-- A run of digits that ends inside a text ends at the same place when more text follows. -/
theorem dropWhile_digits_append (text : List Char) {rest : List Char} (ends : NoDigitAhead rest) :
    (text ++ rest).dropWhile Char.isDigit = text.dropWhile Char.isDigit ++ rest := by
  induction text with
  -- What follows is kept, because it starts with no digit.
  | nil =>
    cases rest with
    | nil => rfl
    | cons c rest => simp [ends c (by simp)]
  | cons c text ih =>
    by_cases digit : c.isDigit <;> simp [digit, ih]

/-- The first character of a text and more text is a digit exactly when it is one of the text. -/
theorem head_digit_append (text : List Char) {rest : List Char} (ends : NoDigitAhead rest) :
    ((text ++ rest).head?.map Char.isDigit).getD false =
      (text.head?.map Char.isDigit).getD false := by
  -- A text shows its own head, and an empty one shows what comes behind it.
  cases text with
  | cons c text => rfl
  | nil =>
    cases rest with
    | nil => rfl
    | cons c rest => simpa using ends c (by simp)

namespace Decimal

/-- The value of digits is the one that the number behind them was written with. -/
@[simp] theorem natOfDigits_toDigits (n : Nat) : natOfDigits (Nat.toDigits 10 n) = n :=
  Nat.ofDigitChars_ten_toDigits

/-- A decimal digit is one of ten. -/
theorem digitValue_lt {c : Char} (digit : c.isDigit = true) : digitValue c < 10 := by
  have ends : '0'.toNat = 48 ∧ '0'.val.toNat = 48 ∧ '9'.val.toNat = 57 := by decide
  have same : c.toNat = c.val.toNat := rfl
  simp only [Char.isDigit, Bool.and_eq_true, decide_eq_true_eq, ge_iff_le,
    UInt32.le_iff_toNat_le] at digit
  rw [digitValue]
  omega

/-- Every character of a written number is a digit. -/
theorem isDigit_of_mem_toDigits {n : Nat} {c : Char} (member : c ∈ Nat.toDigits 10 n) :
    c.isDigit = true :=
  Nat.isDigit_of_mem_toDigits (by decide) (by decide) member

/-- A written number starts with a digit, which is zero only for zero itself. -/
theorem toDigits_head (n : Nat) :
    ∃ c rest, Nat.toDigits 10 n = c :: rest ∧ c.isDigit = true ∧ (c = '0' → n = 0 ∧ rest = []) := by
  -- The leading digit is that of the number without its last digit.
  induction n using Nat.strongRecOn with
  | ind n ih =>
    by_cases small : n < 10
    · -- A number below ten is its only digit.
      refine ⟨n.digitChar, [], Nat.toDigits_of_lt_base small, ?_, fun zero => ?_⟩
      · simp [Nat.isDigit_digitChar, small]
      · exact ⟨Nat.digitChar_eq_zero.mp zero, rfl⟩
    · -- Another number starts as its tenth part does, which is not zero.
      obtain ⟨c, rest, leading, digit, zero⟩ := ih (n / 10) (by omega)
      refine ⟨c, rest ++ [(n % 10).digitChar], ?_, digit, fun same => ?_⟩
      · rw [Nat.toDigits_of_base_le (by decide) (by omega), leading, List.cons_append]
      · have := (zero same).1
        omega

end Decimal

/-- A digit is no other character. -/
theorem ne_of_isDigit {c d : Char} (digit : c.isDigit = true) (other : d.isDigit = false) :
    c ≠ d := by
  rintro rfl
  cases other.symm.trans digit

/-- The characters that numbers are written with. -/
def isNumeric (c : Char) : Bool := c.isDigit || c = '.' || c = '-' || c = '+' || c = 'e'

theorem isNumeric_of_isDigit {c : Char} (digit : c.isDigit = true) : isNumeric c = true := by
  simp [isNumeric, digit]

/-- A number starts with its sign or with a digit. -/
def StartsNumber (text : List Char) : Prop :=
  ∃ c rest, text = c :: rest ∧ (c = '-' ∨ c.isDigit = true)

namespace FloatLayout

/-- Digits without an exponent start with a digit. -/
theorem positional_head (layout : FloatLayout) {digits : List Char} (point : Int)
    (nonempty : digits ≠ []) (all : ∀ c ∈ digits, c.isDigit = true) :
    ∃ c rest, layout.positional digits point = c :: rest ∧ c.isDigit = true := by
  obtain ⟨c, rest, rfl⟩ := List.exists_cons_of_ne_nil nonempty
  have digit := all c (by simp)
  unfold positional
  split
  · -- A number below one starts with a zero in front of its point.
    exact ⟨'0', _, rfl, rfl⟩
  · split
    · -- A number that is whole starts with its own first digit.
      exact ⟨c, _, rfl, digit⟩
    · -- The point stands behind at least one digit.
      rename_i inside _
      obtain ⟨before, same⟩ : ∃ before, point.toNat = before + 1 := ⟨point.toNat - 1, by omega⟩
      exact ⟨c, rest.take before ++ '.' :: (c :: rest).drop point.toNat, by simp [same], digit⟩

/-- Digits with an exponent start with a digit. -/
theorem scientific_head (layout : FloatLayout) {digits : List Char} (power : Int)
    (nonempty : digits ≠ []) (all : ∀ c ∈ digits, c.isDigit = true) :
    ∃ c rest, layout.scientific digits power = c :: rest ∧ c.isDigit = true := by
  -- The first significant digit stands in front of the point.
  obtain ⟨c, rest, rfl⟩ := List.exists_cons_of_ne_nil nonempty
  exact ⟨c, _, rfl, all c (by simp)⟩

/-- A magnitude starts with a digit. -/
theorem magnitude_head (layout : FloatLayout) (d : Decimal) :
    ∃ c rest, layout.magnitude d = c :: rest ∧ c.isDigit = true := by
  have nonempty : d.digits ≠ [] := Nat.toDigits_ne_nil
  have all : ∀ c ∈ d.digits, c.isDigit = true := fun _ => Decimal.isDigit_of_mem_toDigits
  unfold magnitude
  split
  · -- Zero is written with a zero of its own.
    exact positional_head layout 1 (by simp) (by simp)
  · -- Any other number is laid out with an exponent or without one.
    dsimp only
    split
    · exact scientific_head layout _ nonempty all
    · exact positional_head layout _ nonempty all

/-- The text of a number starts with its sign or with a digit. -/
theorem render_starts (layout : FloatLayout) (x : Binary64) : StartsNumber (layout.render x) := by
  obtain ⟨c, rest, same, digit⟩ := magnitude_head layout (x.shortest layout.ties)
  unfold render
  rw [same]
  -- Behind the sign the magnitude starts with a digit.
  cases x.negative with
  | true => exact ⟨'-', c :: rest, rfl, Or.inl rfl⟩
  | false => exact ⟨c, rest, rfl, Or.inr digit⟩

/-- Digits without an exponent are numeric. -/
theorem positional_numeric (layout : FloatLayout) {digits : List Char} (point : Int)
    (all : ∀ c ∈ digits, c.isDigit = true) : ∀ c ∈ layout.positional digits point, isNumeric c := by
  intro c member
  have inside : c ∈ digits → isNumeric c = true := fun digit => isNumeric_of_isDigit (all c digit)
  unfold positional at member
  split at member
  · -- Below one, zeros stand between the point and the digits.
    simp only [List.cons_append, List.mem_cons, List.mem_append, List.mem_replicate] at member
    rcases member with rfl | rfl | ⟨_, rfl⟩ | digit
    · rfl
    · rfl
    · rfl
    · exact inside digit
  · split at member
    · -- A whole number is filled with zeros, and its fraction is one of them.
      simp only [List.append_assoc, List.mem_append, List.mem_replicate] at member
      rcases member with digit | ⟨_, rfl⟩ | fraction
      · exact inside digit
      · rfl
      · split at fraction
        · simp only [List.mem_cons, List.not_mem_nil, or_false] at fraction
          rcases fraction with rfl | rfl <;> rfl
        · simp at fraction
    · -- Any other number has its point among the digits.
      simp only [List.mem_append, List.mem_cons] at member
      rcases member with digit | rfl | digit
      · exact inside (List.mem_of_mem_take digit)
      · rfl
      · exact inside (List.mem_of_mem_drop digit)

/-- Digits with an exponent are numeric, and so is the exponent. -/
theorem scientific_numeric (layout : FloatLayout) {digits : List Char} (power : Int)
    (all : ∀ c ∈ digits, c.isDigit = true) : ∀ c ∈ layout.scientific digits power, isNumeric c := by
  intro c member
  have inside : c ∈ digits → isNumeric c = true := fun digit => isNumeric_of_isDigit (all c digit)
  simp only [scientific, List.append_assoc, List.mem_append, List.cons_append, List.mem_cons]
    at member
  -- A character belongs to the first digit, the fraction, the mark, the sign or the exponent.
  rcases member with digit | fraction | rfl | sign | digit
  · exact inside (List.mem_of_mem_take digit)
  · split at fraction
    · simp at fraction
    · rcases List.mem_cons.mp fraction with rfl | digit
      · rfl
      · exact inside (List.mem_of_mem_drop digit)
  · rfl
  · split at sign
    · obtain rfl := List.mem_singleton.mp sign
      rfl
    · split at sign
      · obtain rfl := List.mem_singleton.mp sign
        rfl
      · simp at sign
  · exact isNumeric_of_isDigit (Decimal.isDigit_of_mem_toDigits digit)

/-- Every character of a written number is numeric. -/
theorem render_numeric (layout : FloatLayout) (x : Binary64) :
    ∀ c ∈ layout.render x, isNumeric c := by
  have all : ∀ c ∈ (x.shortest layout.ties).digits, c.isDigit = true :=
    fun _ => Decimal.isDigit_of_mem_toDigits
  intro c member
  -- A character is the sign or one of the magnitude.
  rcases List.mem_append.mp member with sign | digits
  · split at sign
    · obtain rfl := List.mem_singleton.mp sign
      rfl
    · simp at sign
  · unfold magnitude at digits
    split at digits
    · exact positional_numeric layout 1 (by simp) c digits
    · dsimp only at digits
      split at digits
      · exact scientific_numeric layout _ all c digits
      · exact positional_numeric layout _ all c digits

end FloatLayout

namespace WordInt

/-- A written integer starts with its sign or with a digit. -/
theorem render_starts (n : WordInt) : StartsNumber n.render := by
  unfold render
  obtain ⟨c, tail, same, digit, _⟩ := Decimal.toDigits_head n.val.natAbs
  -- A negative number starts with its sign, and any other with a digit.
  split
  · exact ⟨'-', _, rfl, Or.inl rfl⟩
  · exact ⟨c, tail, same, Or.inr digit⟩

/-- Every character of a written integer is numeric. -/
theorem render_numeric (n : WordInt) : ∀ c ∈ n.render, isNumeric c := by
  intro c member
  unfold render at member
  -- A character of the number is its sign or a digit.
  rcases List.mem_append.mp member with sign | digit
  · split at sign
    · rw [List.mem_singleton.mp sign]
      rfl
    · cases sign
  · exact isNumeric_of_isDigit (Decimal.isDigit_of_mem_toDigits digit)

end WordInt

end SyncStore
