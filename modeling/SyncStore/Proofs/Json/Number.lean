import SyncStore.Json.Number
import SyncStore.Proofs.Decimal.Digits

/-! Numbers read the same whatever follows them, and written integers read back. -/

namespace SyncStore.Json

/-- What follows a number in a text cannot extend it. -/
def StopsNumber (rest : List Char) : Prop :=
  ∀ c ∈ rest.head?, c.isDigit = false ∧ c ≠ '.' ∧ c ≠ 'e' ∧ c ≠ 'E'

@[simp] theorem stopsNumber_nil : StopsNumber [] := by simp [StopsNumber]

theorem StopsNumber.noDigitAhead {rest : List Char} (stops : StopsNumber rest) :
    NoDigitAhead rest := fun c first => (stops c first).1

/--
A reader is local when it leaves a suffix of its text, and more text than it
needs changes nothing.
-/
def Local {α : Type} (reader : List Char → Reads α) : Prop :=
  ∀ text a rest, reader text = .ok (a, rest) →
    rest <:+ text ∧ ∀ more, StopsNumber more → reader (text ++ more) = .ok (a, rest ++ more)

/-- What stops a number starts neither a fraction nor an exponent. -/
theorem StopsNumber.head_ne {rest : List Char} (stops : StopsNumber rest) {c : Char}
    (extending : c = '.' ∨ c = 'e' ∨ c = 'E') : rest.head? ≠ some c := by
  intro first
  obtain ⟨_, point, lower, upper⟩ := stops c first
  rcases extending with rfl | rfl | rfl <;> contradiction

/-- A text that starts neither fraction nor exponent does not start one in front of more text. -/
theorem head_append_ne {text more : List Char} (stops : StopsNumber more) {c : Char}
    (extending : c = '.' ∨ c = 'e' ∨ c = 'E') (differs : text.head? ≠ some c) :
    (text ++ more).head? ≠ some c := by
  -- An empty text shows what comes behind it, which stops the number.
  cases text with
  | cons first rest => exact differs
  | nil => exact stops.head_ne extending

/-- Absorbing digits leaves a suffix of the text, and stops at the same place in a longer text. -/
theorem absorbDigits_local {bound : Nat} {text : List Char} :
    ∀ {significand count value digits : Nat} {rest : List Char},
      absorbDigits bound significand count text = (value, digits, rest) →
      rest <:+ text ∧ ∀ more, NoDigitAhead more →
        absorbDigits bound significand count (text ++ more) = (value, digits, rest ++ more) := by
  induction text with
  | nil =>
    -- At the end of the text, what follows starts with no digit.
    intro significand count value digits rest absorbed
    simp only [absorbDigits, Prod.mk.injEq] at absorbed
    obtain ⟨rfl, rfl, rfl⟩ := absorbed
    refine ⟨List.suffix_refl _, fun more ends => ?_⟩
    cases more with
    | nil => rfl
    | cons c more => simp [absorbDigits, ends c (by simp)]
  | cons c text ih =>
    intro significand count value digits rest absorbed
    simp only [absorbDigits] at absorbed
    split at absorbed
    · -- The first digit is absorbed, and the rest of the text follows.
      rename_i taken
      obtain ⟨suffix, extended⟩ := ih absorbed
      refine ⟨suffix.trans (List.suffix_cons c text), fun more ends => ?_⟩
      rw [List.cons_append, absorbDigits]
      simp only [taken, ↓reduceIte]
      exact extended more ends
    · -- The first character is not absorbed, and it is not in a longer text either.
      rename_i refused
      simp only [Prod.mk.injEq] at absorbed
      obtain ⟨rfl, rfl, rfl⟩ := absorbed
      refine ⟨List.suffix_refl _, fun more ends => ?_⟩
      rw [List.cons_append, absorbDigits]
      simp only [refused]
      rfl

/-- A scaled significand is followed by whatever follows it. -/
theorem floatOfParts_local (negative : Bool) (significand : Nat) (exponent : Int) :
    Local (floatOfParts negative significand exponent) := by
  intro text n rest read
  unfold floatOfParts at read ⊢
  split at read
  · -- Nothing is read, so what follows is left as it is.
    cases read
    exact ⟨List.suffix_refl _, fun more stops => rfl⟩
  · simp [failAt] at read

/-- Splitting the sign off a nonempty text leaves a suffix, with or without more text. -/
theorem splitSign_append {text : List Char} (nonempty : text ≠ []) (more : List Char) :
    splitSign (text ++ more) = ((splitSign text).1, (splitSign text).2 ++ more) := by
  -- The sign is decided by the first character, and there is one.
  obtain ⟨c, rest, rfl⟩ := List.exists_cons_of_ne_nil nonempty
  rw [List.cons_append]
  unfold splitSign
  split <;> simp_all

theorem splitSign_suffix (text : List Char) : (splitSign text).2 <:+ text := by
  unfold splitSign
  -- One sign is taken off at most.
  split
  · exact List.suffix_cons _ _
  · exact List.suffix_cons _ _
  · exact List.suffix_refl _

/-- An exponent is read locally. -/
theorem readExponent_local (negative : Bool) (significand : Nat) (start : Int) :
    Local (readExponent negative significand start) := by
  intro text n rest read
  -- An exponent has at least one digit.
  by_cases empty : text = []
  · simp [empty, readExponent, splitSign, failAt] at read
  · have suffix := splitSign_suffix text
    have extended := splitSign_append empty
    unfold readExponent at read ⊢
    simp only [extended]
    cases splitted : splitSign text with
    | mk down digits =>
      simp only [splitted] at read suffix ⊢
      cases digits with
      | nil => simp [failAt] at read
      | cons c tail =>
        by_cases digit : c.isDigit
        · cases absorbed : absorbDigits exponentBound (Decimal.digitValue c) 0 tail with
          | mk exponent counted =>
            obtain ⟨count, left⟩ := counted
            obtain ⟨inner, longer⟩ := absorbDigits_local absorbed
            -- The digits are a suffix behind the sign, and what is left is one behind the digits.
            have within := (inner.trans (List.suffix_cons c tail)).trans suffix
            simp only [digit, absorbed, Bool.not_true, Bool.false_eq_true, ↓reduceIte] at read
            -- Digits past the bound are dropped, and otherwise the exponent scales the number.
            by_cases past : (left.head?.map Char.isDigit).getD false = true
            · simp only [past, ↓reduceIte] at read
              split at read
              · simp [failAfter] at read
              · rename_i zero
                cases read
                refine ⟨(List.dropWhile_suffix _).trans within, fun more stops => ?_⟩
                simp only [List.cons_append, digit, longer more stops.noDigitAhead,
                  head_digit_append left stops.noDigitAhead, past, zero, Bool.not_true,
                  Bool.false_eq_true, ↓reduceIte, dropWhile_digits_append left stops.noDigitAhead]
            · -- The digits end, and the number is scaled by them.
              simp only [past, Bool.false_eq_true, ↓reduceIte] at read
              obtain ⟨ends, more_read⟩ := floatOfParts_local negative significand _ left n rest read
              refine ⟨ends.trans within, fun more stops => ?_⟩
              simp only [List.cons_append, digit, longer more stops.noDigitAhead,
                head_digit_append left stops.noDigitAhead, past, Bool.not_true,
                Bool.false_eq_true, ↓reduceIte]
              exact more_read more stops
        · simp [digit, failAfter] at read

/-- The end of a float is read locally. -/
theorem readFloatTail_local (negative : Bool) (significand : Nat) (start : Int) :
    Local (readFloatTail negative significand start) := by
  intro text n rest read
  unfold readFloatTail at read
  split at read
  · -- A mark of either case opens an exponent, whatever follows the number.
    rename_i tail
    obtain ⟨suffix, extended⟩ := readExponent_local negative significand start tail n rest read
    exact ⟨suffix.trans (List.suffix_cons _ _), extended⟩
  · rename_i tail
    obtain ⟨suffix, extended⟩ := readExponent_local negative significand start tail n rest read
    exact ⟨suffix.trans (List.suffix_cons _ _), extended⟩
  · rename_i lower upper
    obtain ⟨suffix, extended⟩ := floatOfParts_local negative significand start text n rest read
    refine ⟨suffix, fun more stops => ?_⟩
    -- Neither the text nor what follows it starts an exponent.
    have plain : (text ++ more).head? ≠ some 'e' ∧ (text ++ more).head? ≠ some 'E' := by
      refine ⟨head_append_ne stops (by simp) ?_, head_append_ne stops (by simp) ?_⟩
      · intro first
        obtain ⟨tail, same⟩ := List.head?_eq_some_iff.mp first
        exact lower tail same
      · intro first
        obtain ⟨tail, same⟩ := List.head?_eq_some_iff.mp first
        exact upper tail same
    unfold readFloatTail
    split
    · rename_i same
      simp [same] at plain
    · rename_i same
      simp [same] at plain
    · exact extended more stops

/-- A fraction is read locally. -/
theorem readFraction_local (negative : Bool) (significand : Nat) (start : Int) :
    Local (readFraction negative significand start) := by
  intro text n rest read
  unfold readFraction at read ⊢
  cases absorbed : absorbDigits (2 ^ 64) significand 0 text with
  | mk full counted =>
    obtain ⟨count, left⟩ := counted
    obtain ⟨inner, longer⟩ := absorbDigits_local absorbed
    simp only [absorbed] at read
    -- A fraction has at least one digit.
    split at read
    · split at read <;> simp [failAt, failAfter] at read
    · rename_i digits
      obtain ⟨suffix, extended⟩ := readFloatTail_local negative full _ _ n rest read
      refine ⟨(suffix.trans (List.dropWhile_suffix _)).trans inner, fun more stops => ?_⟩
      simp only [longer more stops.noDigitAhead, takeWhile_digits_append left stops.noDigitAhead,
        dropWhile_digits_append left stops.noDigitAhead, digits, ↓reduceIte]
      exact extended more stops

/-- A number is read locally from its first digit on. -/
theorem readWhole_local (negative : Bool) (significand : Nat) :
    Local (readWhole negative significand) := by
  intro text n rest read
  unfold readWhole at read
  cases absorbed : absorbDigits (2 ^ 64) significand 0 text with
  | mk full counted =>
    obtain ⟨count, left⟩ := counted
    obtain ⟨inner, longer⟩ := absorbDigits_local absorbed
    have within : left.dropWhile Char.isDigit <:+ text := (List.dropWhile_suffix _).trans inner
    simp only [absorbed] at read
    -- What follows the number changes neither the digits nor where they end.
    have extend : ∀ more, StopsNumber more → absorbDigits (2 ^ 64) significand 0 (text ++ more) =
        (full, count, left ++ more) := fun more stops => longer more stops.noDigitAhead
    have taken : ∀ more, StopsNumber more →
        (left ++ more).takeWhile Char.isDigit = left.takeWhile Char.isDigit :=
      fun more stops => takeWhile_digits_append left stops.noDigitAhead
    have dropped : ∀ more, StopsNumber more →
        (left ++ more).dropWhile Char.isDigit = left.dropWhile Char.isDigit ++ more :=
      fun more stops => dropWhile_digits_append left stops.noDigitAhead
    generalize left.dropWhile Char.isDigit = behind at read within dropped
    split at read
    · -- A point opens a fraction, whatever follows the number.
      rename_i tail
      obtain ⟨suffix, extended⟩ := readFraction_local negative full _ _ n rest read
      refine ⟨(suffix.trans (List.suffix_cons _ _)).trans within, fun more stops => ?_⟩
      simp only [readWhole, extend more stops, taken more stops, dropped more stops,
        List.cons_append]
      exact extended more stops
    · rename_i noPoint
      have first : behind.head? ≠ some '.' := by
        intro first
        obtain ⟨tail, same⟩ := List.head?_eq_some_iff.mp first
        exact noPoint tail same
      -- Without a point the number goes on as the longer text does.
      have unfolded : ∀ more, StopsNumber more → readWhole negative significand (text ++ more) =
          if (left.takeWhile Char.isDigit).length = 0 ∧ (behind ++ more).head? ≠ some 'e' ∧
              (behind ++ more).head? ≠ some 'E'
          then .ok (integerOf negative full, behind ++ more)
          else readFloatTail negative full (left.takeWhile Char.isDigit).length
            (behind ++ more) := by
        intro more stops
        have noPoint : (behind ++ more).head? ≠ some '.' := head_append_ne stops (by simp) first
        simp only [readWhole, extend more stops, taken more stops, dropped more stops]
        split
        · rename_i same
          simp [same] at noPoint
        · rfl
      split at read
      · -- Without an exponent the number is an integer, and it still has none in a longer text.
        rename_i plain
        cases read
        refine ⟨within, fun more stops => ?_⟩
        refine (unfolded more stops).trans (if_pos ⟨plain.1, ?_, ?_⟩)
        · exact head_append_ne stops (by simp) plain.2.1
        · exact head_append_ne stops (by simp) plain.2.2
      · -- With an exponent or with more digits, the number is a float.
        rename_i exponent
        obtain ⟨suffix, extended⟩ := readFloatTail_local negative full _ _ n rest read
        refine ⟨suffix.trans within, fun more stops => ?_⟩
        refine (unfolded more stops).trans ((if_neg fun plain => exponent ?_).trans
          (extended more stops))
        -- The character that opened the exponent is the first one in any case.
        cases behind with
        | nil => simp [plain.1]
        | cons c tail => exact plain

/-- A number is read locally. -/
theorem readUnsigned_local (negative : Bool) : Local (readUnsigned negative) := by
  intro text n rest read
  cases text with
  | nil => simp [readUnsigned, failAt] at read
  | cons c tail =>
    simp only [readUnsigned] at read
    split at read
    · simp [failAfter] at read
    · -- The first digit is the same in a longer text.
      rename_i digit
      split at read
      · simp [failAfter] at read
      · -- So is whether a zero leads other digits.
        rename_i leading
        obtain ⟨suffix, extended⟩ := readWhole_local negative _ tail n rest read
        refine ⟨suffix.trans (List.suffix_cons c tail), fun more stops => ?_⟩
        rw [List.cons_append, readUnsigned]
        simp only [digit, head_digit_append tail stops.noDigitAhead, leading, ↓reduceIte]
        exact extended more stops

/-- Reading digits never makes a number smaller. -/
theorem le_ofDigitChars (digits : List Char) (significand : Nat) :
    significand ≤ Nat.ofDigitChars 10 digits significand := by
  -- The digits move the significand up by powers of ten.
  rw [Nat.ofDigitChars_eq_ofDigitChars_zero]
  have := Nat.le_mul_of_pos_left significand (Nat.pow_pos (by decide : 0 < 10) (n := digits.length))
  omega

/-- A run of digits below the bound is absorbed whole. -/
theorem absorbDigits_run {bound : Nat} {digits rest : List Char} (ends : NoDigitAhead rest)
    (all : ∀ c ∈ digits, c.isDigit = true) {significand : Nat}
    (below : Nat.ofDigitChars 10 digits significand < bound) (count : Nat) :
    absorbDigits bound significand count (digits ++ rest) =
      (Nat.ofDigitChars 10 digits significand, count + digits.length, rest) := by
  induction digits generalizing significand count with
  -- No digit follows the run.
  | nil =>
    cases rest with
    | nil => simp [absorbDigits]
    | cons c rest => simp [absorbDigits, ends c (by simp)]
  | cons c digits ih =>
    rw [Nat.ofDigitChars_cons] at below ⊢
    -- The significand so far is no larger than the whole one, which is below the bound.
    have next : 10 * significand + Decimal.digitValue c < bound :=
      Nat.lt_of_le_of_lt (le_ofDigitChars digits _) below
    rw [List.cons_append, absorbDigits]
    simp only [all c (by simp), next, decide_true, Bool.and_self, ↓reduceIte]
    rw [Decimal.digitValue, ih (fun c member => all c (by simp [member])) below]
    simp only [List.length_cons, Prod.mk.injEq, and_true, true_and]
    omega

/-- The digits of a number that fits a word are read as an integer. -/
theorem readUnsigned_toDigits (negative : Bool) {n : Nat} (small : n < 2 ^ 64) {rest : List Char}
    (stops : StopsNumber rest) :
    readUnsigned negative (Nat.toDigits 10 n ++ rest) = .ok (integerOf negative n, rest) := by
  obtain ⟨c, tail, same, digit, zero⟩ := Decimal.toDigits_head n
  have ends := stops.noDigitAhead
  have all : ∀ c ∈ tail, c.isDigit = true := fun d member =>
    Decimal.isDigit_of_mem_toDigits (n := n) (by simp [same, member])
  -- The first digit and the others together are the digits of the number.
  have value : Nat.ofDigitChars 10 tail (Decimal.digitValue c) = n := by
    have whole := Nat.ofDigitChars_ten_toDigits (n := n)
    rw [same, Nat.ofDigitChars_cons] at whole
    simpa [Decimal.digitValue] using whole
  have absorbed := absorbDigits_run ends all (by rw [value]; exact small) 0
  rw [value] at absorbed
  -- A leading zero stands alone, so no digit follows it.
  have leading : ¬(c = '0' ∧ ((tail ++ rest).head?.map Char.isDigit).getD false = true) := by
    rintro ⟨isZero, more⟩
    rw [head_digit_append tail ends, (zero isZero).2] at more
    simp at more
  -- Behind the digits nothing extends the number.
  have gap : rest.takeWhile Char.isDigit = [] ∧ rest.dropWhile Char.isDigit = rest := by
    cases rest with
    | nil => simp
    | cons d rest => simp [ends d (by simp)]
  have plain : rest.head? ≠ some '.' ∧ rest.head? ≠ some 'e' ∧ rest.head? ≠ some 'E' :=
    ⟨stops.head_ne (by simp), stops.head_ne (by simp), stops.head_ne (by simp)⟩
  rw [same, List.cons_append, readUnsigned]
  simp only [digit, leading, Bool.not_true, Bool.false_eq_true, ↓reduceIte, readWhole, absorbed,
    gap.1, gap.2, List.length_nil]
  split
  · simp at plain
  · simp [plain]

/-- The integer of a negative word is read behind its sign. -/
theorem integerOf_negative {n : WordInt} (below : n.val < 0) :
    integerOf true n.val.natAbs = .int n := by
  -- A negative number is not zero, so it is no negative zero.
  have nonzero : n.val.natAbs ≠ 0 := by omega
  have same : -(n.val.natAbs : Int) = n.val := by omega
  have fits : WordInt.ofInt? n.val = some n := dif_pos ⟨n.lower, n.upper⟩
  simp only [integerOf, nonzero, decide_false, Bool.and_false, Bool.false_eq_true, ↓reduceIte, same,
    fits]

/-- The integer of any other word is read without a sign. -/
theorem integerOf_nonnegative {n : WordInt} (above : 0 ≤ n.val) :
    integerOf false n.val.natAbs = .int n := by
  -- The magnitude is the number itself, which was in range before.
  have same : (n.val.natAbs : Int) = n.val := by omega
  have fits : WordInt.ofInt? n.val = some n := dif_pos ⟨n.lower, n.upper⟩
  simp only [integerOf, Bool.false_and, Bool.false_eq_true, ↓reduceIte, same, fits]

end SyncStore.Json
