import SyncStore.Proofs.Decimal.Digits
import SyncStore.Proofs.Decimal.Shortest

/-! The text of a number is read as that number, in every layout that keeps a fraction. -/

namespace SyncStore

namespace Decimal

/-- Digits behind others count for their own value, and raise that of the others. -/
theorem natOfDigits_append (front back : List Char) :
    natOfDigits (front ++ back) = 10 ^ back.length * natOfDigits front + natOfDigits back := by
  exact (Nat.ofDigitChars_append (l := front) (m := back) 0).trans
    Nat.ofDigitChars_eq_ofDigitChars_zero

/-- Zeros alone are zero. -/
theorem natOfDigits_zeros (count : Nat) : natOfDigits (List.replicate count '0') = 0 := by
  exact Nat.ofDigitChars_replicate_zero.trans (Nat.mul_zero _)

/-- A decimal that is not zero has as many digits as its value reaches powers of ten. -/
theorem value_bounds {d : Decimal} (nonzero : d.coefficient ≠ 0) :
    (10 : ℚ) ^ (d.exponent + d.digits.length - 1) ≤ d.value ∧
      d.value < 10 ^ (d.exponent + d.digits.length) := by
  have least : 10 ^ (d.digits.length - 1) ≤ d.coefficient := pow_length_toDigits_le (by omega)
  have most : d.coefficient < 10 ^ d.digits.length :=
    (Nat.length_toDigits_le_iff (by decide) Nat.length_toDigits_pos).mp le_rfl
  have some : 0 < d.digits.length := Nat.length_toDigits_pos
  -- The number of digits places the coefficient between two powers of ten.
  rw [value, mul_comm]
  constructor
  · rw [show d.exponent + d.digits.length - 1 = d.exponent + (d.digits.length - 1 : Nat) by omega,
      zpow_add₀ (by norm_num), zpow_natCast]
    gcongr
    exact_mod_cast least
  · rw [zpow_add₀ (by norm_num), zpow_natCast]
    gcongr
    exact_mod_cast most

/-- Four hundred powers of ten go further than any power of two of a number. -/
theorem two_pow_le_ten_pow : (2 : ℚ) ^ 1075 ≤ 10 ^ 400 := by
  calc (2 : ℚ) ^ 1075 ≤ 2 ^ (3 * 400) := pow_le_pow_right₀ one_le_two (by decide)
    _ = (2 ^ 3) ^ 400 := pow_mul 2 3 400
    _ ≤ 10 ^ 400 := pow_le_pow_left₀ (by norm_num) (by norm_num) 400

/-- A decimal that rounds to the word of a number is read as that number. -/
theorem toReal_of_word {d : Decimal} {x : Binary64} (nonzero : x.isZero = false)
    (rounds : d.word = x.magnitude) : d.toReal x.negative = .finite x := by
  have some : nearestWord d.numerator d.denominator ≠ 0 := by
    rw [show nearestWord d.numerator d.denominator = x.magnitude from rounds]
    simpa [Binary64.isZero] using nonzero
  have finite : nearestWord d.numerator d.denominator < Binary64.infinityWord :=
    (show nearestWord d.numerator d.denominator = x.magnitude from rounds) ▸ x.finite
  have filled : d.coefficient ≠ 0 := by
    intro none
    rw [numerator, none, Nat.zero_mul, nearestWord, if_pos rfl] at some
    exact some rfl
  have high := lt_of_nearestWord_lt d.denominator_pos finite
  have low := le_of_nearestWord_ne_zero d.denominator_pos some
  rw [← value_eq_div] at high low
  obtain ⟨least, most⟩ := value_bounds filled
  -- Neither size is so far from one that it settles the number.
  have above : ¬ d.exponent + d.digits.length < -400 := by
    intro tiny
    have : d.value < 10 ^ (-400 : ℤ) :=
      most.trans_le (zpow_le_zpow_right₀ (by norm_num) tiny.le)
    have least : (10 : ℚ) ^ (-400 : ℤ) ≤ 2 ^ (-1075 : ℤ) := by
      rw [zpow_neg, zpow_neg]
      exact inv_anti₀ (by positivity) (by exact_mod_cast two_pow_le_ten_pow)
    linarith
  have below : ¬ 400 < d.exponent + d.digits.length := by
    intro huge
    have : (10 : ℚ) ^ (400 : ℤ) ≤ d.value :=
      (zpow_le_zpow_right₀ (by norm_num) (by omega)).trans least
    have most : (2 : ℚ) ^ (1024 : ℤ) ≤ 10 ^ (400 : ℤ) := by
      calc (2 : ℚ) ^ (1024 : ℤ) ≤ 2 ^ ((1075 : Nat) : ℤ) :=
            zpow_le_zpow_right₀ one_le_two (by norm_num)
        _ ≤ 10 ^ ((400 : Nat) : ℤ) := by
          rw [zpow_natCast, zpow_natCast]
          exact two_pow_le_ten_pow
    exact absurd high (not_lt_of_ge (most.trans this))
  have settled : ¬ (d.coefficient = 0 ∨ d.exponent + d.digits.length < -400) :=
    fun either => either.elim filled above
  rw [Binary64.infinityWord] at finite
  rw [toReal, if_neg settled, if_neg below, Real64.ofQuotient, Binary64.ofQuotient?,
    dif_pos finite]
  obtain ⟨negative, magnitude, bound⟩ := x
  obtain rfl : nearestWord d.numerator d.denominator = magnitude := rounds
  rfl

/-- A decimal without a coefficient is read as zero. -/
theorem toReal_of_zero {d : Decimal} (zero : d.coefficient = 0) (negative : Bool) :
    d.toReal negative = .finite (Binary64.zero negative) := if_pos (.inl zero)

/-- A decimal of the value of a number's shortest one is read as that number. -/
theorem toReal_of_value {d : Decimal} {x : Binary64} {rule : TieRule}
    (same : d.value = (x.shortest rule).value) : d.toReal x.negative = .finite x := by
  cases zero : x.isZero with
  | false =>
    exact toReal_of_word zero ((word_congr same).trans (Binary64.word_shortest zero rule))
  | true =>
    -- The shortest decimal of zero is zero.
    have none : d.coefficient = 0 := by
      rw [Binary64.shortest, zero, if_pos rfl, value, value, Nat.cast_zero, zero_mul] at same
      exact_mod_cast (mul_eq_zero.mp same).resolve_right (by positivity)
    have empty : x.magnitude = 0 := by simpa [Binary64.isZero] using zero
    obtain ⟨negative, magnitude, finite⟩ := x
    obtain rfl : magnitude = 0 := empty
    exact toReal_of_zero none negative

end Decimal

/-- Digits in front of a point and behind it, without leading zeros. -/
structure AroundPoint (text whole fraction : List Char) : Prop where
  is : text = whole ++ '.' :: fraction
  starts : whole ≠ []
  leads : whole.head? = some '0' → whole = ['0']
  ends : fraction ≠ []
  front : ∀ c ∈ whole, c.isDigit = true
  back : ∀ c ∈ fraction, c.isDigit = true

/-- A point belongs to no run of digits. -/
theorem noDigitAhead_point (rest : List Char) : NoDigitAhead ('.' :: rest) := by
  simp [NoDigitAhead]

/-- All of some digits are taken in front of what is no digit. -/
theorem takeWhile_digits {digits rest : List Char} (all : ∀ c ∈ digits, c.isDigit = true)
    (ends : NoDigitAhead rest) : (digits ++ rest).takeWhile Char.isDigit = digits := by
  rw [takeWhile_digits_append digits ends, List.takeWhile_eq_self_iff.mpr all]

/-- Nothing else is left of some digits than what follows them. -/
theorem dropWhile_digits {digits rest : List Char} (all : ∀ c ∈ digits, c.isDigit = true)
    (ends : NoDigitAhead rest) : (digits ++ rest).dropWhile Char.isDigit = rest := by
  rw [dropWhile_digits_append digits ends, List.dropWhile_eq_nil_iff.mpr all, List.nil_append]

/-- Digits around a point are read with the exponent behind them. -/
theorem AroundPoint.read {text whole fraction : List Char}
    (around : AroundPoint text whole fraction) {tail : List Char} (ends : NoDigitAhead tail) :
    readUnsignedDecimal? (text ++ tail) =
      (readExponent? tail).map (Decimal.ofParts whole fraction) := by
  have filled : (whole.isEmpty && fraction.isEmpty) = false := by
    simp [around.starts]
  rw [around.is, List.append_assoc, List.cons_append, readUnsignedDecimal?]
  simp only [takeWhile_digits around.front (noDigitAhead_point _),
    dropWhile_digits around.front (noDigitAhead_point _), takeWhile_digits around.back ends,
    dropWhile_digits around.back ends, filled, Bool.false_eq_true, ↓reduceIte]

/-- Digits without a point are read with the exponent behind them. -/
theorem readUnsignedDecimal?_whole {whole tail : List Char}
    (all : ∀ c ∈ whole, c.isDigit = true) (starts : whole ≠ [])
    (ends : NoDigitAhead ('e' :: tail)) :
    readUnsignedDecimal? (whole ++ 'e' :: tail) =
      (readExponent? ('e' :: tail)).map (Decimal.ofParts whole []) := by
  rw [readUnsignedDecimal?]
  simp only [takeWhile_digits all ends, dropWhile_digits all ends]
  -- There is a digit in front of the mark.
  obtain ⟨c, rest, rfl⟩ := List.exists_cons_of_ne_nil starts
  rfl

/-- A written number has no sign in front of its digits. -/
theorem splitSign_toDigits (n : Nat) :
    splitSign (Nat.toDigits 10 n) = (false, Nat.toDigits 10 n) := by
  obtain ⟨c, rest, same, digit, -⟩ := Decimal.toDigits_head n
  rw [same, splitSign]
  all_goals
    rintro tail split
    obtain ⟨rfl, -⟩ := List.cons.inj split
    cases digit

/-- An exponent is read behind its mark. -/
theorem readExponent?_toDigits (negative : Bool) (n : Nat) {sign : List Char}
    (signed : splitSign (sign ++ Nat.toDigits 10 n) = (negative, Nat.toDigits 10 n)) :
    readExponent? ('e' :: (sign ++ Nat.toDigits 10 n)) =
      some (if negative then -(n : Int) else n) := by
  have filled : (Nat.toDigits 10 n).isEmpty = false :=
    List.isEmpty_eq_false_iff.mpr Nat.toDigits_ne_nil
  have all : (Nat.toDigits 10 n).all Char.isDigit = true :=
    List.all_eq_true.mpr fun _ => Decimal.isDigit_of_mem_toDigits
  rw [readExponent?, if_pos (.inl rfl), readSignedDigits?, signed]
  simp only [filled, all, Bool.not_true, Bool.or_self, Bool.false_eq_true, ↓reduceIte,
    Decimal.natOfDigits_toDigits]

/-- A digit is no capital letter. -/
theorem not_isUpper_of_isDigit {c : Char} (digit : c.isDigit = true) : ¬ c.isUpper = true := by
  intro upper
  simp only [Char.isDigit, Char.isUpper, Bool.and_eq_true, decide_eq_true_eq, ge_iff_le]
    at digit upper
  exact absurd (UInt32.le_trans upper.1 digit.2) (by decide)

namespace FloatLayout

variable {layout : FloatLayout} {digits : List Char}

/-- A text sets digits out around a point when they keep their value there. -/
def SetsOut (text digits : List Char) (point : Int) : Prop :=
  ∃ whole back, AroundPoint text whole back ∧
    (Decimal.ofParts whole back 0).value =
      Decimal.natOfDigits digits * 10 ^ (point - digits.length)

/-- Zeros are digits. -/
theorem isDigit_of_mem_zeros {count : Nat} {c : Char} (inside : c ∈ List.replicate count '0') :
    c.isDigit = true := by
  rw [List.eq_of_mem_replicate inside]
  rfl

/-- Digits behind others make one run of digits with them. -/
theorem isDigit_of_mem_append {front back : List Char} (first : ∀ c ∈ front, c.isDigit = true)
    (second : ∀ c ∈ back, c.isDigit = true) : ∀ c ∈ front ++ back, c.isDigit = true :=
  fun c inside => (List.mem_append.mp inside).elim (first c) (second c)

section Positional

variable {point : Int} (starts : digits ≠ []) (all : ∀ c ∈ digits, c.isDigit = true)

include starts all

/-- Below one the zeros in front of the digits do not count. -/
theorem setsOut_below (small : point ≤ 0) :
    SetsOut ('0' :: '.' :: List.replicate (-point).toNat '0' ++ digits) digits point := by
  have zero : ∀ c ∈ ['0'], c.isDigit = true := fun _ => @isDigit_of_mem_zeros 1 _
  refine ⟨['0'], List.replicate (-point).toNat '0' ++ digits, ?_, ?_⟩
  · exact ⟨rfl, by simp, fun _ => rfl, by simp [starts], zero,
      isDigit_of_mem_append (fun _ => isDigit_of_mem_zeros) all⟩
  · have value : Decimal.natOfDigits (['0'] ++ (List.replicate (-point).toNat '0' ++ digits)) =
        Decimal.natOfDigits digits := by
      have shape : ['0'] ++ (List.replicate (-point).toNat '0' ++ digits) =
          List.replicate ((-point).toNat + 1) '0' ++ digits := by
        simp [List.replicate_succ]
      rw [shape, Decimal.natOfDigits_append, Decimal.natOfDigits_zeros, Nat.mul_zero,
        Nat.zero_add]
    -- The zeros behind the point are places of the fraction.
    have places : (0 : ℤ) - ((-point).toNat + digits.length : Nat) = point - digits.length := by
      omega
    simp only [Decimal.ofParts, Decimal.value, value, List.length_append, List.length_replicate,
      places]

/-- From the last digit on zeros fill up to the point, and one stands behind it. -/
theorem setsOut_whole (leads : digits.head? = some '0' → digits = ['0'] ∧ point ≤ 1)
    (large : digits.length ≤ point.toNat) :
    SetsOut (digits ++ List.replicate (point.toNat - digits.length) '0' ++ ['.', '0'])
      digits point := by
  have zero : ∀ c ∈ ['0'], c.isDigit = true := fun _ => @isDigit_of_mem_zeros 1 _
  refine ⟨digits ++ List.replicate (point.toNat - digits.length) '0', ['0'], ?_, ?_⟩
  · refine ⟨rfl, by simp [starts], fun first => ?_, by simp,
      isDigit_of_mem_append all fun _ => isDigit_of_mem_zeros, zero⟩
    -- Zero alone reaches no further than the point, so nothing is filled up behind it.
    rw [List.head?_append_of_ne_nil _ starts] at first
    obtain ⟨rfl, most⟩ := leads first
    have none : point.toNat - (['0'] : List Char).length = 0 := by
      simp only [List.length_singleton]
      omega
    rw [none]
    rfl
  · have positive : 0 < digits.length := List.length_pos_iff_ne_nil.mpr starts
    have tens : point - digits.length = (point.toNat - digits.length : Nat) := by omega
    have last : Decimal.natOfDigits ['0'] = 0 := rfl
    rw [Decimal.ofParts, Decimal.value, Decimal.natOfDigits_append, Decimal.natOfDigits_append,
      Decimal.natOfDigits_zeros, List.length_replicate, tens, last, zpow_natCast,
      List.length_singleton, zero_sub, zpow_neg]
    push_cast
    field_simp
    ring

/-- The point stands between the digits. -/
theorem setsOut_between (leads : digits.head? = some '0' → digits = ['0'] ∧ point ≤ 1)
    (some : 0 < point.toNat) (inside : point.toNat < digits.length) :
    SetsOut (digits.take point.toNat ++ '.' :: digits.drop point.toNat) digits point := by
  refine ⟨digits.take point.toNat, digits.drop point.toNat, ?_, ?_⟩
  · refine ⟨rfl, ?_, fun first => ?_, ?_, fun c taken => all c (List.mem_of_mem_take taken),
      fun c left => all c (List.mem_of_mem_drop left)⟩
    · rw [← List.length_pos_iff_ne_nil, List.length_take]
      omega
    · -- A leading zero is the only digit, which no point divides.
      rw [List.head?_take, if_neg some.ne'] at first
      obtain ⟨rfl, most⟩ := leads first
      simp only [List.length_singleton] at inside
      omega
    · rw [← List.length_pos_iff_ne_nil, List.length_drop]
      omega
  · have places : (0 : ℤ) - (digits.length - point.toNat : Nat) = point - digits.length := by
      omega
    simp only [Decimal.ofParts, Decimal.value, List.take_append_drop, List.length_drop, places]

/-- Digits are set out around a point wherever it stands. -/
theorem setsOut_positional (fraction : layout.fraction = true)
    (leads : digits.head? = some '0' → digits = ['0'] ∧ point ≤ 1) :
    SetsOut (layout.positional digits point) digits point := by
  unfold positional
  by_cases small : point ≤ 0
  · rw [if_pos small]
    exact setsOut_below starts all small
  rw [if_neg small]
  by_cases large : digits.length ≤ point.toNat
  · rw [if_pos large, fraction, if_pos rfl]
    exact setsOut_whole starts all leads large
  · rw [if_neg large]
    exact setsOut_between starts all leads (by omega) (Nat.lt_of_not_le large)

end Positional

/-- The sign of an exponent, which a positive one may lack. -/
def exponentSign (layout : FloatLayout) (power : Int) : List Char :=
  if power < 0 then ['-'] else if layout.plusSign then ['+'] else []

/-- An exponent is read with its sign. -/
theorem readExponent?_signed (layout : FloatLayout) (power : Int) :
    readExponent? ('e' :: (exponentSign layout power ++ Nat.toDigits 10 power.natAbs)) =
      some power := by
  -- The digits are those of the size, and the sign is given back to it.
  by_cases below : power < 0
  · have signed : splitSign (exponentSign layout power ++ Nat.toDigits 10 power.natAbs) =
        (true, Nat.toDigits 10 power.natAbs) := by
      rw [exponentSign, if_pos below]
      rfl
    rw [readExponent?_toDigits true power.natAbs signed, if_pos rfl]
    congr 1
    omega
  · have signed : splitSign (exponentSign layout power ++ Nat.toDigits 10 power.natAbs) =
        (false, Nat.toDigits 10 power.natAbs) := by
      rw [exponentSign, if_neg below]
      cases layout.plusSign with
      | true => rfl
      | false => exact splitSign_toDigits _
    rw [readExponent?_toDigits false power.natAbs signed, if_neg Bool.false_ne_true]
    congr 1
    omega

/-- Digits with an exponent are read with their value. -/
theorem read_scientific (power : Int) (starts : digits ≠ [])
    (all : ∀ c ∈ digits, c.isDigit = true) :
    ∃ d, readUnsignedDecimal? (layout.scientific digits power) = some d ∧
      d.value = Decimal.natOfDigits digits * 10 ^ (power + 1 - digits.length) := by
  obtain ⟨c, rest, rfl⟩ := List.exists_cons_of_ne_nil starts
  have first : ∀ d ∈ [c], d.isDigit = true := fun d inside => all d (by simp_all)
  have others : ∀ d ∈ rest, d.isDigit = true := fun d inside => all d (by simp [inside])
  let tail := exponentSign layout power ++ Nat.toDigits 10 power.natAbs
  have ends : NoDigitAhead ('e' :: tail) := by simp [NoDigitAhead]
  have exponent : readExponent? ('e' :: tail) = some power := readExponent?_signed layout power
  -- One digit stands alone, and more of them stand around a point.
  cases rest with
  | nil =>
    refine ⟨Decimal.ofParts [c] [] power, ?_, ?_⟩
    · have shape : layout.scientific [c] power = [c] ++ 'e' :: tail := by
        simp [scientific, tail, exponentSign]
      rw [shape, readUnsignedDecimal?_whole first (by simp) ends, exponent]
      rfl
    · rw [Decimal.ofParts, Decimal.value, List.append_nil]
      simp
  | cons d rest =>
    have around : AroundPoint ([c] ++ '.' :: d :: rest) [c] (d :: rest) :=
      ⟨rfl, by simp, by simp_all, by simp, first, others⟩
    refine ⟨Decimal.ofParts [c] (d :: rest) power, ?_, ?_⟩
    · have shape : layout.scientific (c :: d :: rest) power =
          [c] ++ '.' :: d :: rest ++ 'e' :: tail := by
        simp [scientific, tail, exponentSign]
      rw [shape, around.read ends, exponent]
      rfl
    · have places : power - (d :: rest).length = power + 1 - (c :: d :: rest).length := by
        simp only [List.length_cons]
        omega
      simp only [Decimal.ofParts, Decimal.value, List.singleton_append, places]

/-- A magnitude stands around a point, or in front of an exponent where the layout has any. -/
theorem magnitude_cases (fraction : layout.fraction = true) (d : Decimal) :
    (∃ whole back, AroundPoint (layout.magnitude d) whole back ∧
        (Decimal.ofParts whole back 0).value = d.value) ∨
      layout.exponents = true ∧ d.coefficient ≠ 0 ∧ ∃ power,
        layout.magnitude d = layout.scientific d.digits power ∧
          power + 1 - d.digits.length = d.exponent := by
  have digits : Decimal.natOfDigits d.digits = d.coefficient :=
    Decimal.natOfDigits_toDigits d.coefficient
  have starts : d.digits ≠ [] := Nat.toDigits_ne_nil
  have all : ∀ c ∈ d.digits, c.isDigit = true := fun _ => Decimal.isDigit_of_mem_toDigits
  unfold magnitude
  by_cases zero : d.coefficient = 0
  · -- Zero is one digit in front of the point.
    obtain ⟨whole, back, around, value⟩ : SetsOut (layout.positional ['0'] 1) ['0'] 1 :=
      setsOut_positional (List.cons_ne_nil '0' []) (by simp) fraction fun _ => ⟨rfl, le_rfl⟩
    refine .inl ⟨whole, back, by rwa [if_pos zero], ?_⟩
    have none : Decimal.natOfDigits ['0'] = 0 := rfl
    rw [value, none, Decimal.value, zero, Nat.cast_zero, zero_mul, zero_mul]
  rw [if_neg zero]
  dsimp only
  split
  · rename_i far
    exact .inr ⟨(Bool.and_eq_true_iff.mp far).1, zero, _, rfl, by omega⟩
  · have leads : d.digits.head? = some '0' →
        d.digits = ['0'] ∧ d.exponent + d.digits.length ≤ 1 := by
      intro first
      obtain ⟨c, rest, same, -, leading⟩ := Decimal.toDigits_head d.coefficient
      rw [Decimal.digits, same] at first
      exact absurd (leading (Option.some.inj first)).1 zero
    obtain ⟨whole, back, around, value⟩ := setsOut_positional starts all fraction leads
    refine .inl ⟨whole, back, around, ?_⟩
    rw [value, digits, Decimal.value, add_sub_cancel_right]

/-- A magnitude is read as a decimal of its value. -/
theorem read_magnitude (fraction : layout.fraction = true) (d : Decimal) :
    ∃ found, readUnsignedDecimal? (layout.magnitude d) = some found ∧ found.value = d.value := by
  rcases layout.magnitude_cases fraction d with
    ⟨whole, back, around, value⟩ | ⟨-, -, power, shape, places⟩
  -- There is no exponent behind a magnitude that is set out around its point.
  · have read := around.read noDigitAhead_nil
    rw [List.append_nil] at read
    exact ⟨_, read, value⟩
  · obtain ⟨found, read, value⟩ := layout.read_scientific power
      (Nat.toDigits_ne_nil : d.digits ≠ [])
      fun _ => Decimal.isDigit_of_mem_toDigits
    refine ⟨found, shape ▸ read, ?_⟩
    rw [value, ← Decimal.digits, places, Decimal.value, Decimal.digits,
      Decimal.natOfDigits_toDigits]

/-- The sign of a number stands in front of its magnitude. -/
theorem splitSign_render (layout : FloatLayout) (x : Binary64) :
    splitSign (layout.render x) = (x.negative, layout.magnitude (x.shortest layout.ties)) := by
  obtain ⟨c, rest, same, digit⟩ := layout.magnitude_head (x.shortest layout.ties)
  rw [render, same]
  cases x.negative with
  | true => rfl
  | false =>
    rw [if_neg Bool.false_ne_true, List.nil_append, splitSign]
    all_goals
      rintro tail split
      obtain ⟨rfl, -⟩ := List.cons.inj split
      cases digit

/-- The text of a number is read as that number. -/
theorem read?_render (fraction : layout.fraction = true) (x : Binary64) :
    Real64.read? (layout.render x) = some (.finite x) := by
  obtain ⟨found, read, value⟩ := layout.read_magnitude fraction (x.shortest layout.ties)
  obtain ⟨c, rest, same, digit⟩ := layout.magnitude_head (x.shortest layout.ties)
  -- No name of a number starts with a digit, which has no other case.
  have lower : c.toLower = c := Char.toLower_eq_of_not_isUpper (not_isUpper_of_isDigit digit)
  have unnamed (name : String) (letter : name.toList.head?.any Char.isDigit = false) :
      (c :: rest).map Char.toLower ≠ name.toList := by
    intro spelled
    rw [← spelled, List.map_cons, lower] at letter
    simp [digit] at letter
  rw [Real64.read?, splitSign_render]
  dsimp only
  rw [same] at read ⊢
  rw [if_neg (not_or.mpr ⟨unnamed "inf" (by decide), unnamed "infinity" (by decide)⟩),
    if_neg (unnamed "nan" (by decide)), read, Option.map_some, Decimal.toReal_of_value value]

end FloatLayout

end SyncStore
