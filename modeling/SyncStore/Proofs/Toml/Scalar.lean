import SyncStore.Proofs.Decimal.Digits
import SyncStore.Proofs.Toml.Quoted

/-! Numbers and booleans read back in front of what ends a value. -/

namespace SyncStore.Toml

/-- A float reads back when its text is that of the same float. -/
def ReadsBack (x : Binary64) : Prop := unquoted? (floats.render x) = some (.float (.finite x))

/-- A value ends at a line end, at a comma, or at the closing of what it stands in. -/
def EndsValue (rest : List Char) : Prop :=
  ∃ tail, rest = '\n' :: tail ∨ rest = ',' :: tail ∨ rest = ']' :: tail ∨
    rest = ' ' :: '\x7d' :: tail

/-- No quote ends a value. -/
theorem EndsValue.noQuoteAhead {rest : List Char} (ends : EndsValue rest) : NoQuoteAhead rest := by
  obtain ⟨tail, rfl | rfl | rfl | rfl⟩ := ends <;> exact ⟨by simp, by simp⟩

/-- The characters of a number end no value. -/
theorem endsScalar_of_isNumeric {c : Char} (numeric : isNumeric c = true) :
    endsScalar c = false := by
  by_cases ends : endsScalar c = true
  · have stops : " \t\r\n#,[]\x7b\x7d=\"'".toList.all (!isNumeric ·) = true := by decide
    -- None of the characters that end a value stands in a number.
    have off := List.all_eq_true.mp stops c (List.contains_iff_mem.mp ends)
    rw [numeric] at off
    cases off
  · simpa using ends

/-- A word is taken off the front of what ends it. -/
theorem scalarText_append {word : List Char} (solid : ∀ c ∈ word, endsScalar c = false)
    {rest : List Char} (ends : EndsValue rest) : scalarText (word ++ rest) = (word, rest) := by
  -- The word goes as far as nothing ends it, and what ends it is left.
  have taken : (word ++ rest).takeWhile (!endsScalar ·) = word := by
    rw [List.takeWhile_append_of_pos (by simpa using solid)]
    obtain ⟨tail, rfl | rfl | rfl | rfl⟩ := ends <;>
      rw [List.takeWhile_cons_of_neg (by decide), List.append_nil]
  have left : (word ++ rest).dropWhile (!endsScalar ·) = rest := by
    rw [List.dropWhile_append_of_pos (by simpa using solid)]
    obtain ⟨tail, rfl | rfl | rfl | rfl⟩ := ends <;> rw [List.dropWhile_cons_of_neg (by decide)]
  simp only [scalarText, taken, left]
  -- Only the blank in front of a brace could be taken for that in front of a time.
  obtain ⟨tail, rfl | rfl | rfl | rfl⟩ := ends
  · rfl
  · rfl
  · rfl
  · simp

/-- A word spells a value when it is read as that value and no character of it ends a value. -/
structure Spells (word : List Char) (value : Inline) : Prop where
  is : unquoted? word = some value
  solid : ∀ c ∈ word, endsScalar c = false

/-- A word is solid when a look at all its characters finds none that ends a value. -/
theorem solid_of_all {word : List Char} (all : word.all (!endsScalar ·) = true) :
    ∀ c ∈ word, endsScalar c = false := by
  simpa using all

/-- A word that spells a value is read in front of what ends it. -/
theorem Spells.read {word : List Char} {value : Inline} (spells : Spells word value)
    {rest : List Char} (ends : EndsValue rest) :
    readUnquoted (word ++ rest) = some (value, rest) := by
  -- The word ends where the value does, and it spells that value.
  rw [readUnquoted, scalarText_append spells.solid ends]
  simp only [spells.is, Option.map_some]

/-- Digits have no underscores between them. -/
theorem ungrouped?_digits {digits : List Char} (starts : digits ≠ [])
    (all : ∀ c ∈ digits, c.isDigit = true) : ungrouped? Char.isDigit digits = some digits := by
  have together : digits.splitOn '_' = [digits] :=
    List.splitOn_eq_singleton fun member => by cases all _ member
  simp only [ungrouped?, together]
  rw [if_pos]
  · simp
  · simpa [starts] using all

/-- A digit marks no exponent. -/
theorem marksExponent_of_isDigit {c : Char} (digit : c.isDigit = true) :
    marksExponent c = false := by
  simp only [marksExponent, Bool.or_eq_false_iff, decide_eq_false_iff_not]
  constructor <;> rintro rfl <;> cases digit

/-- Digits alone are those of a whole number. -/
theorem number?_toDigits (negative : Bool) (n : Nat) :
    number? negative (Nat.toDigits 10 n) = integer? negative n := by
  have digits : ∀ c ∈ Nat.toDigits 10 n, c.isDigit = true :=
    fun _ => Decimal.isDigit_of_mem_toDigits
  -- Digits are neither a point nor the mark of an exponent.
  have noPoint : (Nat.toDigits 10 n).any (fun c => c = '.' || marksExponent c) = false := by
    rw [List.any_eq_false]
    intro c member
    have digit := digits c member
    rw [marksExponent_of_isDigit digit, Bool.or_false, decide_eq_true_eq]
    rintro rfl
    cases digit
  obtain ⟨c, rest, same, _, zero⟩ := Decimal.toDigits_head n
  -- Only the number zero starts with a zero, so no leading zero is refused.
  have whole : wholeDigits? (Nat.toDigits 10 n) = some (Nat.toDigits 10 n) := by
    have noZero : ((Nat.toDigits 10 n).head? = some '0' && (Nat.toDigits 10 n).length ≠ 1) =
        false := by
      rw [same]
      by_cases leads : c = '0'
      · simp [(zero leads).2]
      · simp [leads]
    rw [wholeDigits?, noZero, ungrouped?_digits Nat.toDigits_ne_nil digits]
    rfl
  rw [number?, noPoint, whole]
  simp [Decimal.natOfDigits_toDigits]

/-- A text that starts with a digit, and goes on with digits, is a number. -/
theorem unquoted?_toDigits (n : Nat) :
    unquoted? (Nat.toDigits 10 n) = number? false (Nat.toDigits 10 n) := by
  have digits : ∀ c ∈ Nat.toDigits 10 n, c.isDigit = true :=
    fun _ => Decimal.isDigit_of_mem_toDigits
  -- Nothing follows the digits, so they start neither a date nor a time.
  have noDatetime : isDatetime (Nat.toDigits 10 n) = false := by
    rw [isDatetime, ← List.append_nil (Nat.toDigits 10 n), List.dropWhile_append_of_pos digits,
      List.dropWhile_nil]
  obtain ⟨c, rest, same, digit, zero⟩ := Decimal.toDigits_head n
  rw [same] at noDatetime ⊢
  -- A zero stands alone, and no digit is a sign or a letter.
  have other : ∀ letter, letter.isDigit = false → c ≠ letter := fun _ => ne_of_isDigit digit
  have noSign : splitSign (c :: rest) = (false, c :: rest) := by
    rw [splitSign]
    · exact fun _ same => other '-' rfl (List.cons.inj same).1
    · exact fun _ same => other '+' rfl (List.cons.inj same).1
  rw [unquoted?]
  · simp [noSign, noDatetime, digit, other 't' rfl, other 'f' rfl, other 'i' rfl, other 'n' rfl]
  -- The letter of a base would stand behind a zero, which stands alone.
  all_goals
    rintro tail same
    obtain ⟨rfl, rfl⟩ := List.cons.inj same
    cases (zero rfl).2

/-- Digits under a minus sign are a negative number. -/
theorem unquoted?_minus_toDigits (n : Nat) :
    unquoted? ('-' :: Nat.toDigits 10 n) = number? true (Nat.toDigits 10 n) := by
  obtain ⟨c, rest, same, digit, zero⟩ := Decimal.toDigits_head n
  rw [same]
  -- Behind the sign comes a digit and no name of a number.
  have other : ∀ letter, letter.isDigit = false → c ≠ letter := fun _ => ne_of_isDigit digit
  rw [unquoted?]
  · simp [splitSign, digit, other 'i' rfl, other 'n' rfl]
  -- A sign is not the zero in front of a base.
  all_goals exact fun tail same => by cases (List.cons.inj same).1

/-- A written integer is that integer. -/
theorem unquoted?_integer (n : SignedInt) : unquoted? n.toWord.render = some (.integer n) := by
  have lower := n.lower
  have upper := n.upper
  -- The number is a signed word, so it is not refused.
  have fits : SignedInt.ofInt? n.val = some n := by rw [SignedInt.ofInt?, dif_pos ⟨lower, upper⟩]
  unfold WordInt.render
  by_cases below : n.toWord.val < 0
  · -- A negative number is minus its magnitude.
    have value : -(n.toWord.val.natAbs : Int) = n.val := by
      change n.val < 0 at below
      change -(n.val.natAbs : Int) = n.val
      omega
    rw [if_pos below, List.singleton_append, unquoted?_minus_toDigits, number?_toDigits, integer?,
      if_pos rfl, value, fits, Option.map_some]
  · -- Any other number is its magnitude.
    have value : (n.toWord.val.natAbs : Int) = n.val := by
      change ¬n.val < 0 at below
      change (n.val.natAbs : Int) = n.val
      omega
    rw [if_neg below, List.nil_append, unquoted?_toDigits, number?_toDigits, integer?,
      if_neg (by simp), value, fits, Option.map_some]

/-- A written integer spells that integer. -/
theorem spells_integer (n : SignedInt) : Spells n.toWord.render (.integer n) :=
  ⟨unquoted?_integer n, fun c member => endsScalar_of_isNumeric (n.toWord.render_numeric c member)⟩

/-- A written float that reads back spells that float. -/
theorem spells_float {x : Binary64} (back : ReadsBack x) :
    Spells (renderFloat (.finite x)) (.float (.finite x)) :=
  ⟨back, fun c member => endsScalar_of_isNumeric (floats.render_numeric x c member)⟩

/-- A written boolean spells that boolean. -/
theorem spells_boolean (b : Bool) : Spells (renderInline (.boolean b)) (.boolean b) := by
  cases b with
  | true => exact ⟨rfl, solid_of_all rfl⟩
  | false => exact ⟨rfl, solid_of_all rfl⟩

end SyncStore.Toml
