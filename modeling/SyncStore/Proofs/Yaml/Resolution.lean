import SyncStore.Proofs.OrderedMap
import SyncStore.Proofs.Yaml.Nodes
import SyncStore.Yaml.Reader

/-! The node of a value stands for that value again. -/

namespace SyncStore.Yaml

/-! Plain text stands for the scalar that it was written for. -/

/-- A float reads back when its text is that of the same float. -/
def ReadsBack (x : Binary64) : Prop :=
  Plain.ofText (String.ofList (floats.render x)) = .float (.finite x)

/-- Decimal digits are hexadecimal digits of the same value. -/
theorem hexValue?_of_isDigit {c : Char} (digit : c.isDigit = true) :
    Json.hexValue? c = some (Decimal.digitValue c) := by
  rw [Json.hexValue?, if_pos digit]
  rfl

/-- The digits of a number are read as it. -/
theorem natural?_toDigits (n : Nat) : natural? 10 (Nat.toDigits 10 n) = some n := by
  have digits : ∀ c ∈ Nat.toDigits 10 n, c.isDigit = true :=
    fun _ => Decimal.isDigit_of_mem_toDigits
  have all : (Nat.toDigits 10 n).all (isDigitOf 10) = true := by
    refine List.all_eq_true.mpr fun c inside => ?_
    rw [isDigitOf, hexValue?_of_isDigit (digits c inside)]
    simpa using Decimal.digitValue_lt (digits c inside)
  -- Each digit counts for as much as in a decimal number.
  have folded (start : Nat) (text : List Char) (each : ∀ c ∈ text, c.isDigit = true) :
      text.foldl (fun n c => 10 * n + (Json.hexValue? c).getD 0) start =
        text.foldl (fun value c => 10 * value + Decimal.digitValue c) start := by
    induction text generalizing start with
    | nil => rfl
    | cons c text ih =>
      rw [List.foldl_cons, List.foldl_cons, hexValue?_of_isDigit (each c List.mem_cons_self)]
      exact ih _ fun d inside => each d (List.mem_cons_of_mem _ inside)
  have value := Decimal.natOfDigits_toDigits n
  have filled : (Nat.toDigits 10 n).isEmpty = false :=
    List.isEmpty_eq_false_iff.mpr Nat.toDigits_ne_nil
  rw [Decimal.natOfDigits] at value
  rw [natural?, filled, all, folded 0 _ digits, value]
  rfl

/-- Digits without a sign are read as their number. -/
theorem unsigned?_toDigits (n : Nat) : unsigned? (Nat.toDigits 10 n) = some n := by
  have value := natural?_toDigits n
  obtain ⟨c, rest, same, digit, zero⟩ := Decimal.toDigits_head n
  have noSign : splitSign (c :: rest) = (false, c :: rest) := by
    rw [splitSign]
    · exact fun _ same => ne_of_isDigit digit (by decide) (List.cons.inj same).1
    · exact fun _ same => ne_of_isDigit digit (by decide) (List.cons.inj same).1
  -- Only the number zero starts with a zero, which then stands alone.
  have unpadded : isPadded (c :: rest) = false := by
    rw [isPadded, noSign]
    by_cases leads : c = '0'
    · rw [(zero leads).2]
      subst leads
      rfl
    · simp [leads]
  rw [same] at value ⊢
  rw [unsigned?]
  · rw [unpadded, value]
    rfl
  -- A number of another base would go on behind its zero.
  all_goals
    rintro tail split
    obtain ⟨rfl, rfl⟩ := List.cons.inj split
    cases (zero rfl).2

/-- The text of an integer is read as it. -/
theorem integer?_render (n : WordInt) : integer? n.render = some n.val := by
  have lower := n.lower
  have upper := n.upper
  have value := unsigned?_toDigits n.val.natAbs
  unfold WordInt.render
  split
  · -- Behind a minus the digits are those of the opposite number.
    have fits : n.val.natAbs ≤ 2 ^ (widestBits - 1) := by
      have bound : (2 ^ 63 : Nat) ≤ 2 ^ (widestBits - 1) := by decide
      omega
    have negated : -(n.val.natAbs : Int) = n.val := by omega
    rw [List.singleton_append, integer?, value]
    simp only [fits, ↓reduceIte, negated]
  · -- Otherwise the first digit is no sign.
    have fits : n.val.natAbs < 2 ^ widestBits := by
      have bound : (2 ^ 64 : Nat) ≤ 2 ^ widestBits := by decide
      omega
    have whole : (n.val.natAbs : Int) = n.val := by omega
    obtain ⟨c, rest, same, digit, -⟩ := Decimal.toDigits_head n.val.natAbs
    rw [same] at value
    rw [List.nil_append, same, integer?]
    · rw [value, Option.bind_some, if_pos fits, whole]
    · exact fun _ same => ne_of_isDigit digit (by decide) (List.cons.inj same).1
    · exact fun _ same => ne_of_isDigit digit (by decide) (List.cons.inj same).1

/-- A number is spelled like no word. -/
theorem contains_number {text : List Char} (starts : StartsNumber text) {words : List String}
    (letters : ∀ word ∈ words,
      word.toList.head?.any (fun c => c = '-' || c.isDigit) = false) :
    words.contains (String.ofList text) = false := by
  obtain ⟨c, rest, rfl, first⟩ := starts
  by_contra inside
  have letter := letters _ (by simpa using inside)
  rcases first with rfl | digit
  · simp at letter
  · simp [digit] at letter

/-- The text of an integer stands for it. -/
theorem ofText_integer (n : WordInt) : Plain.ofText (String.ofList n.render) = .integer n.val := by
  have starts := n.render_starts
  have filled : (String.ofList n.render).isEmpty = false := by
    obtain ⟨c, rest, same, -⟩ := starts
    simp [same]
  -- No spelling of a missing value or of a truth value starts like a number.
  have null : isNull (String.ofList n.render) = false := contains_number starts (by decide +kernel)
  have boolean : boolean? (String.ofList n.render) = none := by
    rw [boolean?, contains_number starts (by decide +kernel),
      contains_number starts (by decide +kernel)]
    rfl
  rw [Plain.ofText, filled, null, boolean, String.toList_ofList, integer?_render]
  rfl

/-- Text that nothing takes for another value stands for itself. -/
theorem ofText_untyped {s : String} (typed : looksTyped s = false) : Plain.ofText s = .text := by
  simp only [looksTyped, Bool.or_eq_false_iff] at typed
  have stands := typed.2
  split at stands
  · assumption
  · cases stands

/-- What a scalar was written as stands for it. -/
theorem scalarValue?_text {value : Value} {found : Bool × String}
    (scalar : scalarText? value = some found) (back : value.FloatSatisfies ReadsBack) :
    scalarValue? none found.1 found.2 = some value := by
  cases value with
  | null =>
    obtain rfl := Option.some.inj scalar
    rfl
  | bool b =>
    obtain rfl := Option.some.inj scalar
    cases b <;> rfl
  | number n =>
    cases n with
    | int n =>
      obtain rfl := Option.some.inj scalar
      have word : WordInt.ofInt? n.val = some n := by
        rw [WordInt.ofInt?, dif_pos ⟨n.lower, n.upper⟩]
      rw [scalarValue?]
      simp only [↓reduceIte, ofText_integer, Plain.value?, word, Option.map_some]
    | float x =>
      obtain rfl := Option.some.inj scalar
      have same : Plain.ofText (String.ofList (floats.render x)) = .float (.finite x) := back
      rw [scalarValue?]
      simp only [↓reduceIte, same, Plain.value?]
  | string s =>
    obtain rfl := Option.some.inj scalar
    rcases styleOf_cases s with ⟨style, typed, -⟩ | ⟨style, -⟩ | style | ⟨style, -⟩
    -- Only plain text could be taken for another value.
    · simp only [scalarValue?, style, decide_true, ↓reduceIte, ofText_untyped typed, Plain.value?]
    -- Quoted text and blocks stand for themselves.
    all_goals simp [scalarValue?, style]
  | array items => cases scalar
  | object members => cases scalar

end SyncStore.Yaml
