import Mathlib.Data.Nat.Digits.Defs
import SyncStore.Proofs.Yaml.Plain

/-! Strings are read back from between single and between double quotes. -/

namespace SyncStore.Yaml

/-! The escapes of double quotes are undone one by one. -/

/-- The value of hexadecimal digits. -/
def codeOf (digits : List Char) : Nat :=
  (digits.filterMap Json.hexValue?).foldl (fun code digit => code * 16 + digit) 0

/-- One more digit makes the code sixteen times as large. -/
theorem codeOf_concat {digits : List Char} {c : Char} {n : Nat}
    (digit : Json.hexValue? c = some n) :
    codeOf (digits ++ [c]) = codeOf digits * 16 + n := by
  simp [codeOf, List.filterMap_append, digit]

/-- Every digit below sixteen is read in upper case. -/
theorem hexValue?_digitChar {n : Nat} (small : n < 16) :
    Json.hexValue? (Nat.digitChar n).toUpper = some n := by
  -- Sixteen digits, each of them looked at.
  have all : ∀ n < 16, Json.hexValue? (Nat.digitChar n).toUpper = some n := by decide
  exact all n small

/-- The digits of a number in upper case are its code, and each of them has a value. -/
theorem codeOf_toDigits (n : Nat) :
    codeOf ((Nat.toDigits 16 n).map Char.toUpper) = n ∧
      ∀ c ∈ (Nat.toDigits 16 n).map Char.toUpper, (Json.hexValue? c).isSome := by
  -- The induction is on the number, whose digits are those of its sixteenth part and one more.
  induction n using Nat.strongRecOn with
  | ind n ih =>
    by_cases small : n < 16
    · rw [Nat.toDigits_of_lt_base small]
      have digit := hexValue?_digitChar small
      simp [codeOf, digit]
    · obtain ⟨code, valued⟩ := ih (n / 16) (by omega)
      have digit := hexValue?_digitChar (Nat.mod_lt n (by decide : 0 < 16))
      rw [Nat.toDigits_of_base_le (by decide) (by omega), List.map_append, List.map_singleton,
        codeOf_concat digit, code]
      refine ⟨by omega, fun c inside => ?_⟩
      rcases List.mem_append.mp inside with inside | inside
      · exact valued c inside
      · rw [List.mem_singleton.mp inside, digit]
        rfl

/-- Zeros in front of digits change no code. -/
theorem codeOf_zeros (count : Nat) (digits : List Char) :
    codeOf (List.replicate count '0' ++ digits) = codeOf digits := by
  induction count with
  | zero => rfl
  | succ count ih =>
    have zero : Json.hexValue? '0' = some 0 := rfl
    rw [List.replicate_succ, List.cons_append, codeOf, List.filterMap_cons, zero, List.foldl_cons]
    exact ih

/-- No character has a code that eight digits are too few for. -/
theorem toNat_lt (c : Char) : c.toNat < 16 ^ 8 := by
  have valid : c.toNat < 0xD800 ∨ 0xDFFF < c.toNat ∧ c.toNat < 0x110000 := c.valid
  omega

/-- A code is read from exactly as many digits as it was filled up to. -/
theorem codePoint?_codeDigits {c : Char} {width : Nat} (positive : 0 < width)
    (fits : c.toNat < 16 ^ width) (rest : List Char) :
    codePoint? width (codeDigits width c.toNat ++ rest) = some c ∧
      (codeDigits width c.toNat).length = width := by
  obtain ⟨code, valued⟩ := codeOf_toDigits c.toNat
  have short := Nat.toDigits_length 16 c.toNat width positive fits
  have length : (codeDigits width c.toNat).length = width := by
    rw [codeDigits, List.length_append, List.length_replicate, List.length_map]
    omega
  refine ⟨?_, length⟩
  have taken : (codeDigits width c.toNat ++ rest).take width = codeDigits width c.toNat := by
    exact List.take_left' length
  have all : ∀ d ∈ codeDigits width c.toNat, (Json.hexValue? d).isSome := by
    intro d inside
    rcases List.mem_append.mp inside with inside | inside
    · rw [List.eq_of_mem_replicate inside]
      rfl
    · exact valued d inside
  -- All of the digits count, so none of them ends the code early.
  have counted : ((codeDigits width c.toNat).filterMap Json.hexValue?).length = width := by
    rw [List.length_filterMap_eq_countP, List.countP_eq_length.mpr all, length]
  have same : ((codeDigits width c.toNat).filterMap Json.hexValue?).foldl
      (fun code digit => code * 16 + digit) 0 = c.toNat := by
    have zeros := codeOf_zeros (width - ((Nat.toDigits 16 c.toNat).map Char.toUpper).length)
      ((Nat.toDigits 16 c.toNat).map Char.toUpper)
    rw [code] at zeros
    exact zeros
  rw [codePoint?, taken]
  simp only [counted, same, decide_true, Bool.true_and]
  -- The code is that of a character, so it is no surrogate and not too large.
  have valid : c.toNat < 0xD800 ∨ 0xDFFF < c.toNat ∧ c.toNat < 0x110000 := c.valid
  rw [if_pos, Char.ofNat_toNat]
  simp only [Bool.or_eq_true, Bool.and_eq_true, decide_eq_true_eq]
  omega

/-- A code is read behind the letter that tells its width. -/
theorem escaped?_code {c letter : Char} {width : Nat} (other : shortEscaped? letter = none)
    (length : codeLength? letter = some width) (positive : 0 < width)
    (fits : c.toNat < 16 ^ width) (rest : List Char) :
    escaped? ((letter :: codeDigits width c.toNat) ++ rest) =
      some (c, (letter :: codeDigits width c.toNat).length) := by
  obtain ⟨read, count⟩ := codePoint?_codeDigits positive fits rest
  rw [List.cons_append, escaped?, other, length]
  simp only [read, Option.map_some, List.length_cons, count]

/-- The letter and the width of each kind of code, with the least code that is spelled by it. -/
def codes : List (Char × Nat × Nat) := [('x', 2, 0), ('u', 4, 0x100), ('U', 8, 0x10000)]

/-- A character is escaped by one letter or by its code, or it stands for itself. -/
inductive Escapes (c : Char) : List Char → Prop where
  | short {letter : Char} (found : shortEscape? c = some letter) : Escapes c ['\\', letter]
  | itself (other : shortEscape? c = none) (printable : isPrintable c = true) : Escapes c [c]
  | code {letter : Char} {width least : Nat} (one : (letter, width, least) ∈ codes)
    (wide : least ≤ c.toNat) (fits : c.toNat < 16 ^ width) :
    Escapes c ('\\' :: letter :: codeDigits width c.toNat)

/-- An escape is of one of these kinds. -/
theorem escapes_escape (c : Char) : Escapes c (escape c) := by
  unfold escape
  cases short : shortEscape? c with
  | some letter => exact .short short
  | none =>
    dsimp only
    by_cases printable : isPrintable c = true
    · rw [if_pos printable]
      exact .itself short printable
    · rw [if_neg printable]
      -- The code is as narrow as it can be.
      split
      · exact @Escapes.code c 'x' 2 0 (by decide) (Nat.zero_le _) (by omega)
      split
      · exact @Escapes.code c 'u' 4 0x100 (by decide) (by omega) (by omega)
      · exact @Escapes.code c 'U' 8 0x10000 (by decide) (by omega) (toNat_lt c)

/-- The letter of a short escape is a printed one that is read as the character. -/
theorem shortEscape?_letter {c letter : Char} (found : shortEscape? c = some letter) :
    shortEscaped? letter = some c ∧ isPrintable letter = true ∧ isBreak letter = false := by
  unfold shortEscape? at found
  split at found <;> cases found <;> decide

/-- The letter of a code is a printed one that tells the width of the code. -/
theorem codes_letter {letter : Char} {width least : Nat} (one : (letter, width, least) ∈ codes) :
    shortEscaped? letter = none ∧ codeLength? letter = some width ∧ 0 < width ∧
      isPrintable letter = true ∧ isBreak letter = false := by
  simp only [codes, List.mem_cons, Prod.mk.injEq, List.not_mem_nil, or_false] at one
  rcases one with ⟨rfl, rfl, -⟩ | ⟨rfl, rfl, -⟩ | ⟨rfl, rfl, -⟩ <;> decide

/-- No line breaks at a hexadecimal digit. -/
theorem isBreak_of_hexValue? {c : Char} (valued : (Json.hexValue? c).isSome) :
    isBreak c = false := by
  by_contra breaks
  simp only [isBreak, Bool.not_eq_false, Bool.or_eq_true, decide_eq_true_eq] at breaks
  rcases breaks with (((rfl | rfl) | rfl) | rfl) | rfl <;> cases valued

/-- No line breaks in a code. -/
theorem isBreak_codeDigits {width code : Nat} {c : Char} (inside : c ∈ codeDigits width code) :
    isBreak c = false := by
  rcases List.mem_append.mp inside with zero | digit
  · rw [List.eq_of_mem_replicate zero]
    decide
  · exact isBreak_of_hexValue? ((codeOf_toDigits code).2 c digit)

/-- No line breaks in an escape. -/
theorem Escapes.unbroken {c : Char} {letters : List Char} (spelled : Escapes c letters) :
    ∀ d ∈ letters, isBreak d = false := by
  cases spelled with
  | short found =>
    exact List.forall_mem_cons.mpr ⟨by decide, by simpa using (shortEscape?_letter found).2.2⟩
  | itself other printable =>
    have unbroken : isBreak c = false := by
      by_contra breaks
      -- The breaks that could be printed all have short escapes.
      rcases (isBreak_of_printable printable).mp (by simpa using breaks) with rfl | rfl | rfl <;>
        cases other
    simpa using unbroken
  | code one =>
    exact List.forall_mem_cons.mpr ⟨by decide,
      List.forall_mem_cons.mpr ⟨(codes_letter one).2.2.2.2, fun _ => isBreak_codeDigits⟩⟩

/-- An escape is read as the character it stands for. -/
theorem Escapes.read {c : Char} {letters : List Char} (spelled : Escapes c ('\\' :: letters))
    (rest : List Char) : escaped? (letters ++ rest) = some (c, letters.length) := by
  cases spelled with
  | short found =>
    rw [List.cons_append, escaped?, (shortEscape?_letter found).1]
    rfl
  -- A backslash does not stand for itself.
  | itself other => cases other
  | code one wide fits =>
    obtain ⟨other, length, positive, -⟩ := codes_letter one
    exact escaped?_code other length positive fits rest

/-- A character is written behind a backslash, or stands for itself. -/
theorem escape_cases (c : Char) :
    (∃ letters, escape c = '\\' :: letters) ∨
      escape c = [c] ∧ isPrintable c = true ∧ c ≠ '"' ∧ c ≠ '\\' := by
  have spelled := escapes_escape c
  generalize escape c = letters at spelled ⊢
  cases spelled with
  | short => exact .inl ⟨_, rfl⟩
  | code => exact .inl ⟨_, rfl⟩
  | itself other printable =>
    refine .inr ⟨rfl, printable, ?_, ?_⟩
    · rintro rfl
      cases other
    · rintro rfl
      cases other

/-- An escaped character other than a space is read in a run. -/
theorem doubleRun_escape {c : Char} (letter : c ≠ ' ') (rest : List Char) :
    doubleRun (escape c ++ rest) =
      (doubleRun rest).map fun run => run.push c (escape c).length := by
  have unbroken := (escapes_escape c).unbroken
  rcases escape_cases c with ⟨letters, split⟩ | ⟨split, printable, quote, slash⟩
  · -- What follows the backslash is no break, which would join two lines.
    have spelled : Escapes c ('\\' :: letters) := split ▸ escapes_escape c
    have read := spelled.read rest
    have filled : letters ≠ [] := by
      rintro rfl
      cases spelled.read []
    obtain ⟨d, letters, rfl⟩ := List.exists_cons_of_ne_nil filled
    have next := unbroken d (by simp [split])
    rw [split, List.cons_append, doubleRun]
    simp only [List.cons_append] at read ⊢
    simp only [List.head?_cons, Option.any_some, next, Bool.false_eq_true, ↓reduceIte, read]
    rw [← List.cons_append, List.drop_left' rfl]
    simp
  · have gap := isGap_of_printable printable letter (unbroken c (by simp [split]))
    rw [split, List.singleton_append, doubleRun]
    · rw [if_neg (by simp [gap])]
      rfl
    · exact quote
    · exact slash

/-- Escaped letters are read up to a gap or a quote. -/
theorem doubleRun_flatMap {word : List Char} (letters : ∀ c ∈ word, c ≠ ' ') {rest : List Char}
    {stop : RunEnd} (stops : doubleRun rest = some ⟨[], stop, 0⟩) :
    doubleRun (word.flatMap escape ++ rest) =
      some ⟨word, stop, (word.flatMap escape).length⟩ := by
  induction word with
  | nil => exact stops
  | cons c word ih =>
    rw [List.flatMap_cons, List.append_assoc, doubleRun_escape (letters c List.mem_cons_self),
      ih fun d inside => letters d (List.mem_cons_of_mem _ inside)]
    simp [Run.push, Nat.add_comm]

/-! The letters between single quotes are read with their doubled quotes. -/

/-- A letter between single quotes. -/
def singleLetter (c : Char) : List Char := if c = '\'' then ['\'', '\''] else [c]

/-- Letters between single quotes are read up to a gap or a quote. -/
theorem singleRun_flatMap {word : List Char} (letters : ∀ c ∈ word, isGap c = false)
    {rest : List Char} {stop : RunEnd} (stops : singleRun rest = ⟨[], stop, 0⟩) :
    singleRun (word.flatMap singleLetter ++ rest) =
      ⟨word, stop, (word.flatMap singleLetter).length⟩ := by
  induction word with
  | nil => exact stops
  | cons c word ih =>
    have later := ih fun d inside => letters d (List.mem_cons_of_mem _ inside)
    have gap := letters c List.mem_cons_self
    rw [List.flatMap_cons, List.append_assoc]
    -- A quote is spelled by two, and every other letter by itself.
    by_cases quote : c = '\''
    · subst quote
      rw [singleLetter, if_pos rfl, List.cons_append, List.cons_append, List.nil_append, singleRun,
        later]
      rw [Run.push, List.length_append]
      exact congrArg (Run.mk _ stop) (Nat.add_comm _ 2)
    · rw [singleLetter, if_neg quote, List.singleton_append, singleRun]
      · rw [if_neg (by simp [gap]), later]
        simp [Run.push, Nat.add_comm]
      · simp [quote]
      · simp [quote]

/-! Words and the gaps between them are read up to the closing quote. -/

/-- The quote at either end of a string. -/
def quoteMark (isSingle : Bool) : Char := if isSingle then '\'' else '"'

variable {isSingle : Bool} {steps : Nat} {place : Place} {spelled word rest : List Char}

/-- Behind the last word stands the closing quote. -/
theorem readQuoted_close (inside : place.column ≠ 0)
    (run : quotedRun isSingle (spelled ++ quoteMark isSingle :: rest) =
      some ⟨word, .quote, spelled.length⟩) :
    readQuoted isSingle (steps + 1) ⟨spelled ++ quoteMark isSingle :: rest, place⟩ =
      some (word, ⟨rest, place.along (spelled.length + 1)⟩) := by
  rw [readQuoted]
  simp only [Cursor.isAtMarker, inside, decide_false, Bool.false_and, Bool.false_or, run]
  simp [quoteMark, Cursor.skip, Place.along_along]

/-- Behind every other word a gap is read, and the string goes on behind it. -/
theorem readQuoted_gap (inside : place.column ≠ 0)
    (unclosed : rest.head? ≠ some (quoteMark isSingle))
    (nonempty : rest ≠ [])
    (run : quotedRun isSingle (spelled ++ rest) = some ⟨word, .gap, spelled.length⟩) {gap : Gap}
    (passed : readGap 0 false rest (place.along spelled.length) = some gap) :
    readQuoted isSingle (steps + 1) ⟨spelled ++ rest, place⟩ =
      (readQuoted isSingle steps gap.cursor).map fun (found, cursor) =>
        (word ++ gap.joined ++ found, cursor) := by
  have filled : (spelled ++ rest).isEmpty = false := by simp [nonempty]
  have behind : Cursor.skip ⟨spelled ++ rest, place⟩ spelled.length =
      ⟨rest, place.along spelled.length⟩ := by simp [Cursor.skip]
  rw [readQuoted]
  simp only [Cursor.isAtMarker, inside, decide_false, Bool.false_and, Bool.false_or, filled,
    Bool.false_eq_true, ↓reduceIte, run, behind, reduceCtorEq, passed]
  exact if_neg unclosed

/-- Spaces are read as they are in front of a word. -/
theorem joined_spaces (count : Nat) {text : List Char} (word : AtWord text) (place : Place) :
    ∃ gap, readGap 0 false (spaces count ++ text) place = some gap ∧ gap.joined = spaces count ∧
      gap.cursor = ⟨text, place.along count⟩ :=
  ⟨_, readGap_spaces 0 false count word place, rfl, by rw [Place.past_spaces]⟩

/-- Text that starts with a space goes on with a word behind its spaces. -/
theorem exists_gap (text : List Char) : ∃ count tail, ' ' :: text = spaces (count + 1) ++ tail ∧
    tail.length ≤ text.length ∧ tail.head? ≠ some ' ' := by
  obtain ⟨front, tail, rfl, all, stops⟩ := exists_front (fun c => decide (c = ' ')) text
  have same : front = spaces front.length :=
    List.eq_replicate_of_mem fun c inside => of_decide_eq_true (all c inside)
  refine ⟨front.length, tail, ?_, by simp, fun space => ?_⟩
  · rw [← List.cons_append, spaces, List.replicate_succ, ← spaces, ← same]
  · exact absurd rfl (of_decide_eq_false (stops ' ' space))

/-- Spaces that stand for themselves are spelled as they are. -/
theorem flatMap_spaces {spell : Char → List Char} (plain : spell ' ' = [' ']) (count : Nat) :
    (spaces count).flatMap spell = spaces count := by
  induction count with
  | zero => rfl
  | succ count ih =>
    rw [spaces, List.replicate_succ, List.flatMap_cons, plain, ← spaces, ih]
    rfl

/-- Escaped text starts with no gap, unless it starts with a space. -/
theorem atWord_escape {text : List Char} (starts : text.head? ≠ some ' ') (rest : List Char) :
    AtWord (text.flatMap escape ++ '"' :: rest) := by
  intro c first
  cases text with
  | nil =>
    obtain rfl := Option.some.inj first
    decide
  | cons d text =>
    have letter : d ≠ ' ' := by simpa using starts
    -- An escape opens with a backslash, and any other letter stands for itself.
    rcases escape_cases d with ⟨letters, split⟩ | ⟨split, printable, -⟩
    · rw [List.flatMap_cons, split] at first
      obtain rfl := Option.some.inj first
      decide
    · rw [List.flatMap_cons, split] at first
      obtain rfl := Option.some.inj first
      have unbroken := (escapes_escape d).unbroken d (by simp [split])
      exact isGap_of_printable printable letter unbroken

/-- Escaped text is read back up to its closing quote. -/
theorem readQuoted_double {text : List Char} (enough : text.length < steps)
    (inside : place.column ≠ 0) :
    readQuoted false steps ⟨text.flatMap escape ++ '"' :: rest, place⟩ =
      some (text, ⟨rest, place.along ((text.flatMap escape).length + 1)⟩) := by
  -- The induction is on the steps that are left, one for each word and the gap behind it.
  induction steps generalizing text place with
  | zero => omega
  | succ steps ih =>
    obtain ⟨word, back, rfl, letters, stops⟩ := exists_front (· ≠ ' ') text
    have unspaced : ∀ c ∈ word, c ≠ ' ' := fun c inside => of_decide_eq_true (letters c inside)
    cases back with
    | nil =>
      rw [List.append_nil]
      refine readQuoted_close inside ?_
      exact doubleRun_flatMap unspaced (by rw [quoteMark, if_neg (by decide), doubleRun])
    | cons c back =>
      obtain rfl : c = ' ' := by simpa using stops c rfl
      obtain ⟨count, tail, split, shorter, next⟩ := exists_gap back
      have run : quotedRun false
          (word.flatMap escape ++ (spaces (count + 1) ++ (tail.flatMap escape ++ '"' :: rest))) =
          some ⟨word, .gap, (word.flatMap escape).length⟩ := by
        refine doubleRun_flatMap unspaced ?_
        rw [spaces, List.replicate_succ, List.cons_append, doubleRun] <;> simp [isGap, isBlank]
      -- The spaces behind the word are followed by another word or by the quote.
      obtain ⟨gap, passed, joined, cursor⟩ := joined_spaces (count + 1) (atWord_escape next rest)
        (place.along (word.flatMap escape).length)
      have fewer : tail.length < steps := by
        rw [List.length_append, List.length_cons] at enough
        omega
      have spelled : (word ++ ' ' :: back).flatMap escape ++ '"' :: rest =
          word.flatMap escape ++ (spaces (count + 1) ++ (tail.flatMap escape ++ '"' :: rest)) := by
        rw [split, List.flatMap_append, List.flatMap_append, flatMap_spaces rfl]
        simp only [List.append_assoc]
      rw [spelled, readQuoted_gap inside (by simp [spaces, List.replicate_succ, quoteMark])
        (by simp [spaces, List.replicate_succ]) run passed, cursor,
        ih fewer (by simp [Place.along]), joined, split, Place.along_along, Place.along_along,
        List.flatMap_append, List.flatMap_append, flatMap_spaces rfl]
      simp [spaces, Nat.add_assoc]

/-! Between single quotes lines are kept with their breaks, and each of them is indented. -/

/--
Text that stands between single quotes.

- `printable`: it is printable
- `unended`: none of its line breaks is a line feed
- `unspaced`: no line ends in a space
- `flush`: no line but the first starts with a space
-/
structure IsSingle (text : List Char) : Prop where
  printable : ∀ c ∈ text, isPrintable c = true
  unended : '\n' ∉ text
  unspaced : ∀ front c rest, text = front ++ ' ' :: c :: rest → isBreak c = false
  flush : ∀ front c rest, text = front ++ c :: ' ' :: rest → isBreak c = false

/-- What is behind the front of such a text is one. -/
theorem IsSingle.tail {front text : List Char} (single : IsSingle (front ++ text)) :
    IsSingle text where
  printable c inside := single.printable c (List.mem_append_right _ inside)
  unended inside := single.unended (List.mem_append_right _ inside)
  unspaced before c rest split :=
    single.unspaced (front ++ before) c rest (by rw [split, List.append_assoc])
  flush before c rest split :=
    single.flush (front ++ before) c rest (by rw [split, List.append_assoc])

/-- Letters on a line are written without an indentation. -/
theorem renderSingleFrom_letters (indent : Nat) {word : List Char}
    (unbroken : ∀ c ∈ word, isBreak c = false) (rest : List Char) :
    renderSingleFrom indent false (word ++ rest) =
      word.flatMap singleLetter ++ renderSingleFrom indent false rest := by
  induction word with
  | nil => rfl
  | cons c word ih =>
    rw [List.cons_append, renderSingleFrom, unbroken c List.mem_cons_self,
      ih fun d inside => unbroken d (List.mem_cons_of_mem _ inside)]
    simp [singleLetter]

/-- A line behind breaks is indented. -/
theorem renderSingleFrom_breaks (indent : Nat) {broken : Bool} {breaks tail : List Char}
    (line : broken = true ∨ breaks ≠ []) (all : ∀ c ∈ breaks, isBreak c = true)
    (letter : ∀ c, tail.head? = some c → isBreak c = false) :
    renderSingleFrom indent broken (breaks ++ tail) =
      breaks ++ (spaces indent ++ renderSingleFrom indent false tail) := by
  induction breaks generalizing broken with
  | nil =>
    -- Behind the last break the line is indented, whether or not anything stands on it.
    obtain rfl := line.resolve_right (by simp)
    cases tail with
    | nil => simp [renderSingleFrom]
    | cons c tail => simp [renderSingleFrom, letter c rfl]
  | cons c breaks ih =>
    rw [List.cons_append, renderSingleFrom, if_pos (all c List.mem_cons_self),
      ih (.inl rfl) fun d inside => all d (List.mem_cons_of_mem _ inside), List.cons_append]

/-- A line starts with no gap, unless its text does. -/
theorem atWord_single {text : List Char} (starts : ∀ c, text.head? = some c → isGap c = false)
    (indent : Nat) (rest : List Char) :
    AtWord (renderSingleFrom indent false text ++ '\'' :: rest) := by
  intro c first
  cases text with
  | nil =>
    obtain rfl := Option.some.inj first
    decide
  | cons d text =>
    have letter := starts d rfl
    have unbroken : isBreak d = false := (Bool.or_eq_false_iff.mp letter).2
    rw [renderSingleFrom, unbroken] at first
    -- A quote is written twice, and any other letter stands for itself.
    by_cases quote : d = '\''
    · subst quote
      obtain rfl := Option.some.inj first
      decide
    · simp only [quote] at first
      obtain rfl := Option.some.inj first
      exact letter

/-- Breaks without line feeds are kept. -/
theorem foldedBreaks_eq_self {breaks : List Char} (unended : '\n' ∉ breaks) :
    foldedBreaks breaks = breaks := by
  unfold foldedBreaks
  split
  · simp at unended
  · simp at unended
  · rfl

/-- No quote that is doubled breaks the line. -/
theorem isBreak_singleLetter {word : List Char} (unbroken : ∀ c ∈ word, isBreak c = false)
    {c : Char} (inside : c ∈ word.flatMap singleLetter) : isBreak c = false := by
  obtain ⟨d, among, spelled⟩ := List.mem_flatMap.mp inside
  rw [singleLetter] at spelled
  split at spelled
  · obtain rfl : c = '\'' := by simpa using spelled
    decide
  · obtain rfl := List.mem_singleton.mp spelled
    exact unbroken c among

/-- Letters go along the line. -/
theorem Place.past_letters (place : Place) {word : List Char}
    (unspaced : ∀ c ∈ word, isGap c = false) :
    place.past (word.flatMap singleLetter) = place.along (word.flatMap singleLetter).length :=
  place.past_unbroken fun _ inside =>
    isBreak_singleLetter (fun d among => (Bool.or_eq_false_iff.mp (unspaced d among)).2) inside

/-- Behind a word and a gap the rest of the text is read. -/
theorem readQuoted_single_gap {gapText behind found : List Char} {cursor : Cursor} {gap : Gap}
    (inside : place.column ≠ 0) (unspaced : ∀ c ∈ word, isGap c = false)
    (starts : gapText.head?.any isGap = true)
    (passed : readGap 0 false (gapText ++ behind) (place.past (word.flatMap singleLetter)) =
      some gap)
    (later : readQuoted true steps gap.cursor = some (found, cursor)) :
    readQuoted true (steps + 1) ⟨word.flatMap singleLetter ++ (gapText ++ behind), place⟩ =
      some (word ++ gap.joined ++ found, cursor) := by
  obtain ⟨c, gapText, rfl⟩ : ∃ c tail, gapText = c :: tail := by
    cases gapText with
    | nil => cases starts
    | cons c tail => exact ⟨c, tail, rfl⟩
  have stop : isGap c = true := starts
  have noQuote : c ≠ '\'' := by
    rintro rfl
    cases stop
  -- The run of letters ends where the gap opens.
  have stops : singleRun (c :: gapText ++ behind) = ⟨[], .gap, 0⟩ := by
    rw [List.cons_append, singleRun, if_pos stop] <;> simp [noQuote]
  have run : quotedRun true (word.flatMap singleLetter ++ (c :: gapText ++ behind)) =
      some ⟨word, .gap, (word.flatMap singleLetter).length⟩ :=
    congrArg some (singleRun_flatMap unspaced stops)
  rw [Place.past_letters place unspaced] at passed
  rw [readQuoted_gap inside (by simpa [quoteMark] using noQuote) (by simp) run passed, later]
  rfl

/-- Behind breaks such a text goes on with a word. -/
theorem IsSingle.word_of_breaks {breaks tail : List Char} (single : IsSingle (breaks ++ tail))
    (nonempty : breaks ≠ []) (all : ∀ c ∈ breaks, isBreak c = true)
    (next : ∀ c, tail.head? = some c → isBreak c = false) :
    ∀ c, tail.head? = some c → isGap c = false := by
  intro c starts
  obtain ⟨tail, rfl⟩ := List.head?_eq_some_iff.mp starts
  refine isGap_of_printable (single.printable c (by simp)) ?_ (next c starts)
  -- A space there would stand behind the last break.
  rintro rfl
  obtain ⟨front, last, ends⟩ : ∃ front last, breaks = front ++ [last] :=
    ⟨_, _, (List.dropLast_concat_getLast nonempty).symm⟩
  have unbroken := single.flush front last tail (by rw [ends, List.append_assoc]; rfl)
  cases unbroken.symm.trans (all last (by simp [ends]))

/-- Behind spaces such a text goes on with a word. -/
theorem IsSingle.word_of_spaces {count : Nat} {tail : List Char}
    (single : IsSingle (spaces (count + 1) ++ tail)) (next : tail.head? ≠ some ' ') :
    ∀ c, tail.head? = some c → isGap c = false := by
  intro c starts
  obtain ⟨tail, rfl⟩ := List.head?_eq_some_iff.mp starts
  refine isGap_of_printable (single.printable c (by simp)) ?_ ?_
  · rintro rfl
    exact next rfl
  · exact single.unspaced (spaces count) c tail (by simp [spaces, List.replicate_succ'])

/-- The closing quote stands behind the last word, and is not doubled. -/
theorem readQuoted_single_close (inside : place.column ≠ 0)
    (unspaced : ∀ c ∈ word, isGap c = false) (behind : rest.head? ≠ some '\'') :
    readQuoted true (steps + 1) ⟨word.flatMap singleLetter ++ '\'' :: rest, place⟩ =
      some (word, ⟨rest, place.past (word.flatMap singleLetter ++ ['\''])⟩) := by
  have closes : singleRun ('\'' :: rest) = ⟨[], .quote, 0⟩ := by
    rw [singleRun]
    rintro tail rfl
    exact behind rfl
  have run : quotedRun true (word.flatMap singleLetter ++ quoteMark true :: rest) =
      some ⟨word, .quote, (word.flatMap singleLetter).length⟩ :=
    congrArg some (singleRun_flatMap unspaced closes)
  have read := @readQuoted_close true steps place _ word rest inside run
  rw [Place.past_append, Place.past_letters place unspaced, Place.past_letter _ (by decide)]
  simpa [quoteMark, Place.along_along, Place.past] using read

/-- Text between single quotes is read back up to its closing quote. -/
theorem readQuoted_single {text : List Char} {indent : Nat} (single : IsSingle text)
    (enough : text.length < steps) (inside : place.column ≠ 0) (indented : indent ≠ 0)
    (behind : rest.head? ≠ some '\'') :
    readQuoted true steps ⟨renderSingleFrom indent false text ++ '\'' :: rest, place⟩ =
      some (text, ⟨rest, place.past (renderSingleFrom indent false text ++ ['\''])⟩) := by
  -- The induction is on the steps that are left, one for each word and the gap behind it.
  induction steps generalizing text place with
  | zero => omega
  | succ steps ih =>
    obtain ⟨word, back, rfl, letters, stops⟩ := exists_front (fun c => !isGap c) text
    have unspaced : ∀ c ∈ word, isGap c = false := fun c inside => by simpa using letters c inside
    have unbroken : ∀ c ∈ word, isBreak c = false := fun c inside =>
      (Bool.or_eq_false_iff.mp (unspaced c inside)).2
    rw [renderSingleFrom_letters indent unbroken]
    cases back with
    | nil =>
      simp only [renderSingleFrom, Bool.false_eq_true, ↓reduceIte, List.append_nil]
      exact readQuoted_single_close inside unspaced behind
    | cons c back =>
      have gap : isGap c = true := by simpa using stops c rfl
      rw [List.length_append, List.length_cons] at enough
      by_cases breaks : isBreak c = true
      · -- Breaks are followed by an indented line, which may be empty.
        obtain ⟨more, tail, rfl, all, next⟩ := exists_front isBreak back
        have all : ∀ d ∈ c :: more, isBreak d = true := List.forall_mem_cons.mpr ⟨breaks, all⟩
        have part : IsSingle (c :: more ++ tail) := single.tail
        have passed := readGap_breaks 0 false
          (fun d inside => part.printable d (List.mem_append_left _ inside)) all (by simp) indent
          (atWord_single (part.word_of_breaks (by simp) all next) indent rest)
          (place.past (word.flatMap singleLetter))
        have column := (place.past (word.flatMap singleLetter)).column_past_lines (by simp) all
          indent
        have later := @ih
          ((place.past (word.flatMap singleLetter)).past (c :: more ++ spaces indent)) tail
          part.tail (by rw [List.length_append] at enough; omega) (column.symm ▸ indented)
        have starts : (c :: more).head?.any isGap = true := gap
        have read := readQuoted_single_gap inside unspaced starts passed later
        have joined : foldedBreaks (c :: more) = c :: more :=
          foldedBreaks_eq_self fun feed => part.unended (List.mem_append_left _ feed)
        have lines := @renderSingleFrom_breaks indent false _ _ (.inr (by simp)) all next
        rw [Gap.joined, if_neg (by simp), joined] at read
        rw [← List.cons_append, lines]
        simpa [← Place.past_append] using read
      · -- Spaces are followed by another word or by the quote.
        obtain rfl : c = ' ' := by
          have blank : isBlank c = true := by simpa [isGap, breaks] using gap
          exact (isBlank_of_printable (single.printable c (by simp))).mp blank
        obtain ⟨count, tail, split, short, next⟩ := exists_gap back
        have part : IsSingle (spaces (count + 1) ++ tail) := split ▸ single.tail
        obtain ⟨gap, passed, joined, cursor⟩ := joined_spaces (count + 1)
          (atWord_single (part.word_of_spaces next) indent rest)
          (place.past (word.flatMap singleLetter))
        have later := @ih ((place.past (word.flatMap singleLetter)).along (count + 1)) tail
          part.tail (by omega) (by simp [Place.along])
        rw [← cursor] at later
        have starts : (spaces (count + 1)).head?.any isGap = true := by
          simp [spaces, List.replicate_succ, isGap, isBlank]
        have read := readQuoted_single_gap inside unspaced starts passed later
        have plain := @renderSingleFrom_letters indent (spaces (count + 1))
          (fun d inside => isBreak_spaces inside) tail
        rw [split, plain, flatMap_spaces (by decide)]
        rw [joined] at read
        simpa [Place.past_append, Place.past_spaces] using read

/-- No line of a string between single quotes gets shorter. -/
theorem length_le_renderSingleFrom (indent : Nat) (broken : Bool) (text : List Char) :
    text.length ≤ (renderSingleFrom indent broken text).length := by
  induction text generalizing broken with
  | nil => simp
  | cons c text ih =>
    rw [renderSingleFrom]
    split
    · exact Nat.succ_le_succ (ih true)
    · have later := ih false
      -- A letter is spelled by itself or by two quotes.
      split <;> simp <;> split <;> simp <;> omega

/-- Every character is spelled by at least one. -/
theorem length_le_flatMap_escape (text : List Char) :
    text.length ≤ (text.flatMap escape).length := by
  induction text with
  | nil => simp
  | cons c text ih =>
    rw [List.flatMap_cons, List.length_append, List.length_cons]
    rcases escape_cases c with ⟨letters, split⟩ | ⟨split, -⟩
    · rw [split, List.length_cons]
      omega
    · rw [split, List.length_singleton]
      omega

/-- No escape has a line break. -/
theorem isBreak_escape {text : List Char} {c : Char} (inside : c ∈ text.flatMap escape) :
    isBreak c = false := by
  obtain ⟨d, -, spelled⟩ := List.mem_flatMap.mp inside
  exact (escapes_escape d).unbroken c spelled

/-- A string between double quotes stays on one line. -/
theorem isBreak_renderDouble {text : List Char} {c : Char} (inside : c ∈ renderDouble text) :
    isBreak c = false := by
  rcases List.mem_cons.mp inside with rfl | inside
  · decide
  rcases List.mem_append.mp inside with inside | inside
  · exact isBreak_escape inside
  · rw [List.mem_singleton.mp inside]
    decide

/-- A text that single style allows and that has no line feed stands between single quotes. -/
theorem isSingle_of_allowed {text : List Char} (allowed : allowsSingle text = true)
    (unended : '\n' ∉ text) : IsSingle text := by
  simp only [allowsSingle, Bool.and_eq_true, Bool.not_eq_true'] at allowed
  obtain ⟨⟨printable, unspaced⟩, flush⟩ := allowed
  refine ⟨List.all_eq_true.mp printable, unended, fun front c rest split => ?_,
    fun front c rest split => ?_⟩
  · simpa [isSpaceBreak] using not_holds_of_hasPlace unspaced split
  · simpa [isBreakSpace] using not_holds_of_hasPlace flush split

namespace Lexer

variable {frame : Frame} {allows : Bool} {text : List Char}

/-- A string between quotes is a scalar. -/
theorem quoted_of_read {found : List Char} {behind : Cursor}
    (read : readQuoted isSingle (text.length + 1) ⟨text, place.along 1⟩ = some (found, behind)) :
    (frame.lexer allows none ⟨quoteMark isSingle :: text, place⟩).token =
      some ((frame.put [.scalar false (String.ofList found)]).lexer false
        (frame.saved allows place) behind) := by
  have noMarker : Cursor.isAtMarker ⟨quoteMark isSingle :: text, place⟩ = false := by
    cases isSingle <;> simp [Cursor.isAtMarker, quoteMark, List.isPrefixOf]
  have dispatched : (frame.lexer allows none ⟨quoteMark isSingle :: text, place⟩).token =
      (frame.lexer allows none ⟨quoteMark isSingle :: text, place⟩).quoted isSingle := by
    rw [token]
    cases isSingle <;> simp only [Frame.lexer, noMarker] <;> simp [quoteMark]
  rw [dispatched, quoted, Frame.saveKey_lexer]
  simp only [Option.bind_eq_bind, Option.bind_some, Frame.lexer, Cursor.skip, List.drop_succ_cons,
    List.drop_zero]
  rw [read]
  rfl

/-- A string between single quotes is read as it was printed. -/
theorem quoted_single {indent : Nat} {ending : List Char} (single : IsSingle text)
    (indented : indent ≠ 0) (closes : ending.head? ≠ some '\'') :
    (frame.lexer allows none ⟨renderSingle indent text ++ ending, place⟩).token =
      some ((frame.put [.scalar false (String.ofList text)]).lexer false
        (frame.saved allows place) ⟨ending, place.past (renderSingle indent text)⟩) := by
  have enough :
      text.length < (renderSingleFrom indent false text ++ '\'' :: ending).length + 1 := by
    have longer := length_le_renderSingleFrom indent false text
    rw [List.length_append]
    omega
  have inside : (place.along 1).column ≠ 0 := by simp [Place.along]
  have token := @quoted_of_read true place frame allows _ _ _
    (readQuoted_single single enough inside indented closes)
  rw [renderSingle, List.cons_append, List.append_assoc, Place.past_letter _ (by decide)]
  exact token

/-- A string between double quotes is read as it was printed. -/
theorem quoted_double (ending : List Char) :
    (frame.lexer allows none ⟨renderDouble text ++ ending, place⟩).token =
      some ((frame.put [.scalar false (String.ofList text)]).lexer false
        (frame.saved allows place) ⟨ending, place.past (renderDouble text)⟩) := by
  have enough : text.length < (text.flatMap escape ++ '"' :: ending).length + 1 := by
    have longer := length_le_flatMap_escape text
    rw [List.length_append]
    omega
  have inside : (place.along 1).column ≠ 0 := by simp [Place.along]
  have token := @quoted_of_read false place frame allows _ _ _ (readQuoted_double enough inside)
  rw [Place.past_unbroken place fun c inside => isBreak_renderDouble inside, renderDouble,
    List.cons_append, List.append_assoc]
  rw [Place.along_along] at token
  simpa [Nat.add_comm, quoteMark] using token

end Lexer

end SyncStore.Yaml
