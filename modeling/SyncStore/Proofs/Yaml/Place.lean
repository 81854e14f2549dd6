import Mathlib.Data.List.TakeWhile
import SyncStore.Yaml.Printer
import SyncStore.Yaml.Place

/-! A place moves over text character by character, and gaps are passed up to the next word. -/

namespace SyncStore.Yaml

/-- A printed line break is a line feed or a separator. -/
theorem isBreak_of_printable {c : Char} (printable : isPrintable c = true) :
    isBreak c = true ↔ c = '\n' ∨ c = '\u2028' ∨ c = '\u2029' := by
  unfold isBreak
  constructor
  · intro breaks
    simp only [Bool.or_eq_true, decide_eq_true_eq] at breaks
    -- Carriage returns and next lines are controls, and no control is printable.
    rcases breaks with (((feed | rfl) | rfl) | line) | paragraph
    · exact .inl feed
    · revert printable; decide
    · revert printable; decide
    · exact .inr (.inl line)
    · exact .inr (.inr paragraph)
  · rintro (rfl | rfl | rfl) <;> decide

/-- A printed line break is kept as it is. -/
theorem keptBreak_of_printable {c : Char} (printable : isPrintable c = true)
    (breaks : isBreak c = true) : keptBreak c = c := by
  rcases (isBreak_of_printable printable).mp breaks with rfl | rfl | rfl <;> rfl

/-- A printed blank is a space. -/
theorem isBlank_of_printable {c : Char} (printable : isPrintable c = true) :
    isBlank c = true ↔ c = ' ' := by
  unfold isBlank
  constructor
  · intro blank
    simp only [Bool.or_eq_true, decide_eq_true_eq] at blank
    rcases blank with space | rfl
    · exact space
    · revert printable; decide
  · rintro rfl
    decide

/-- A printed character is a letter, unless it is a space or breaks the line. -/
theorem isGap_of_printable {c : Char} (printable : isPrintable c = true) (space : c ≠ ' ')
    (unbroken : isBreak c = false) : isGap c = false := by
  rw [isGap, unbroken, Bool.or_false, ← Bool.not_eq_true]
  exact fun blank => space ((isBlank_of_printable printable).mp blank)

/-- Every printed character may stand in a text. -/
theorem isAllowed_of_printable {c : Char} (printable : isPrintable c = true) :
    isAllowed c = true := by
  unfold isPrintable at printable
  unfold isAllowed
  simp only [Bool.or_eq_true, Bool.and_eq_true, decide_eq_true_eq] at printable ⊢
  rcases printable with ((feed | ascii) | ⟨⟨low, high⟩, other⟩) | wide
  · exact .inl (.inl (.inl (.inl (.inl (.inr feed)))))
  · exact .inl (.inl (.inl (.inr ascii)))
  · exact .inl (.inr ⟨low, high⟩)
  · exact .inr wide

/-- A byte order mark is not printed. -/
theorem isPrintable_mark : isPrintable '\uFEFF' = false := by decide

/-- A text is printed when all of its characters are. -/
def IsPrinted (text : List Char) : Prop := ∀ c ∈ text, isPrintable c = true

instance (text : List Char) : Decidable (IsPrinted text) :=
  List.decidableBAll (isPrintable · = true) text

/-- The place behind some text in which no break is spelled by two characters. -/
def Place.past (place : Place) (text : List Char) : Place :=
  text.foldl (fun place c => if isBreak c then place.down 1 else place.along 1) place

namespace Place

/-- The place behind two texts is reached over one after the other. -/
theorem past_append (place : Place) (front back : List Char) :
    place.past (front ++ back) = (place.past front).past back := by
  rw [past, List.foldl_append]
  rfl

/-- A break starts a new line. -/
theorem past_break (place : Place) {c : Char} (breaks : isBreak c = true) (rest : List Char) :
    place.past (c :: rest) = (place.down 1).past rest := by
  rw [past, List.foldl_cons, if_pos breaks]
  rfl

/-- Any other character goes along the line. -/
theorem past_letter (place : Place) {c : Char} (letter : isBreak c = false) (rest : List Char) :
    place.past (c :: rest) = (place.along 1).past rest := by
  rw [past, List.foldl_cons, if_neg (by simp [letter])]
  rfl

/-- Going along a line twice is going along it once. -/
theorem along_along (place : Place) (first second : Nat) :
    (place.along first).along second = place.along (first + second) := by
  simp [along, Nat.add_assoc]

/-- Text without breaks goes along the line. -/
theorem past_unbroken (place : Place) {text : List Char}
    (unbroken : ∀ c ∈ text, isBreak c = false) : place.past text = place.along text.length := by
  -- The induction is on the text, from whatever place its front was passed to.
  induction text generalizing place with
  | nil => rfl
  | cons c rest ih =>
    rw [past_letter _ (unbroken c List.mem_cons_self),
      ih _ fun d inside => unbroken d (List.mem_cons_of_mem _ inside), along_along,
      List.length_cons, Nat.add_comm]

/-- The line of a place never goes back. -/
theorem line_le_past (place : Place) (text : List Char) : place.line ≤ (place.past text).line := by
  induction text generalizing place with
  | nil => exact Nat.le_refl _
  | cons c rest ih =>
    cases breaks : isBreak c with
    | true =>
      rw [past_break _ breaks]
      exact Nat.le_trans (Nat.le_succ _) (ih (place.down 1))
    | false =>
      rw [past_letter _ breaks]
      exact ih (place.along 1)

/-- Behind a break the line is a later one. -/
theorem line_lt_past (place : Place) {text : List Char} {c : Char} (inside : c ∈ text)
    (breaks : isBreak c = true) : place.line < (place.past text).line := by
  obtain ⟨front, back, rfl⟩ := List.append_of_mem inside
  rw [past_append, past_break _ breaks]
  -- The line goes down at the break, and no text in front of it or behind it takes it back.
  have first := line_le_past place front
  have second := line_le_past ((place.past front).down 1) back
  simp only [down] at second ⊢
  omega

end Place

/-- Spaces are no breaks. -/
theorem isBreak_spaces {count : Nat} {c : Char} (inside : c ∈ spaces count) :
    isBreak c = false := by
  rw [List.eq_of_mem_replicate inside]
  decide

/-- Spaces go along the line. -/
theorem Place.past_spaces (place : Place) (count : Nat) :
    place.past (spaces count) = place.along count := by
  rw [past_unbroken place fun c inside => isBreak_spaces inside, spaces, List.length_replicate]

/-- Behind breaks the column is the number of spaces on the last line. -/
theorem Place.column_past_lines (place : Place) {breaks : List Char} (nonempty : breaks ≠ [])
    (all : ∀ c ∈ breaks, isBreak c = true) (count : Nat) :
    (place.past (breaks ++ spaces count)).column = count := by
  obtain ⟨front, c, rfl⟩ : ∃ front c, breaks = front ++ [c] :=
    ⟨_, _, (List.dropLast_concat_getLast nonempty).symm⟩
  -- Whatever stands in front of the last break, the column behind it is the first one.
  rw [List.append_assoc, past_append, List.singleton_append, past_break _ (all c (by simp)),
    past_spaces]
  simp [along, down]

/-- From the start of a line the same holds without breaks. -/
theorem Place.column_past_start {place : Place} (start : place.column = 0) {breaks : List Char}
    (all : ∀ c ∈ breaks, isBreak c = true) (count : Nat) :
    (place.past (breaks ++ spaces count)).column = count := by
  cases breaks with
  | nil => simp [past_spaces, along, start]
  | cons c breaks => exact place.column_past_lines (by simp) all count

/-- A text stands at a word when it does not go on with a gap. -/
def AtWord (text : List Char) : Prop := ∀ c, text.head? = some c → isGap c = false

/-- What is read of a gap before a word. -/
theorem readGap_word (tabs : Nat) (folding : Bool) {text : List Char} (word : AtWord text)
    (place : Place) : readGap tabs folding text place = some ⟨[], [], ⟨text, place⟩⟩ := by
  cases text with
  | nil => rw [readGap]
  | cons c rest =>
    have letter := word c rfl
    simp only [isGap, Bool.or_eq_false_iff] at letter
    rw [readGap]
    · simp [letter.1, letter.2]
    -- A carriage return in front of a line feed is a case of its own, and it is a break.
    · rintro tail rfl
      simp [isBreak] at letter

/-- A space of a gap is kept as a blank, unless the gap already spans lines. -/
theorem readGap_space (tabs : Nat) (folding : Bool) (rest : List Char) (place : Place) :
    readGap tabs folding (' ' :: rest) place =
      (readGap tabs folding rest (place.along 1)).map fun gap =>
        if folding then gap else { gap with blanks := ' ' :: gap.blanks } := by
  rw [readGap]
  · simp [isBreak, isBlank]
  · simp

/-- A printed break of a gap is kept, and the gap spans lines from there. -/
theorem readGap_break (tabs : Nat) (folding : Bool) {c : Char} (printable : isPrintable c = true)
    (breaks : isBreak c = true) (rest : List Char) (place : Place) :
    readGap tabs folding (c :: rest) place =
      (readGap tabs true rest (place.down 1)).map fun gap =>
        { gap with breaks := c :: gap.breaks } := by
  have kept := keptBreak_of_printable printable breaks
  rw [readGap]
  · simp [breaks, kept]
  · rintro tail rfl
    exact absurd printable (by decide)

/-- Spaces in front of a word are kept as blanks, unless the gap already spans lines. -/
theorem readGap_spaces (tabs : Nat) (folding : Bool) (count : Nat) {text : List Char}
    (word : AtWord text) (place : Place) :
    readGap tabs folding (spaces count ++ text) place =
      some ⟨if folding then [] else spaces count, [], ⟨text, place.past (spaces count)⟩⟩ := by
  induction count generalizing place with
  | zero =>
    rw [spaces, List.replicate_zero, List.nil_append, readGap_word tabs folding word]
    cases folding <;> rfl
  | succ count ih =>
    have step : spaces (count + 1) = ' ' :: spaces count := rfl
    rw [step, List.cons_append, readGap_space, ih, Place.past_letter _ (by decide)]
    cases folding <;> rfl

/-- Printed breaks and the spaces behind them are passed up to the next word. -/
theorem readGap_breaks (tabs : Nat) (folding : Bool) {breaks : List Char}
    (printable : ∀ c ∈ breaks, isPrintable c = true) (all : ∀ c ∈ breaks, isBreak c = true)
    (some : breaks ≠ []) (count : Nat) {text : List Char} (word : AtWord text) (place : Place) :
    readGap tabs folding (breaks ++ (spaces count ++ text)) place =
      .some ⟨[], breaks, ⟨text, place.past (breaks ++ spaces count)⟩⟩ := by
  induction breaks generalizing place folding with
  | nil => exact absurd rfl some
  | cons c rest ih =>
    have here := all c List.mem_cons_self
    rw [List.cons_append, List.cons_append,
      readGap_break tabs folding (printable c List.mem_cons_self) here, Place.past_break _ here]
    cases rest with
    | nil =>
      rw [List.nil_append, List.nil_append, readGap_spaces tabs true count word]
      rfl
    | cons d rest =>
      -- The gap spans lines already at the next break.
      rw [ih true (fun e inside => printable e (List.mem_cons_of_mem _ inside))
        (fun e inside => all e (List.mem_cons_of_mem _ inside)) (by simp)]
      rfl

/-- A text is split where a condition first fails. -/
theorem exists_front (holds : Char → Bool) (text : List Char) :
    ∃ front back, text = front ++ back ∧ (∀ c ∈ front, holds c = true) ∧
      ∀ c, back.head? = some c → holds c = false := by
  refine ⟨text.takeWhile holds, text.dropWhile holds, List.takeWhile_append_dropWhile.symm,
    fun c inside => List.mem_takeWhile_imp inside, fun c starts => ?_⟩
  have fails := List.head?_dropWhile_not holds text
  rw [starts] at fails
  simpa using fails

end SyncStore.Yaml
