import SyncStore.Proofs.Yaml.Lexer

/-! Literal blocks are read back line by line, with the line breaks at their end. -/

namespace SyncStore.Yaml

variable {indent count widest : Nat} {place : Place} {breaks text : List Char}

/-- No empty line is passed in front of text that is indented as far as it has to be. -/
theorem readEmptyLines_text {known : Option Nat}
    (starts : ∀ c, text.head? = some c → isBreak c = false ∧
      (isBlank c = true → known.all (place.column < ·) = false)) :
    readEmptyLines known widest text place = some ⟨[], widest, ⟨text, place⟩⟩ := by
  cases text with
  | nil => rw [readEmptyLines]
  | cons c rest =>
    obtain ⟨unbroken, indented⟩ := starts c rfl
    have passed : ∀ b, isBlank b = true → (c = b && known.all (place.column < ·)) = false := by
      intro b blank
      by_cases same : c = b
      · rw [indented (same ▸ blank), Bool.and_false]
      · simp [same]
    have space := passed ' ' (by decide)
    have tab := passed '\t' (by decide)
    rw [readEmptyLines]
    · simp only [space, tab, unbroken, Bool.false_eq_true, ↓reduceIte]
    · rintro tail rfl
      cases unbroken

/-- Spaces end in front of text that a line may start with behind so many of them. -/
def EndsSpaces (indent count : Nat) (text : List Char) : Prop :=
  ∀ c, text.head? = some c → isBreak c = false ∧ (isBlank c = true → count = indent)

/-- Spaces end in front of a token. -/
theorem AtToken.endsSpaces (token : AtToken text) : EndsSpaces indent count text := by
  intro c first
  have word := Bool.or_eq_false_iff.mp (token c first).1
  exact ⟨word.2, fun blank => absurd (word.1.symm.trans blank) (by decide)⟩

/-- The spaces in front of text are passed up to the indentation. -/
theorem readEmptyLines_spaces (starts : EndsSpaces indent (place.column + count) text)
    (within : place.column + count ≤ indent) :
    ∃ wide, readEmptyLines (some indent) widest (spaces count ++ text) place =
      some ⟨[], wide, ⟨text, place.past (spaces count)⟩⟩ := by
  -- The induction is on the spaces that are left, from whatever column was reached.
  induction count generalizing place widest with
  | zero =>
    refine ⟨widest, readEmptyLines_text fun c first => ?_⟩
    obtain ⟨unbroken, indented⟩ := starts c first
    refine ⟨unbroken, fun blank => ?_⟩
    have column := indented blank
    simpa using Nat.le_of_eq column.symm
  | succ count ih =>
    have inside : place.column < indent := by omega
    have column : (place.along 1).column + count = place.column + (count + 1) := by
      simp only [Place.along]
      omega
    obtain ⟨wide, passed⟩ := @ih (max widest (place.column + 1)) (place.along 1)
      (by rwa [column]) (by rwa [column])
    refine ⟨wide, ?_⟩
    rw [spaces, List.replicate_succ, List.cons_append, ← spaces, readEmptyLines,
      Place.past_letter _ (by decide)]
    · simpa [inside] using passed
    · simp

/-- Empty lines and the spaces behind them are passed up to the indentation. -/
theorem readEmptyLines_breaks (printable : ∀ c ∈ breaks, isPrintable c = true)
    (all : ∀ c ∈ breaks, isBreak c = true)
    (starts : EndsSpaces indent count text) (within : count ≤ indent) (column : place.column = 0) :
    ∃ wide, readEmptyLines (some indent) widest (breaks ++ (spaces count ++ text)) place =
      some ⟨breaks, wide, ⟨text, place.past (breaks ++ spaces count)⟩⟩ := by
  -- Every break starts a line at column zero, so the same holds of the lines behind it.
  induction breaks generalizing place with
  | nil => exact readEmptyLines_spaces (by simpa [column] using starts) (by omega)
  | cons c breaks ih =>
    have here := all c List.mem_cons_self
    obtain ⟨wide, passed⟩ := @ih (place.down 1)
      (fun d inside => printable d (List.mem_cons_of_mem _ inside))
      (fun d inside => all d (List.mem_cons_of_mem _ inside)) rfl
    have kept := keptBreak_of_printable (printable c List.mem_cons_self) here
    have letter : ∀ b, isBlank b = true → c ≠ b := by
      rintro b blank rfl
      have other := (isBlank_of_printable (printable c List.mem_cons_self)).mp blank
      rw [other] at here
      cases here
    refine ⟨wide, ?_⟩
    rw [List.cons_append, readEmptyLines, List.cons_append, Place.past_break _ here]
    · simp [letter ' ' (by decide), letter '\t' (by decide), here, passed, kept]
    · rintro tail rfl
      exact absurd (printable '\r' List.mem_cons_self) (by decide)

/-- The indentation of a block without a hint is that of its first line. -/
theorem readEmptyLines_first (word : AtWord text) :
    readEmptyLines none place.column (spaces count ++ text) place =
      some ⟨[], place.column + count, ⟨text, place.past (spaces count)⟩⟩ := by
  induction count generalizing place with
  | zero =>
    refine readEmptyLines_text fun c first => ?_
    have letter := Bool.or_eq_false_iff.mp (word c first)
    exact ⟨letter.2, fun blank => absurd (letter.1.symm.trans blank) (by decide)⟩
  | succ count ih =>
    have later := @ih (place.along 1)
    have column : (place.along 1).column = max place.column (place.column + 1) := by
      simp [Place.along]
    rw [spaces, List.replicate_succ, List.cons_append, ← spaces, readEmptyLines,
      Place.past_letter _ (by decide), ← column]
    · simpa [Place.along, Nat.add_assoc, Nat.add_comm 1] using later
    · simp

/-! The lines of a text are written one by one. -/

/-- The letters of a line are written as they are. -/
theorem literalLines_letters (indent : Nat) {line : List Char}
    (unbroken : ∀ c ∈ line, isBreak c = false) (rest : List Char) :
    literalLines indent false (line ++ rest) = line ++ literalLines indent false rest := by
  induction line with
  | nil => rfl
  | cons c line ih =>
    rw [List.cons_append, literalLines, unbroken c List.mem_cons_self,
      ih fun d inside => unbroken d (List.mem_cons_of_mem _ inside)]
    rfl

/-- Breaks are written as they are, and a line starts behind them. -/
theorem literalLines_breaks (indent : Nat) {broken : Bool} (line : broken = true ∨ breaks ≠ [])
    (all : ∀ c ∈ breaks, isBreak c = true) (rest : List Char) :
    literalLines indent broken (breaks ++ rest) = breaks ++ literalLines indent true rest := by
  induction breaks generalizing broken with
  | nil =>
    obtain rfl := line.resolve_right (by simp)
    rfl
  | cons c breaks ih =>
    rw [List.cons_append, literalLines, if_pos (all c List.mem_cons_self),
      ih (.inl rfl) fun d inside => all d (List.mem_cons_of_mem _ inside), List.cons_append]

/-- A line with letters is indented. -/
theorem literalLines_line (indent : Nat) {text : List Char} (nonempty : text ≠ [])
    (starts : ∀ c, text.head? = some c → isBreak c = false) :
    literalLines indent true text = spaces indent ++ literalLines indent false text := by
  obtain ⟨c, rest, rfl⟩ := List.exists_cons_of_ne_nil nonempty
  simp [literalLines, starts c rfl]

/-- The first letter of a line is written first. -/
theorem head?_literalLines (indent : Nat) {text : List Char} (nonempty : text ≠ [])
    (starts : ∀ c, text.head? = some c → isBreak c = false) (rest : List Char) :
    (literalLines indent false text ++ rest).head? = text.head? := by
  obtain ⟨c, tail, rfl⟩ := List.exists_cons_of_ne_nil nonempty
  simp [literalLines, starts c rfl]

/-- A line is indented up to its first letter. -/
theorem endsSpaces_literalLines (indent : Nat) {text : List Char} (nonempty : text ≠ [])
    (starts : ∀ c, text.head? = some c → isBreak c = false) (rest : List Char) :
    EndsSpaces indent indent (literalLines indent false text ++ rest) := by
  intro c first
  rw [head?_literalLines indent nonempty starts] at first
  exact ⟨starts c first, fun _ => rfl⟩

/-- No text gets shorter in a block. -/
theorem length_le_literalLines (indent : Nat) (broken : Bool) (text : List Char) :
    text.length ≤ (literalLines indent broken text).length := by
  induction text generalizing broken with
  | nil => simp
  | cons c text ih =>
    rw [literalLines]
    split
    · exact Nat.succ_le_succ (ih true)
    · have later := ih false
      rw [List.length_append, List.length_cons, List.length_cons]
      omega

/-! A block ends in the line breaks of its text. -/

/-- The breaks behind the last letter of a block; the last line is ended in any case. -/
def closing (breaks : List Char) : List Char := if breaks.isEmpty then ['\n'] else breaks

/-- Chomping leaves the breaks that stand behind the last letter of a text. -/
def Chomps (chomping : Chomping) (text : List Char) : Prop :=
  ∀ front c breaks, text = front ++ c :: breaks → isBreak c = false →
    (∀ d ∈ breaks, isBreak d = true) → ∀ blank,
      BlockJoint.ending ⟨(closing breaks).take 1, (closing breaks).drop 1, blank⟩ chomping = breaks

/-- What is chomped of a text is chomped of its end. -/
theorem Chomps.tail {chomping : Chomping} {front : List Char}
    (chomps : Chomps chomping (front ++ text)) : Chomps chomping text := by
  intro before c breaks split
  exact chomps (front ++ before) c breaks (by rw [split, List.append_assoc])

variable {header : BlockHeader} {steps : Nat} {joint : BlockJoint}

/-- A block ends in front of text that is not indented like its lines. -/
theorem readBlockLines_end (shallow : place.column ≠ indent) :
    readBlockLines header indent (steps + 1) joint ⟨text, place⟩ =
      some (joint.ending header.chomping, ⟨text, place⟩) := by
  rw [readBlockLines]
  simp [shallow]

/-- A line of a literal block stands behind the breaks of the lines before it. -/
theorem readBlockLines_line (literal : header.isLiteral = true) (column : place.column = indent)
    {line rest : List Char} {c : Char} (unbroken : ∀ d ∈ line, isBreak d = false)
    (printable : isPrintable c = true) (ends : isBreak c = true) {empties : EmptyLines}
    (passed : readEmptyLines (some indent) 0 rest ((place.past line).down 1) = some empties) :
    ∃ blank, readBlockLines header indent (steps + 1) joint ⟨line ++ c :: rest, place⟩ =
      (readBlockLines header indent steps ⟨[c], empties.breaks, blank⟩ empties.cursor).map
        fun (found, cursor) =>
          (joint.lineBreak ++ joint.emptyBreaks ++ line ++ found, cursor) := by
  -- The letters of the line are taken up to its break, which is kept.
  have spanned : (⟨line ++ c :: rest, place⟩ : Cursor).span (!isBreak ·) =
      (line, ⟨c :: rest, place.past line⟩) := by
    have taken : (line ++ c :: rest).takeWhile (!isBreak ·) = line := by
      rw [List.takeWhile_append_of_pos fun d inside => by rw [unbroken d inside]; rfl,
        List.takeWhile_cons_of_neg (by simp [ends]), List.append_nil]
    rw [Cursor.span, taken, Place.past_unbroken place unbroken]
    simp [Cursor.skip]
  have kept : breakAhead ⟨c :: rest, place.past line⟩ = [c] := by
    rw [breakAhead, List.head?_cons]
    simp only [ends, ↓reduceIte, keptBreak_of_printable printable ends]
  have next : (⟨c :: rest, place.past line⟩ : Cursor).skipBreak =
      ⟨rest, (place.past line).down 1⟩ := by
    rcases (isBreak_of_printable printable).mp ends with rfl | rfl | rfl <;> rfl
  have filled : (line ++ c :: rest).isEmpty = false := by simp
  refine ⟨(line ++ c :: rest).head?.any isBlank, ?_⟩
  rw [readBlockLines]
  simp only [column, ne_eq, not_true_eq_false, decide_false, filled, Bool.or_self,
    Bool.false_eq_true, ↓reduceIte, spanned, kept, next, passed, BlockJoint.text, literal,
    Bool.not_true, Bool.false_and]

/-- Whether the last line of a text is ended. -/
def isEnded (text : List Char) : Bool := text.getLast?.any isBreak

/-- A text is ended like what is behind its front. -/
theorem isEnded_append (front : List Char) {tail : List Char} (nonempty : tail ≠ []) :
    isEnded (front ++ tail) = isEnded tail := by
  rw [isEnded, isEnded, List.getLast?_append, List.getLast?_eq_some_getLast nonempty,
    Option.some_or]

/-- Letters are not ended. -/
theorem isEnded_letters {line : List Char} (unbroken : ∀ c ∈ line, isBreak c = false) :
    isEnded line = false := by
  cases last : line.getLast? with
  | none => simp [isEnded, last]
  | some c => simp [isEnded, last, unbroken c (List.mem_of_getLast? last)]

/-- Breaks are ended. -/
theorem isEnded_breaks (nonempty : breaks ≠ []) (all : ∀ c ∈ breaks, isBreak c = true) :
    isEnded breaks = true := by
  rw [isEnded, List.getLast?_eq_some_getLast nonempty, Option.any_some,
    all _ (List.getLast_mem nonempty)]

/-- Behind the last letters of a block its breaks end the last line. -/
theorem closing_eq {line : List Char} (unbroken : ∀ c ∈ line, isBreak c = false)
    (all : ∀ c ∈ breaks, isBreak c = true) (count : Nat) :
    literalLines indent false (line ++ breaks) ++ gapOf (!isEnded (line ++ breaks)) count =
      line ++ (closing breaks ++ spaces count) := by
  rw [literalLines_letters indent unbroken, List.append_assoc]
  congr 1
  cases breaks with
  | nil =>
    rw [List.append_nil, isEnded_letters unbroken]
    rfl
  | cons c breaks =>
    have written := @literalLines_breaks (c :: breaks) indent false (.inr (by simp)) all []
    rw [List.append_nil] at written
    rw [isEnded_append line (by simp), isEnded_breaks (by simp) all, written]
    simp [gapOf, closing, literalLines]

/-- The last line of a literal block is read with the breaks behind it. -/
theorem readBlockLines_last (literal : header.isLiteral = true) {line next : List Char}
    (token : AtToken next) (shallow : count < indent) (filled : line ≠ [])
    (unbroken : ∀ c ∈ line, isBreak c = false) (all : ∀ c ∈ breaks, isBreak c = true)
    (printed : IsPrinted breaks) (chomps : Chomps header.chomping (line ++ breaks))
    (column : place.column = indent) :
    readBlockLines header indent (steps + 2) joint
        ⟨line ++ (closing breaks ++ (spaces count ++ next)), place⟩ =
      some (joint.lineBreak ++ joint.emptyBreaks ++ (line ++ breaks),
        ⟨next, place.past (line ++ (closing breaks ++ spaces count))⟩) := by
  obtain ⟨c, more, split⟩ : ∃ c more, closing breaks = c :: more := by
    cases breaks <;> exact ⟨_, _, rfl⟩
  have closed : ∀ d ∈ closing breaks, isPrintable d = true ∧ isBreak d = true := by
    intro d inside
    rw [closing] at inside
    split at inside
    · rw [List.mem_singleton.mp inside]
      decide
    · exact ⟨printed d inside, all d inside⟩
  rw [split] at closed ⊢
  obtain ⟨printable, ends⟩ := closed c List.mem_cons_self
  obtain ⟨wide, passed⟩ := @readEmptyLines_breaks indent count 0 ((place.past line).down 1) more
    next (fun d inside => (closed d (List.mem_cons_of_mem _ inside)).1)
    (fun d inside => (closed d (List.mem_cons_of_mem _ inside)).2) token.endsSpaces
    (Nat.le_of_lt shallow) rfl
  obtain ⟨blank, step⟩ := @readBlockLines_line indent place header (steps + 1) joint literal column
    line _ c unbroken printable ends _ passed
  -- The spaces in front of the next token are not as many as those of a line.
  have away : (((place.past line).down 1).past (more ++ spaces count)).column ≠ indent := by
    have lines := (place.past line).column_past_lines (by simp)
      (fun d inside => (closed d inside).2) count
    rw [List.cons_append, Place.past_break _ ends] at lines
    omega
  -- Chomping leaves of the breaks behind the line what the text has of them.
  have left : BlockJoint.ending ⟨[c], more, blank⟩ header.chomping = breaks := by
    obtain ⟨front, letter, rfl⟩ : ∃ front letter, line = front ++ [letter] :=
      ⟨_, _, (List.dropLast_concat_getLast filled).symm⟩
    have ending := chomps front letter breaks (by simp) (unbroken letter (by simp)) all blank
    rw [split] at ending
    exact ending
  rw [List.cons_append, step, readBlockLines_end away, left, Place.past_append place,
    List.cons_append, Place.past_break _ ends]
  simp

/-- The lines of a literal block are read up to the next token. -/
theorem readBlockLines_text (literal : header.isLiteral = true) {next : List Char}
    (token : AtToken next) (shallow : count < indent) (enough : text.length < steps)
    (printed : IsPrinted text) (chomps : Chomps header.chomping text)
    (nonempty : text ≠ []) (starts : ∀ c, text.head? = some c → isBreak c = false)
    (column : place.column = indent) :
    readBlockLines header indent steps joint
        ⟨literalLines indent false text ++ (gapOf (!isEnded text) count ++ next), place⟩ =
      some (joint.lineBreak ++ joint.emptyBreaks ++ text,
        ⟨next, place.past (literalLines indent false text ++ gapOf (!isEnded text) count)⟩) := by
  -- The induction is on the steps that are left, one for each line and the breaks behind it.
  induction steps generalizing text place joint with
  | zero => omega
  | succ steps ih =>
    obtain ⟨line, rest, rfl, letters, stops⟩ := exists_front (fun c => !isBreak c) text
    have unbroken : ∀ c ∈ line, isBreak c = false := fun c inside => by simpa using letters c inside
    -- The text starts with a letter, so its first line is not empty.
    have filled : line ≠ [] := by
      rintro rfl
      obtain ⟨c, rest, rfl⟩ := List.exists_cons_of_ne_nil nonempty
      have broken := stops c rfl
      rw [starts c rfl] at broken
      cases broken
    obtain ⟨breaks, tail, rfl, all, behind⟩ := exists_front isBreak rest
    have positive := List.length_pos_iff.mpr filled
    rw [List.length_append, List.length_append] at enough
    by_cases last : tail = []
    · -- The block ends behind the breaks of the last line.
      subst last
      rw [List.append_nil] at printed chomps ⊢
      obtain ⟨fewer, rfl⟩ : ∃ fewer, steps = fewer + 1 := ⟨steps - 1, by omega⟩
      have ends := @readBlockLines_last indent count place breaks header fewer joint literal line
        next token shallow filled unbroken all
        (fun c inside => printed c (List.mem_append_right _ inside)) chomps column
      rw [← List.append_assoc, closing_eq unbroken all]
      simpa using ends
    · -- Another line follows.
      obtain ⟨c, more, rfl⟩ : ∃ c more, breaks = c :: more := by
        refine List.exists_cons_of_ne_nil ?_
        rintro rfl
        obtain ⟨c, tail, rfl⟩ := List.exists_cons_of_ne_nil last
        have broken := stops c rfl
        rw [behind c rfl] at broken
        cases broken
      have written : literalLines indent false (line ++ (c :: more ++ tail)) =
          line ++ (c :: more ++ (spaces indent ++ literalLines indent false tail)) := by
        rw [literalLines_letters indent unbroken, literalLines_breaks indent (.inr (by simp)) all,
          literalLines_line indent last behind]
      have ended : isEnded (line ++ (c :: more ++ tail)) = isEnded tail := by
        rw [isEnded_append line (by simp), isEnded_append _ last]
      obtain ⟨wide, passed⟩ := @readEmptyLines_breaks indent indent 0 ((place.past line).down 1)
        more _ (fun d among => printed d (by simp [among]))
        (fun d among => all d (List.mem_cons_of_mem _ among))
        (endsSpaces_literalLines indent last behind (gapOf (!isEnded tail) count ++ next))
        (Nat.le_refl _) rfl
      have ends := all c List.mem_cons_self
      obtain ⟨blank, step⟩ := @readBlockLines_line indent place header steps joint literal column
        line _ c unbroken (printed c (by simp)) ends _ passed
      have lines := (place.past line).column_past_lines (by simp) all indent
      rw [List.cons_append, Place.past_break _ ends] at lines
      have part : Chomps header.chomping ((line ++ c :: more) ++ tail) := by simpa using chomps
      have later := @ih (((place.past line).down 1).past (more ++ spaces indent)) tail
        ⟨[c], more, blank⟩ (by simp only [List.length_cons] at enough; omega)
        (fun d among => printed d (by simp [among])) part.tail last behind lines
      rw [written, ended]
      simp only [List.append_assoc, List.cons_append] at step later ⊢
      rw [step, later, Place.past_append place, Place.past_break _ ends, ← List.append_assoc more,
        Place.past_append _ (more ++ spaces indent)]
      simp

/-! The header of a block tells what its lines do not. -/

/-- How a header tells the chomping. -/
def chompSign : Chomping → List Char
  | .strip => ['-']
  | .clip => []
  | .keep => ['+']

/-- Whether a header tells the indentation. -/
def isHinted (text : List Char) : Bool := text.head?.any fun c => c = ' ' || isBreak c

/-- A header is read with what it tells. -/
theorem readHeader_hint (hinted : Bool) (chomping : Chomping) (rest : List Char) :
    readHeader true ((if hinted then ['2'] else []) ++ chompSign chomping ++ '\n' :: rest) =
      some (⟨true, chomping, if hinted then some 2 else none⟩,
        ((if hinted then ['2'] else []) ++ chompSign chomping).length) := by
  cases hinted <;> cases chomping <;> rfl

/-- Behind the last letter of a text stand its last breaks. -/
theorem mem_breaks {front back breaks : List Char} {c d : Char}
    (split : front ++ [d] = back ++ c :: breaks) (broken : isBreak d = true)
    (letter : isBreak c = false) : ∃ more, breaks = more ++ [d] ∧ front = back ++ c :: more := by
  rcases List.eq_nil_or_concat breaks with rfl | ⟨more, e, rfl⟩
  · obtain ⟨-, rfl⟩ := List.append_singleton_inj.mp split
    cases broken.symm.trans letter
  · rw [List.concat_eq_append, ← List.cons_append, ← List.append_assoc] at split
    obtain ⟨same, rfl⟩ := List.append_singleton_inj.mp split
    exact ⟨more, List.concat_eq_append, same⟩

/-- The chomping that a header tells keeps the breaks at the end of a text. -/
theorem exists_chomping {text : List Char} (nonempty : text ≠ []) :
    ∃ chomping, chompHint text = chompSign chomping ∧ Chomps chomping text ∧
      ((∀ c ∈ text, isBreak c = true) → chomping = .keep) := by
  obtain ⟨front, d, rfl⟩ : ∃ front d, text = front ++ [d] :=
    ⟨_, _, (List.dropLast_concat_getLast nonempty).symm⟩
  have reversed : (front ++ [d]).reverse = d :: front.reverse := by simp
  cases broken : isBreak d with
  | false =>
    -- No break stands behind the last letter.
    refine ⟨.strip, ?_, fun back c breaks split letter all blank => ?_, fun all => ?_⟩
    · rw [chompHint, reversed]
      split <;> simp_all [chompSign]
    · rcases List.eq_nil_or_concat breaks with rfl | ⟨more, e, rfl⟩
      · rfl
      · rw [List.concat_eq_append, ← List.cons_append, ← List.append_assoc] at split
        obtain ⟨-, rfl⟩ := List.append_singleton_inj.mp split
        cases broken.symm.trans (all d (by simp))
    · cases broken.symm.trans (all d (by simp))
  | true =>
    have keeps : Chomps .keep (front ++ [d]) := by
      intro back c breaks split letter all blank
      obtain ⟨more, rfl, -⟩ := mem_breaks split broken letter
      have filled : closing (more ++ [d]) = more ++ [d] := if_neg (by simp)
      rw [filled]
      exact List.take_append_drop 1 _
    cases behind : front.reverse with
    -- The text is one break and nothing else.
    | nil =>
      refine ⟨.keep, ?_, keeps, fun _ => rfl⟩
      rw [chompHint, reversed, behind]
      simp [broken, chompSign]
    | cons b rest =>
      have last : front = rest.reverse ++ [b] := by
        rw [← List.reverse_reverse front, behind, List.reverse_cons]
      cases twice : isBreak b with
      -- More than one break stands behind the last letter, and all of them are kept.
      | true =>
        refine ⟨.keep, ?_, keeps, fun _ => rfl⟩
        rw [chompHint, reversed, behind]
        simp [broken, twice, chompSign]
      | false =>
        -- Exactly one break stands behind the last letter.
        refine ⟨.clip, ?_, fun back c breaks split letter all blank => ?_, fun all => ?_⟩
        · rw [chompHint, reversed, behind]
          simp [broken, twice, chompSign]
        · obtain ⟨more, rfl, same⟩ := mem_breaks split broken letter
          rcases List.eq_nil_or_concat more with rfl | ⟨more, e, rfl⟩
          · rfl
          · rw [last, List.concat_eq_append, ← List.cons_append, ← List.append_assoc] at same
            obtain ⟨-, rfl⟩ := List.append_singleton_inj.mp same
            cases twice.symm.trans (all b (by simp))
        · cases twice.symm.trans (all b (by simp [last]))

/-- The header of a literal block. -/
def literalHeader (hinted : Bool) (chomping : Chomping) : List Char :=
  (if hinted then ['2'] else []) ++ chompSign chomping

/-- The indentation that a header tells. -/
def told (hinted : Bool) (outer : Nat) : Option Nat := if hinted then some (outer + 2) else none

/-- What is read behind the header of a literal block. -/
def readText (hinted : Bool) (chomping : Chomping) (outer : Nat) (rest : List Char)
    (place : Place) : Option (List Char × Cursor) :=
  (readEmptyLines (told hinted outer) 0 rest place).bind fun empties =>
    readBlockLines ⟨true, chomping, if hinted then some 2 else none⟩
      ((told hinted outer).getD (max empties.widest (outer + 1))) (rest.length + 1)
      ⟨[], empties.breaks, false⟩ empties.cursor

/-- The lines of a literal block are looked for behind its header. -/
theorem readBlock_header (hinted : Bool) (chomping : Chomping) (outer : Nat) (rest : List Char) :
    readBlock true outer ⟨literalHeader hinted chomping ++ '\n' :: rest, place⟩ =
      readText hinted chomping outer rest
        (place.past (literalHeader hinted chomping ++ ['\n'])) := by
  have header := readHeader_hint hinted chomping rest
  rw [readBlock]
  rw [← literalHeader] at header
  simp only [header]
  have shown : ∀ c ∈ literalHeader hinted chomping, isBreak c = false := by
    cases hinted <;> cases chomping <;> simp [literalHeader, chompSign, isBreak]
  have behind : ((⟨literalHeader hinted chomping ++ '\n' :: rest, place⟩ : Cursor).skip
      (literalHeader hinted chomping).length) =
      ⟨'\n' :: rest, place.past (literalHeader hinted chomping)⟩ := by
    rw [Place.past_unbroken place shown]
    simp [Cursor.skip]
  have spanned (place : Place) : (⟨'\n' :: rest, place⟩ : Cursor).span isBlank =
      ([], ⟨'\n' :: rest, place⟩) := rfl
  have uncommented (place : Place) : (⟨'\n' :: rest, place⟩ : Cursor).skipComment =
      ⟨'\n' :: rest, place⟩ := by simp [Cursor.skipComment]
  have next (place : Place) : (⟨'\n' :: rest, place⟩ : Cursor).skipBreak =
      ⟨rest, place.down 1⟩ := rfl
  -- Without a hint the block is at least one column deeper than what is around it.
  have deeper : max ((outer : Int) + 1).toNat 1 = outer + 1 := by omega
  have known : Option.map (fun n => ((max (outer : Int) 0).toNat + n))
      (if hinted then some 2 else none) = told hinted outer := by
    cases hinted <;> simp [told]
  simp only [Option.bind_eq_bind, Option.bind_some, behind, spanned, uncommented, next, endsLine,
    known, deeper, Place.past_append]
  rfl

/-- The first letters of a literal block stand at its indentation. -/
theorem readEmptyLines_literal {outer : Nat} {tail rest : List Char} (printed : IsPrinted text)
    (split : text = breaks ++ tail) (all : ∀ c ∈ breaks, isBreak c = true)
    (letter : ∀ c, tail.head? = some c → isBreak c = false) (nonempty : tail ≠ [])
    (column : place.column = 0) :
    ∃ wide, readEmptyLines (told (isHinted text) outer) 0
        (breaks ++ (spaces (outer + 2) ++ (literalLines (outer + 2) false tail ++ rest))) place =
      some ⟨breaks, wide, ⟨literalLines (outer + 2) false tail ++ rest,
        place.past (breaks ++ spaces (outer + 2))⟩⟩ ∧
      (told (isHinted text) outer).getD (max wide (outer + 1)) = outer + 2 := by
  cases hinted : isHinted text with
  | true =>
    obtain ⟨wide, passed⟩ := @readEmptyLines_breaks (outer + 2) (outer + 2) 0 place breaks
      (literalLines (outer + 2) false tail ++ rest)
      (fun c inside => printed c (by simp [split, inside])) all
      (endsSpaces_literalLines _ nonempty letter rest) (Nat.le_refl _) column
    exact ⟨wide, passed, rfl⟩
  | false =>
    -- Without a hint the text starts with a letter, which tells the indentation.
    obtain rfl : breaks = [] := by
      cases breaks with
      | nil => rfl
      | cons c breaks => simp [isHinted, split, all c] at hinted
    have word : AtWord (literalLines (outer + 2) false tail ++ rest) := by
      intro c first
      rw [head?_literalLines _ nonempty letter] at first
      have printable := printed c (split ▸ List.mem_of_head? first)
      simp only [isHinted, split, List.nil_append, first, Option.any_some, Bool.or_eq_false_iff,
        decide_eq_false_iff_not] at hinted
      exact isGap_of_printable printable hinted.1 hinted.2
    have passed := @readEmptyLines_first (outer + 2) place _ word
    rw [column, Nat.zero_add] at passed
    exact ⟨outer + 2, passed, by simp [told]⟩

/-- A text of breaks has no line, and its breaks are those in front of the next token. -/
theorem readText_breaks {outer : Nat} {next : List Char} (token : AtToken next)
    (shallow : count < outer + 2) (printed : IsPrinted text) (nonempty : text ≠ [])
    (all : ∀ c ∈ text, isBreak c = true) (column : place.column = 0) :
    readText true .keep outer
        (literalLines (outer + 2) true text ++ (gapOf (!isEnded text) count ++ next)) place =
      some (text, ⟨next, place.past (literalLines (outer + 2) true text ++
        gapOf (!isEnded text) count)⟩) := by
  have written := @literalLines_breaks text (outer + 2) true (.inl rfl) all []
  rw [List.append_nil, literalLines, List.append_nil] at written
  obtain ⟨wide, passed⟩ := @readEmptyLines_breaks (outer + 2) count 0 place text next printed all
    token.endsSpaces (Nat.le_of_lt shallow) column
  have away := place.column_past_lines nonempty all count
  rw [written, isEnded_breaks nonempty all]
  simp only [readText, gapOf, Bool.not_true, Bool.false_eq_true, ↓reduceIte, List.nil_append, told,
    passed, Option.bind_some, Option.getD_some]
  rw [readBlockLines_end (by omega)]
  rfl

/-- A text with a letter is read line by line up to the next token. -/
theorem readText_lines {outer : Nat} {tail next : List Char} {chomping : Chomping}
    (token : AtToken next) (shallow : count < outer + 2) (printed : IsPrinted text)
    (split : text = breaks ++ tail) (all : ∀ c ∈ breaks, isBreak c = true)
    (letter : ∀ c, tail.head? = some c → isBreak c = false) (nonempty : tail ≠ [])
    (chomps : Chomps chomping text) (column : place.column = 0) :
    readText (isHinted text) chomping outer
        (literalLines (outer + 2) true text ++ (gapOf (!isEnded text) count ++ next)) place =
      some (text, ⟨next, place.past (literalLines (outer + 2) true text ++
        gapOf (!isEnded text) count)⟩) := by
  have lines : literalLines (outer + 2) true text =
      breaks ++ (spaces (outer + 2) ++ literalLines (outer + 2) false tail) := by
    rw [split, literalLines_breaks _ (.inl rfl) all, literalLines_line _ nonempty letter]
  have ended : isEnded text = isEnded tail := by rw [split, isEnded_append _ nonempty]
  -- The breaks in front of the first letter are read first, and they tell the indentation.
  obtain ⟨wide, passed, indented⟩ := @readEmptyLines_literal place breaks text outer tail
    (gapOf (!isEnded tail) count ++ next) printed split all letter nonempty column
  have part : Chomps chomping tail := (split ▸ chomps : Chomps chomping (breaks ++ tail)).tail
  have enough : tail.length < (breaks ++ (spaces (outer + 2) ++ (literalLines (outer + 2) false tail
      ++ (gapOf (!isEnded tail) count ++ next)))).length + 1 := by
    have longer := length_le_literalLines (outer + 2) false tail
    simp only [List.length_append]
    omega
  have read := @readBlockLines_text (outer + 2) count (place.past (breaks ++ spaces (outer + 2)))
    tail ⟨true, chomping, if isHinted text then some 2 else none⟩ _ ⟨[], breaks, false⟩ rfl next
    token shallow enough (fun c inside => printed c (by simp [split, inside])) part nonempty letter
    (Place.column_past_start column all (outer + 2))
  rw [readText, lines, ended]
  simp only [List.append_assoc] at passed read ⊢
  rw [passed, Option.bind_some, indented, read, ← Place.past_append, split]
  simp

/-- A literal block is read back inside a block that is two columns less indented. -/
theorem readBlock_literal {outer : Nat} {next : List Char} (token : AtToken next)
    (shallow : count < outer + 2) (printed : IsPrinted text) (nonempty : text ≠ []) :
    readBlock true outer ⟨indentHint text ++ chompHint text ++ '\n' ::
        (literalLines (outer + 2) true text ++ (gapOf (!isEnded text) count ++ next)), place⟩ =
      some (text, ⟨next, place.past (indentHint text ++ chompHint text ++
        '\n' :: (literalLines (outer + 2) true text ++ gapOf (!isEnded text) count))⟩) := by
  obtain ⟨chomping, sign, chomps, keeps⟩ := exists_chomping nonempty
  have header : indentHint text ++ chompHint text = literalHeader (isHinted text) chomping := by
    rw [sign]
    rfl
  have column : (place.past (literalHeader (isHinted text) chomping ++ ['\n'])).column = 0 := by
    rw [Place.past_append, Place.past_break _ (by decide)]
    rfl
  have behind : place.past (literalHeader (isHinted text) chomping ++
      '\n' :: (literalLines (outer + 2) true text ++ gapOf (!isEnded text) count)) =
      (place.past (literalHeader (isHinted text) chomping ++ ['\n'])).past
        (literalLines (outer + 2) true text ++ gapOf (!isEnded text) count) := by
    rw [← Place.past_append]
    simp
  rw [header, readBlock_header, behind]
  -- Text of breaks alone has no line to measure, so its indentation is told in the header.
  obtain ⟨breaks, tail, split, all, letter⟩ := exists_front isBreak text
  by_cases blank : tail = []
  · rw [blank, List.append_nil] at split
    subst split
    obtain rfl := keeps all
    have hinted : isHinted text = true := by
      obtain ⟨c, more, rfl⟩ := List.exists_cons_of_ne_nil nonempty
      simp [isHinted, all c]
    rw [hinted] at column ⊢
    exact readText_breaks token shallow printed nonempty all column
  · exact readText_lines token shallow printed split all letter blank chomps column

/-- A text in literal style. -/
def renderLiteral (indent : Nat) (text : List Char) : List Char :=
  '|' :: (indentHint text ++ chompHint text ++ '\n' :: literalLines indent true text)

/-- The last break of a text is the last character of its lines. -/
theorem exists_literalLines_concat (indent : Nat) (broken : Bool) (front : List Char) {d : Char}
    (ends : isBreak d = true) :
    ∃ before, literalLines indent broken (front ++ [d]) = before ++ [d] := by
  induction front generalizing broken with
  | nil => exact ⟨[], by simp [literalLines, ends]⟩
  | cons c front ih =>
    rw [List.cons_append, literalLines]
    split
    · obtain ⟨before, split⟩ := ih true
      exact ⟨c :: before, by rw [split, List.cons_append]⟩
    · obtain ⟨before, split⟩ := ih false
      exact ⟨_ ++ c :: before, by rw [split, ← List.cons_append, List.append_assoc]⟩

/-- Behind a literal block a new line starts. -/
theorem column_past_literal (place : Place) (indent count : Nat) (text : List Char) :
    (place.past (renderLiteral indent text ++ gapOf (!isEnded text) count)).column = count := by
  cases ended : isEnded text with
  -- The gap behind the block starts the line.
  | false =>
    rw [Place.past_append]
    exact Place.column_past_lines _ (List.cons_ne_nil '\n' []) (by simp [isBreak]) count
  | true =>
    -- The last line was ended by the last break of the text.
    obtain ⟨front, d, rfl⟩ : ∃ front d, text = front ++ [d] := by
      refine ⟨_, _, (List.dropLast_concat_getLast (?_ : text ≠ [])).symm⟩
      rintro rfl
      cases ended
    have broken : isBreak d = true := by simpa [isEnded] using ended
    obtain ⟨before, split⟩ := exists_literalLines_concat indent true front broken
    have lines := Place.column_past_lines (place.past ('|' :: (indentHint (front ++ [d]) ++
      chompHint (front ++ [d]) ++ '\n' :: before))) (List.cons_ne_nil d [])
      (by simpa using broken) count
    rw [← Place.past_append] at lines
    simpa [renderLiteral, split, gapOf] using lines

/-- A literal block is read up to the next token, in front of which a key may start. -/
theorem Lexer.block_literal {frame : Frame} {allows : Bool} {outer : Nat} {next : List Char}
    (indented : frame.indent = outer) (token : AtToken next) (shallow : count < outer + 2)
    (printed : IsPrinted text) (nonempty : text ≠ []) :
    (frame.lexer allows none
        ⟨renderLiteral (outer + 2) text ++ (gapOf (!isEnded text) count ++ next), place⟩).token =
      some ((frame.put [.scalar false (String.ofList text)]).lexer true none
        ⟨next, place.past (renderLiteral (outer + 2) text ++ gapOf (!isEnded text) count)⟩) := by
  have read := @readBlock_literal count (place.along 1) text outer next token shallow printed
    nonempty
  rw [← indented] at read
  rw [renderLiteral, List.cons_append, List.cons_append, Place.past_letter _ (by decide)]
  simp only [List.append_assoc, List.cons_append] at read ⊢
  -- Nothing but a literal block opens with a bar.
  have dispatched : ∀ rest, (frame.lexer allows none ⟨'|' :: rest, place⟩).token =
      (frame.lexer allows none ⟨'|' :: rest, place⟩).block true := by
    intro rest
    rw [Lexer.token]
    simp [Frame.lexer, Cursor.isAtMarker, List.isPrefixOf, inFlow]
  rw [dispatched, block]
  simp only [Frame.lexer, dropKey, Option.any_none, Bool.false_eq_true, ↓reduceIte,
    Option.bind_eq_bind, Option.bind_some, Cursor.skip, List.drop_succ_cons, List.drop_zero]
  rw [read]
  rfl

end SyncStore.Yaml
