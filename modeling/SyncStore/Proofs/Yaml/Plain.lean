import SyncStore.Proofs.Yaml.Lexer

/-! Plain text is read as it was printed, up to the line break or the colon behind it. -/

namespace SyncStore.Yaml

/-- A condition that holds at no place holds at none of the places of a text. -/
theorem not_holds_of_hasPlace {holds : Option Char → List Char → Bool} {before : Option Char}
    {text : List Char} (nowhere : hasPlace holds before text = false) {front rest : List Char}
    {c : Char} (split : text = front ++ c :: rest) :
    holds (front.getLast?.or before) (c :: rest) = false := by
  -- The induction is on what stands in front of the place, and `before` is what was passed last.
  induction front generalizing text before with
  | nil =>
    subst split
    simp only [List.nil_append, hasPlace, Bool.or_eq_false_iff] at nowhere
    exact nowhere.1
  | cons d front ih =>
    subst split
    simp only [List.cons_append, hasPlace, Bool.or_eq_false_iff] at nowhere
    have later := ih nowhere.2 rfl
    -- The character before the place is the last one in front of it.
    rw [List.getLast?_cons]
    cases ends : front.getLast? with
    | none => simpa [ends] using later
    | some last => simpa [ends] using later

/--
Text on one line that nothing inside of it ends.

- `letters`: spaces are its only gaps
- `joined`: a colon goes on with a word
- `hashed`: no comment starts behind a space
-/
structure IsLine (text : List Char) : Prop where
  letters : ∀ c ∈ text, isGap c = true → c = ' '
  joined : ∀ front rest, text = front ++ ':' :: rest → endsWord rest = false
  hashed : ∀ front rest, text = front ++ ' ' :: '#' :: rest → False

/-- What is behind the front of a line is a line. -/
theorem IsLine.tail {front text : List Char} (line : IsLine (front ++ text)) : IsLine text where
  letters c inside := line.letters c (List.mem_append_right _ inside)
  joined before rest split := line.joined (front ++ before) rest (by rw [split, List.append_assoc])
  hashed before rest split := line.hashed (front ++ before) rest (by rw [split, List.append_assoc])

/-- Text that starts with a space and does not end in one has a letter behind its first spaces. -/
theorem exists_spaces {text : List Char} (starts : text.head? = some ' ')
    (ends : text.getLast? ≠ some ' ') :
    ∃ count rest, text = spaces count ++ rest ∧ 0 < count ∧ rest ≠ [] ∧ rest.head? ≠ some ' ' ∧
      rest.getLast? ≠ some ' ' := by
  induction text with
  | nil => cases starts
  | cons c tail ih =>
    obtain rfl : c = ' ' := by simpa using starts
    cases tail with
    | nil => simp at ends
    | cons d tail =>
      rw [List.getLast?_cons_cons] at ends
      -- Either another space follows, or the letter that was looked for.
      by_cases space : d = ' '
      · obtain ⟨count, rest, split, -, letter⟩ := ih (by simp [space]) ends
        exact ⟨count + 1, rest, by rw [split]; rfl, Nat.succ_pos _, letter⟩
      · exact ⟨1, d :: tail, rfl, Nat.one_pos, by simp, by simpa using space, ends⟩

/-- A line is made of words with spaces between them. -/
theorem exists_word {text : List Char} (nonempty : text ≠ []) (starts : text.head? ≠ some ' ')
    (ends : text.getLast? ≠ some ' ') :
    ∃ word count rest, text = word ++ (spaces count ++ rest) ∧ word ≠ [] ∧ (∀ c ∈ word, c ≠ ' ') ∧
      (rest = [] ∧ count = 0 ∨
        0 < count ∧ rest ≠ [] ∧ rest.head? ≠ some ' ' ∧ rest.getLast? ≠ some ' ') := by
  induction text with
  | nil => exact absurd rfl nonempty
  | cons c tail ih =>
    have letter : c ≠ ' ' := by simpa using starts
    cases tail with
    | nil => exact ⟨[c], 0, [], rfl, by simp, by simpa using letter, .inl ⟨rfl, rfl⟩⟩
    | cons d tail =>
      rw [List.getLast?_cons_cons] at ends
      by_cases space : d = ' '
      · -- The word ends in front of the first space.
        obtain ⟨count, rest, split, behind⟩ := exists_spaces (by simp [space]) ends
        exact ⟨[c], count, rest, by rw [split]; rfl, by simp, by simpa using letter, .inr behind⟩
      · obtain ⟨word, count, rest, split, -, letters, behind⟩ :=
          ih (by simp) (by simpa using space) ends
        refine ⟨c :: word, count, rest, by rw [split]; rfl, by simp, ?_, behind⟩
        exact List.forall_mem_cons.mpr ⟨letter, letters⟩

/-- A text that a run of a plain scalar ends in front of. -/
def StopsRun (text : List Char) : Prop := plainRun false text = some []

/-- A word without gaps is a run, unless it ends in a colon. -/
theorem plainRun_word {word rest : List Char} (letters : ∀ c ∈ word, isGap c = false)
    (ends : word.getLast? ≠ some ':') (stops : StopsRun rest) :
    plainRun false (word ++ rest) = some word := by
  induction word with
  | nil => exact stops
  | cons c word ih =>
    have letter := letters c List.mem_cons_self
    have later : plainRun false (word ++ rest) = some word := by
      refine ih (fun d inside => letters d (List.mem_cons_of_mem _ inside)) ?_
      cases word with
      | nil => simp
      | cons d word => simpa using ends
    -- A colon is followed by another letter of the word.
    have inner : (c = ':' && endsWord (word ++ rest)) = false := by
      cases word with
      | nil =>
        have other : c ≠ ':' := by simpa using ends
        simp [other]
      | cons d word =>
        have next := letters d (by simp)
        simp [endsWord, next]
    rw [List.cons_append, plainRun]
    simp only [letter, Bool.false_eq_true, ↓reduceIte, Bool.false_and, inner, later,
      Option.map_some]

/--
What ends a plain scalar: a gap that it does not go on behind, or no gap at all.

- `stops`: the last word ends in front of it
- `gap`: the gap is passed up to `behind`, which is less indented than the scalar if lines differ
-/
structure EndsPlain (indent : Nat) (ending passed behind : List Char) (folded : Bool) : Prop where
  stops : StopsRun ending
  gap : ∀ place, ∃ gap, readGap indent false ending place = some gap ∧
    gap.cursor = ⟨behind, place.past passed⟩ ∧ gap.breaks.isEmpty = !folded ∧
    if folded then (place.past passed).column < indent else gap.blanks = []

/-- A word of a line does not end in a colon. -/
theorem IsLine.uncoloned {word rest : List Char} (line : IsLine (word ++ rest))
    (ends : endsWord rest = true) : word.getLast? ≠ some ':' := by
  intro colon
  obtain ⟨front, split⟩ := List.getLast?_eq_some_iff.mp colon
  have goes := line.joined front rest (by rw [split]; simp)
  cases goes.symm.trans ends

/-- Behind spaces of a line no comment starts. -/
theorem IsLine.uncommented {word rest : List Char} {count : Nat}
    (line : IsLine (word ++ (spaces (count + 1) ++ rest))) : rest.head? ≠ some '#' := by
  intro hash
  obtain ⟨tail, rfl⟩ := List.head?_eq_some_iff.mp hash
  refine line.hashed (word ++ spaces count) tail ?_
  simp [spaces, List.replicate_succ']

/-- Behind its first spaces a line goes on with a word. -/
theorem IsLine.atWord {text : List Char} (line : IsLine text) (nonempty : text ≠ [])
    (first : text.head? ≠ some ' ') (ending : List Char) : AtWord (text ++ ending) := by
  intro c starting
  obtain ⟨d, tail, rfl⟩ := List.exists_cons_of_ne_nil nonempty
  obtain rfl : d = c := by simpa using starting
  by_contra gap
  exact first (by simpa using line.letters d (by simp) (by simpa using gap))

section

variable {indent steps : Nat} {joint word rest : List Char} {before : Bool} {place : Place}

/-- The gap behind a word tells whether a plain scalar goes on. -/
theorem readPlain_word (filled : word ≠ []) (letters : ∀ c ∈ word, isGap c = false)
    (run : plainRun false (word ++ rest) = some word) (noComment : word.head? ≠ some '#')
    (noMarker : Cursor.isAtMarker ⟨word ++ rest, place⟩ = false) {gap : Gap}
    (found : readGap indent false rest (place.past word) = some gap) :
    readPlain false indent (steps + 1) joint before ⟨word ++ rest, place⟩ =
      if (gap.blanks.isEmpty && gap.breaks.isEmpty) ||
          (!gap.breaks.isEmpty && gap.cursor.place.column < indent) then
        some (⟨joint ++ word, !gap.breaks.isEmpty⟩, gap.cursor)
      else
        (readPlain false indent steps gap.joined (!gap.breaks.isEmpty) gap.cursor).map
          fun (found, cursor) => (⟨joint ++ word ++ found.text, found.isFolded⟩, cursor) := by
  have behind : Cursor.skip ⟨word ++ rest, place⟩ word.length = ⟨rest, place.past word⟩ := by
    rw [place.past_unbroken fun c inside => (Bool.or_eq_false_iff.mp (letters c inside)).2]
    simp [Cursor.skip]
  -- The run is not empty, which decides the branch that the reader takes behind it.
  obtain ⟨c, tail, rfl⟩ := List.exists_cons_of_ne_nil filled
  have notHash : (c :: tail ++ rest).head? ≠ some '#' := by simpa using noComment
  rw [readPlain]
  simp only [noMarker, notHash, decide_false, Bool.or_self, Bool.false_eq_true, ↓reduceIte, run,
    behind, found, Bool.not_not, Bool.not_false, Bool.and_true]

end

/-- A line is read as plain text up to what ends it. -/
theorem readPlain_line {indent : Nat} {ending passed behind : List Char} {folded : Bool}
    (closes : EndsPlain indent ending passed behind folded) {steps : Nat} {text : List Char}
    (enough : text.length < steps) (line : IsLine text) (nonempty : text ≠ [])
    (starts : text.head? ≠ some ' ') (ends : text.getLast? ≠ some ' ')
    (noComment : text.head? ≠ some '#') {place : Place}
    (noMarker : Cursor.isAtMarker ⟨text ++ ending, place⟩ = false) (joint : List Char)
    (before : Bool) :
    readPlain false indent steps joint before ⟨text ++ ending, place⟩ =
      some (⟨joint ++ text, folded⟩, ⟨behind, place.past (text ++ passed)⟩) := by
  -- The induction is on the steps that are left, word by word, with what joins the words.
  induction steps generalizing text place joint before with
  | zero => omega
  | succ steps ih =>
    obtain ⟨word, count, rest, rfl, filled, letters, more⟩ := exists_word nonempty starts ends
    -- The only gaps of a line are spaces, and the word has none.
    have unbroken : ∀ c ∈ word, isGap c = false := by
      intro c inside
      by_contra gap
      exact letters c inside (line.letters c (by simp [inside]) (by simpa using gap))
    have noHash : word.head? ≠ some '#' := by
      obtain ⟨c, tail, rfl⟩ := List.exists_cons_of_ne_nil filled
      simpa using noComment
    rcases more with ⟨rfl, rfl⟩ | ⟨some, left, first, last⟩
    · -- The last word is followed by what ends the scalar.
      simp only [spaces, List.replicate_zero, List.append_nil] at line noMarker ⊢
      have noColon := @IsLine.uncoloned word [] (by simpa using line) rfl
      have run := plainRun_word unbroken noColon closes.stops
      obtain ⟨gap, found, cursor, breaks, shallow⟩ := closes.gap (place.past word)
      rw [readPlain_word filled unbroken run noHash noMarker found, cursor, breaks]
      cases folded with
      | true => simp_all [Place.past_append]
      | false => simp_all [Place.past_append]
    · -- Another word follows behind the spaces.
      obtain ⟨count, rfl⟩ := Nat.exists_eq_add_one_of_ne_zero (Nat.ne_of_gt some)
      have space : spaces (count + 1) = ' ' :: spaces count := rfl
      have part : IsLine ((word ++ spaces (count + 1)) ++ rest) := by simpa using line
      have noColon := line.uncoloned (by rw [space]; rfl)
      have run : plainRun false (word ++ (spaces (count + 1) ++ (rest ++ ending))) = .some word :=
        plainRun_word unbroken noColon (by rw [space]; rfl)
      have found := readGap_spaces indent false (count + 1) (part.tail.atWord left first ending)
        (place.past word)
      -- Markers stand at the start of a line, and this word does not.
      have unmarked : Cursor.isAtMarker
          ⟨rest ++ ending, (place.past word).past (spaces (count + 1))⟩ = false := by
        simp [Cursor.isAtMarker, Place.past_spaces, Place.along]
      have fewer : rest.length < steps := by
        simp only [List.length_append, spaces, List.length_replicate] at enough
        omega
      have later := ih fewer part.tail left first last line.uncommented unmarked
        (spaces (count + 1)) false
      simp only [List.append_assoc] at noMarker ⊢
      rw [readPlain_word filled unbroken run noHash noMarker found]
      simp only [Bool.false_eq_true, ↓reduceIte, List.isEmpty_nil, Bool.not_true, Bool.and_true,
        Bool.false_and, Bool.or_false, Gap.joined]
      rw [if_neg (by simp [space]), later]
      simp [Place.past_append]

/-- The column behind the start of a line is its indentation. -/
theorem column_past_line (place : Place) (count : Nat) :
    (place.past ('\n' :: spaces count)).column = count := by
  rw [Place.past_break _ (by decide), Place.past_spaces]
  simp [Place.along, Place.down]

/-- A line that is not indented like the scalar ends it. -/
theorem endsPlain_line {indent count : Nat} {text : List Char} (shallow : count < indent)
    (word : AtWord text) :
    EndsPlain indent ('\n' :: (spaces count ++ text)) ('\n' :: spaces count) text true where
  stops := rfl
  gap place := by
    have passed := @readGap_breaks indent false ['\n'] (by simp; decide) (by simp [isBreak])
      (by simp) count text word place
    exact ⟨_, passed, rfl, rfl, (column_past_line place count).symm ▸ shallow⟩

/-- A colon in front of a gap ends a scalar. -/
theorem endsPlain_colon {indent : Nat} {rest : List Char} (ends : endsWord rest = true) :
    EndsPlain indent (':' :: rest) [] (':' :: rest) false where
  stops := by simp [StopsRun, plainRun, isGap, isBlank, isBreak, ends]
  gap place := by
    have word : AtWord (':' :: rest) := by
      intro c colon
      cases colon
      decide
    exact ⟨_, readGap_word indent false word place, rfl, rfl, rfl⟩

/--
Text that is printed as it is.

- `line`: it is a line
- `starts`: its first character starts a plain scalar there
- `ends`: no space stands at its end
- `unmarked`: it does not start like a marker
-/
structure IsPlain (text : List Char) : Prop where
  line : IsLine text
  starts : ∃ c rest, text = c :: rest ∧ isIndicator none (c :: rest) = false ∧ isGap c = false ∧
    c ≠ '\uFEFF'
  ends : text.getLast? ≠ some ' '
  unmarked : startsMarker text = false

/-- A text that plain style allows is plain, unless it is empty. -/
theorem isPlain_of_allowed {text : List Char} (nonempty : text ≠ [])
    (allowed : allowsPlain text = true) : IsPlain text := by
  simp only [allowsPlain, Bool.and_eq_true, Bool.not_eq_true'] at allowed
  obtain ⟨⟨⟨⟨unbroken, printable⟩, edged⟩, unmarked⟩, nowhere⟩ := allowed
  have gaps : ∀ c ∈ text, isGap c = true → c = ' ' := by
    intro c inside gap
    have noBreak : isBreak c = false := by
      simpa using List.any_eq_false.mp unbroken c inside
    simp only [isGap, noBreak, Bool.or_false] at gap
    exact (isBlank_of_printable (List.all_eq_true.mp printable c inside)).mp gap
  simp only [isEdged, Bool.or_eq_false_iff] at edged
  refine ⟨⟨gaps, fun front rest split => ?_, fun front rest split => ?_⟩, ?_, ?_, unmarked⟩
  · -- A colon is no indicator only in front of a word, wherever it stands.
    have none := not_holds_of_hasPlace nowhere split
    cases ends : front.getLast? <;> simpa [isIndicator, ends] using none
  · -- A hash is an indicator behind every space.
    have none := @not_holds_of_hasPlace _ _ _ nowhere (front ++ [' ']) _ _ (by simpa using split)
    simp [isIndicator, isGap, isBlank] at none
  · obtain ⟨c, rest, rfl⟩ := List.exists_cons_of_ne_nil nonempty
    refine ⟨c, rest, rfl, @not_holds_of_hasPlace _ _ _ nowhere [] _ _ rfl, ?_, ?_⟩
    · by_contra gap
      have space := gaps c (by simp) (by simpa using gap)
      simp [space] at edged
    · rintro rfl
      have mark := List.all_eq_true.mp printable '\uFEFF' (by simp)
      cases isPrintable_mark.symm.trans mark
  · intro space
    simp [space] at edged

namespace Lexer

/-- Text that goes on with a word does so whatever follows it. -/
theorem endsWord_append {text : List Char} (rest : List Char) (goes : endsWord text = false) :
    endsWord (text ++ rest) = false := by
  cases text with
  | nil => cases goes
  | cons c text => exact goes

/-- A first character that is no indicator is told from all that are. -/
theorem not_indicators {c : Char} {rest : List Char} (none : isIndicator none (c :: rest) = false) :
    (c ≠ '#' ∧ c ≠ ',' ∧ c ≠ '[' ∧ c ≠ ']' ∧ c ≠ '\x7b' ∧ c ≠ '\x7d' ∧ c ≠ '&' ∧ c ≠ '*' ∧
      c ≠ '!' ∧ c ≠ '|' ∧ c ≠ '>' ∧ c ≠ '\'' ∧ c ≠ '"' ∧ c ≠ '%' ∧ c ≠ '@' ∧ c ≠ '`') ∧
    ((c = '?' ∨ c = ':' ∨ c = '-') → endsWord rest = false) := by
  simp only [isIndicator, Bool.or_eq_false_iff] at none
  obtain ⟨reserved, word⟩ := none
  have always : "#,[]\x7b\x7d&*!|>'\"%@`".toList =
      ['#', ',', '[', ']', '\x7b', '\x7d', '&', '*', '!', '|', '>', '\'', '"', '%', '@', '`'] := by
    decide +kernel
  have alone : "?:-".toList = ['?', ':', '-'] := by decide +kernel
  -- The first indicators are ones wherever they stand, the last three only in front of a gap.
  rw [always, List.contains_eq_mem, decide_eq_false_iff_not] at reserved
  rw [alone] at word
  simp only [List.mem_cons, List.not_mem_nil, or_false, not_or] at reserved
  refine ⟨reserved, fun one => ?_⟩
  simpa [List.contains_eq_mem, one] using word

/-- Plain text starts a plain scalar. -/
theorem startsPlain_of_indicator {c : Char} {rest : List Char} (ending : List Char)
    (none : isIndicator none (c :: rest) = false) (letter : isGap c = false) :
    startsPlain false c (rest ++ ending) = true := by
  obtain ⟨others, goes⟩ := not_indicators none
  unfold startsPlain
  by_cases one : c = '?' ∨ c = ':' ∨ c = '-'
  · -- These three go on with a word.
    have next := endsWord_append ending (goes one)
    rcases one with rfl | rfl | rfl
    · simp [next]
    · simp [next]
    · cases behind : rest ++ ending with
      | nil => simp
      | cons d tail =>
        rw [behind] at next
        simp only [endsWord, isGap, Bool.or_eq_false_iff] at next
        simp [next.1]
  · have reserved : isReserved c = false := by
      have all : "-?:,[]\x7b\x7d#&*!|>'\"%@`".toList =
          ['-', '?', ':', ',', '[', ']', '\x7b', '\x7d', '#', '&', '*', '!', '|', '>', '\'', '"',
            '%', '@', '`'] := by decide +kernel
      rw [isReserved, all, List.contains_eq_mem, decide_eq_false_iff_not]
      simp only [not_or] at one
      simp [one, others]
    simp [reserved, letter]

/-- Plain text is a scalar, with whatever ends it. -/
theorem plain_of_line {frame : Frame} {allows : Bool} {text ending passed behind : List Char}
    {folded : Bool} (plain : IsPlain text)
    (closes : EndsPlain (frame.indent + 1).toNat ending passed behind folded) {place : Place}
    (noMarker : Cursor.isAtMarker ⟨text ++ ending, place⟩ = false) :
    (frame.lexer allows none ⟨text ++ ending, place⟩).token =
      some ((frame.put [.scalar true (String.ofList text)]).lexer folded
        (frame.saved allows place) ⟨behind, place.past (text ++ passed)⟩) := by
  obtain ⟨c, rest, rfl, none, letter, -⟩ := plain.starts
  have starts := startsPlain_of_indicator ending none letter
  obtain ⟨⟨hash, comma, opens, shuts, opensMap, shutsMap, amper, star, bang, bar, greater, single,
    double, percent, -, -⟩, goes⟩ := not_indicators none
  have space : (c :: rest).head? ≠ some ' ' := by
    rintro first
    obtain rfl : c = ' ' := by simpa using first
    cases letter
  have enough : (c :: rest).length < (c :: rest ++ ending).length + 1 := by
    rw [List.length_append]
    omega
  have read := readPlain_line closes enough plain.line (by simp) space plain.ends
    (by simpa using hash) noMarker [] false
  -- No other token starts with the first character.
  have dispatched : (frame.lexer allows .none ⟨c :: rest ++ ending, place⟩).token =
      (frame.lexer allows .none ⟨c :: rest ++ ending, place⟩).plain := by
    have dash : (c = '-' && endsWord (rest ++ ending)) = false := by
      by_cases one : c = '-'
      · rw [endsWord_append ending (goes (.inr (.inr one))), Bool.and_false]
      · simp [one]
    have question : (c = '?' && endsWord (rest ++ ending)) = false := by
      by_cases one : c = '?'
      · rw [endsWord_append ending (goes (.inl one)), Bool.and_false]
      · simp [one]
    have colon : (c = ':' && endsWord (rest ++ ending)) = false := by
      by_cases one : c = ':'
      · rw [endsWord_append ending (goes (.inr (.inl one))), Bool.and_false]
      · simp [one]
    rw [List.cons_append] at noMarker ⊢
    rw [token]
    simp only [Frame.lexer, inFlow, List.isEmpty_nil, Bool.not_true,
      percent, noMarker, opens, opensMap, shuts, shutsMap, comma, dash, Bool.false_or, question,
      colon, star, amper, bang, bar, greater, single, double, starts, decide_false, Bool.and_false,
      Bool.false_and, Bool.false_eq_true, ↓reduceIte]
  rw [dispatched, Lexer.plain, Frame.saveKey_lexer]
  simp only [Option.bind_eq_bind, Option.bind_some, Frame.lexer, inFlow, List.isEmpty_nil,
    Bool.not_true] at read ⊢
  rw [read]
  rfl

end Lexer

end SyncStore.Yaml
