import SyncStore.Proofs.Yaml.Place
import SyncStore.Yaml.Token

/-! A lexer outside of brackets goes from token to token, and opens and closes blocks on its way. -/

namespace SyncStore.Yaml

/-- The open blocks of a lexer, and its tokens so far with the last one first. -/
structure Frame where
  indent : Int
  outer : List Int
  tokens : List Token

namespace Frame

/-- A lexer outside of brackets. -/
def lexer (frame : Frame) (allows : Bool) (possible : Option PossibleKey) (cursor : Cursor) :
    Lexer :=
  ⟨cursor, frame.indent, frame.outer, allows, possible, [], frame.tokens⟩

/-- Tokens are put behind those of a frame, in the order of the text. -/
def put (frame : Frame) (tokens : List Token) : Frame :=
  { frame with tokens := tokens.reverse ++ frame.tokens }

/-- A block is entered at a deeper column. -/
def enter (frame : Frame) (column : Nat) (token : Token) : Frame :=
  if frame.indent < column then ⟨column, frame.indent :: frame.outer, token :: frame.tokens⟩
  else frame

/-- Blocks deeper than a column are left. -/
def leave (frame : Frame) (column : Int) : Frame :=
  match Lexer.closeBlocks.close column frame.indent frame.tokens frame.outer with
  | (indent, outer, tokens) => ⟨indent, outer, tokens⟩

@[simp] theorem put_indent (frame : Frame) (tokens : List Token) :
    (frame.put tokens).indent = frame.indent := rfl

/-- Tokens are put one after the other. -/
theorem put_put (frame : Frame) (first second : List Token) :
    (frame.put first).put second = frame.put (first ++ second) := by
  simp [put]

/-- The block of a column that is no less than that of the frame is open behind its entry. -/
theorem enter_indent {frame : Frame} {column : Nat} (within : frame.indent ≤ column)
    (token : Token) : (frame.enter column token).indent = column := by
  unfold enter
  split
  · rfl
  · omega

/-- An open block is not entered again. -/
theorem enter_of_open {frame : Frame} {column : Nat} (opened : frame.indent = column)
    (token : Token) : frame.enter column token = frame := by
  rw [enter, if_neg (by omega)]

/-- No block is left at its own column. -/
theorem leave_of_le {frame : Frame} {column : Int} (within : frame.indent ≤ column) :
    frame.leave column = frame := by
  obtain ⟨indent, outer, tokens⟩ := frame
  cases outer with
  | nil => rfl
  | cons first rest =>
    have shut : ¬ column < indent := by simpa using within
    simp only [leave, Lexer.closeBlocks.close, if_neg shut]

/-- A block is left with its end when the column is less than its own. -/
theorem leave_entered {frame : Frame} {inner : Nat} {column : Int} (deeper : frame.indent < inner)
    (shallow : column < inner) (token : Token) (tokens : List Token) :
    ((frame.enter inner token).put tokens).leave column =
      (frame.put (token :: (tokens ++ [.blockEnd]))).leave column := by
  rw [enter, if_pos deeper]
  simp only [leave, put, Lexer.closeBlocks.close, if_pos shallow]
  simp

/-- What is left once is left. -/
theorem leave_leave (frame : Frame) (column : Int) :
    (frame.leave column).leave column = frame.leave column := by
  obtain ⟨indent, outer, tokens⟩ := frame
  -- The induction is on the blocks around the innermost one, which are left one by one.
  induction outer generalizing indent tokens with
  | nil => rfl
  | cons first rest ih =>
    by_cases shut : column < indent
    · have once : Frame.leave ⟨indent, first :: rest, tokens⟩ column =
          Frame.leave ⟨first, rest, .blockEnd :: tokens⟩ column := by
        simp only [leave, Lexer.closeBlocks.close, if_pos shut]
      rw [once]
      exact ih first (.blockEnd :: tokens)
    · have stays : Frame.leave ⟨indent, first :: rest, tokens⟩ column =
          ⟨indent, first :: rest, tokens⟩ := leave_of_le (by simpa using shut)
      rw [stays, stays]

/-- The next token of a frame, as a key that is required where a block continues. -/
def saved (frame : Frame) (allows : Bool) (place : Place) : Option PossibleKey :=
  if allows then some ⟨frame.indent = place.column, frame.tokens.length, place⟩ else none

/-- Where a key may start, the next token is saved as one. -/
theorem saveKey_lexer (frame : Frame) (allows : Bool) (cursor : Cursor) :
    (frame.lexer allows none cursor).saveKey =
      some (frame.lexer allows (frame.saved allows cursor.place) cursor) := by
  cases allows <;> rfl

end Frame

/-- A text stands at a token when it goes on with neither a gap, a comment nor a byte order mark. -/
def AtToken (text : List Char) : Prop :=
  ∀ c, text.head? = some c → isGap c = false ∧ c ≠ '#' ∧ c ≠ '\uFEFF'

/-- A text stands at a token when its first character is neither of these. -/
theorem atToken_cons {c : Char} {rest : List Char}
    (first : isGap c = false ∧ c ≠ '#' ∧ c ≠ '\uFEFF') : AtToken (c :: rest) := by
  intro d same
  obtain rfl := Option.some.inj same
  exact first

/-- The end of a text stands at a token. -/
theorem atToken_nil : AtToken [] := by
  intro c starts
  cases starts

/-- A text stands at a word when it stands at a token. -/
theorem AtToken.atWord {text : List Char} (token : AtToken text) : AtWord text :=
  fun c starts => (token c starts).1

/-- The start of a line, or a run of spaces on it. -/
def gapOf (lines : Bool) (count : Nat) : List Char := (if lines then ['\n'] else []) ++ spaces count

/-- The next line starts with a gap. -/
theorem lineStart_eq (written : Written) (indent : Nat) :
    lineStart written indent = gapOf (!written.isEnded) indent := by
  unfold lineStart gapOf
  cases written.isEnded <;> rfl

namespace Lexer

variable {frame : Frame} {allows : Bool} {possible : Option PossibleKey} {text : List Char}
  {place : Place}

/-- The spaces in front of a token are all that is passed on its line. -/
theorem span_spaces {holds : Char → Bool} (space : holds ' ' = true)
    (letters : ∀ c, text.head? = some c → holds c = false) (count : Nat) :
    (⟨spaces count ++ text, place⟩ : Cursor).span holds =
      (spaces count, ⟨text, place.past (spaces count)⟩) := by
  have taken : (spaces count ++ text).takeWhile holds = spaces count := by
    rw [List.takeWhile_append_of_pos fun c inside => by rwa [List.eq_of_mem_replicate inside]]
    -- The text itself starts with nothing that is passed.
    cases text with
    | nil => simp
    | cons c rest => rw [List.takeWhile_cons_of_neg (by simp [letters c rfl]), List.append_nil]
  rw [Cursor.span, taken, Place.past_spaces]
  simp [Cursor.skip, spaces]

/-- A text at a token has no comment to skip. -/
theorem skipComment_token (token : AtToken text) :
    (⟨text, place⟩ : Cursor).skipComment = ⟨text, place⟩ := by
  rw [Cursor.skipComment, if_neg]
  exact fun comment => (token '#' comment).2.1 rfl

/-- A token starts with no break. -/
theorem break_not_ahead (token : AtToken text) : text.head?.any isBreak = false := by
  cases text with
  | nil => rfl
  | cons c rest =>
    have word := (token c rfl).1
    simp only [isGap, Bool.or_eq_false_iff] at word
    simpa using word.2

/-- Spaces in front of a token are passed. -/
theorem passGap_spaces (steps count : Nat) (token : AtToken text) :
    (frame.lexer allows possible ⟨spaces count ++ text, place⟩).passGap (steps + 1) =
      frame.lexer allows possible ⟨text, place.past (spaces count)⟩ := by
  have letters : ∀ c, text.head? = some c →
      (c = ' ' || (c = '\t' && (false || !allows))) = false := by
    intro c starts
    have word := (token c starts).1
    simp only [isGap, isBlank, Bool.or_eq_false_iff] at word
    simp only [word.1.1, word.1.2, Bool.false_and, Bool.or_self]
  have passed := @span_spaces text place _ (by simp) letters count
  simp only [passGap, Frame.lexer, inFlow, List.isEmpty_nil, Bool.not_true]
  rw [passed]
  simp only [skipComment_token token, break_not_ahead token, Bool.false_eq_true, ↓reduceIte]
  rfl

/-- A line break in front of a token is passed, and allows a key. -/
theorem passGap_line (steps count : Nat) (token : AtToken text) :
    (frame.lexer allows possible ⟨'\n' :: (spaces count ++ text), place⟩).passGap (steps + 2) =
      frame.lexer true possible ⟨text, place.past ('\n' :: spaces count)⟩ := by
  have passed := @span_spaces ('\n' :: (spaces count ++ text)) place
    (fun c => c = ' ' || (c = '\t' && (false || !allows))) (by simp) (by simp) 0
  have none : spaces 0 = [] := rfl
  rw [none, List.nil_append] at passed
  have rest := @passGap_spaces frame true possible text (place.down 1) steps count token
  rw [passGap]
  simp only [Frame.lexer, inFlow, List.isEmpty_nil, Bool.not_true] at rest ⊢
  rw [passed]
  -- The break is skipped, and the spaces behind it are passed in the next round.
  simp only [Cursor.skipComment, List.head?_cons, Option.some.injEq, Char.reduceEq, ↓reduceIte,
    Option.any_some, isBreak, decide_true, Bool.true_or, moveTo, allowKey, Bool.not_false,
    Bool.or_true, Cursor.skipBreak]
  rw [Place.past_break _ (by decide)]
  exact rest

/-- A gap in front of a token is passed on its line, or over a break that allows a key. -/
theorem passGap_gap (lines : Bool) (count : Nat) (token : AtToken text) :
    (frame.lexer allows possible ⟨gapOf lines count ++ text, place⟩).passGap
        ((gapOf lines count ++ text).length + 1) =
      frame.lexer (allows || lines) possible ⟨text, place.past (gapOf lines count)⟩ := by
  cases lines with
  | true =>
    rw [Bool.or_true]
    exact passGap_line (spaces count ++ text).length count token
  | false =>
    rw [Bool.or_false]
    exact passGap_spaces _ count token

/-- Neither a gap nor a token starts with a byte order mark. -/
theorem passMark_gap (lines : Bool) (count : Nat) (token : AtToken text) :
    (frame.lexer allows possible ⟨gapOf lines count ++ text, place⟩).passMark =
      frame.lexer allows possible ⟨gapOf lines count ++ text, place⟩ := by
  have noMark : (gapOf lines count ++ text).head? ≠ some '\uFEFF' := by
    rcases lines with _ | _
    · cases count with
      -- Without a gap the first character is that of the token.
      | zero => exact fun mark => (token _ mark).2.2 rfl
      | succ count => simp [gapOf, spaces, List.replicate_succ]
    · simp [gapOf]
  refine if_neg fun marked => ?_
  simp only [Bool.and_eq_true, decide_eq_true_eq] at marked
  exact noMark marked.2

/-- A possible key is given up at a place on a later line, because it is not required. -/
def GivenUp (possible : Option PossibleKey) (later : Place) : Prop :=
  ∀ key, possible = some key → key.isRequired = false ∧ key.place.line < later.line

/-- Where no key is possible none has to be kept. -/
theorem givenUp_none (later : Place) : GivenUp none later := by
  intro key saved
  cases saved

/-- Where no key is possible nothing is dropped. -/
theorem dropStale_none (cursor : Cursor) :
    (frame.lexer allows none cursor).dropStale = some (frame.lexer allows none cursor) := by
  simp [dropStale, Frame.lexer]

/-- A possible key that is given up is dropped. -/
theorem dropStale_lost {cursor : Cursor} (lost : GivenUp possible cursor.place) :
    (frame.lexer allows possible cursor).dropStale = some (frame.lexer allows none cursor) := by
  cases possible with
  | none => exact dropStale_none cursor
  | some key =>
    obtain ⟨free, behind⟩ := lost key rfl
    simp [dropStale, Frame.lexer, isStale, behind, free]

/-- A possible key on its own line is kept. -/
theorem dropStale_kept {cursor : Cursor} {key : PossibleKey}
    (near : isStale cursor.place key = false) :
    (frame.lexer allows (some key) cursor).dropStale =
      some (frame.lexer allows (some key) cursor) := by
  simp [dropStale, Frame.lexer, near]

/-- A gap in front of a token is passed, and the blocks that it shows to be over are left. -/
theorem approach_gap (lines : Bool) (count : Nat) (token : AtToken text)
    (lost : GivenUp possible (place.past (gapOf lines count))) :
    (frame.lexer allows possible ⟨gapOf lines count ++ text, place⟩).approach =
      some ((frame.leave (place.past (gapOf lines count)).column).lexer (allows || lines) none
        ⟨text, place.past (gapOf lines count)⟩) := by
  rw [approach, passMark_gap lines count token]
  have passed := @passGap_gap frame allows possible text place lines count token
  rw [show (frame.lexer allows possible ⟨gapOf lines count ++ text, place⟩).cursor.text =
    gapOf lines count ++ text from rfl, passed, dropStale_lost lost]
  rfl

/-- In front of a token without a gap only blocks are left. -/
theorem approach_token (token : AtToken text)
    (lost : GivenUp possible place) :
    (frame.lexer allows possible ⟨text, place⟩).approach =
      some ((frame.leave place.column).lexer allows none ⟨text, place⟩) := by
  have near := @approach_gap frame allows possible text place false 0 token lost
  rw [Bool.or_false] at near
  exact near

/-- Nothing is passed in front of a token, and a possible key near it stays one. -/
theorem approach_kept {key : PossibleKey} (token : AtToken text)
    (near : isStale place key = false) (within : frame.indent ≤ place.column) :
    (frame.lexer allows (some key) ⟨text, place⟩).approach =
      some (frame.lexer allows (some key) ⟨text, place⟩) := by
  have marked := @passMark_gap frame allows (some key) text place false 0 token
  have passed := @passGap_gap frame allows (some key) text place false 0 token
  have none : gapOf false 0 = [] := rfl
  rw [none, List.nil_append] at marked passed
  rw [approach, marked,
    show (frame.lexer allows (some key) ⟨text, place⟩).cursor.text = text from rfl, passed,
    Bool.or_false, show place.past [] = place from rfl, dropStale_kept near]
  exact congrArg some (congrArg (Frame.lexer · allows (some key) ⟨text, place⟩)
    (Frame.leave_of_le within))

/--
One lexer leads to another when they have the same tokens in the end.

The second one has not more text left, so there are steps enough for both.
-/
def Leads (first second : Lexer) : Prop :=
  ∀ steps, first.cursor.text.length < steps →
    ∃ fewer, second.cursor.text.length < fewer ∧ first.run steps = second.run fewer

/-- A lexer leads to itself. -/
theorem Leads.refl (lexer : Lexer) : Leads lexer lexer := fun steps enough => ⟨steps, enough, rfl⟩

/-- What a lexer leads to leads further. -/
theorem Leads.trans {first second third : Lexer} (front : Leads first second)
    (back : Leads second third) : Leads first third := by
  intro steps enough
  obtain ⟨fewer, left, same⟩ := front steps enough
  obtain ⟨last, rest, again⟩ := back fewer left
  exact ⟨last, rest, same.trans again⟩

/-- Lexers in front of the same token lead to each other. -/
theorem Leads.of_approach {first second : Lexer} (same : first.approach = second.approach)
    (shorter : second.cursor.text.length ≤ first.cursor.text.length) : Leads first second := by
  intro steps enough
  refine ⟨steps, Nat.lt_of_le_of_lt shorter enough, ?_⟩
  cases steps with
  | zero => omega
  | succ steps => rw [run, run, same]

/-- A token in front of a lexer leads behind it. -/
theorem Leads.of_token {first ahead second : Lexer} (approached : first.approach = some ahead)
    (some : ahead.cursor.text ≠ []) (passed : ahead.token = .some second)
    (shorter : second.cursor.text.length < first.cursor.text.length) : Leads first second := by
  intro steps enough
  cases steps with
  | zero => omega
  | succ steps =>
    refine ⟨steps, by omega, ?_⟩
    rw [run, approached]
    simp only [List.isEmpty_eq_false_iff.mpr some, Bool.false_eq_true, ↓reduceIte, passed,
      Option.bind_some]

/-- A gap leads behind it. -/
theorem leads_gap (lines : Bool) (count : Nat) (token : AtToken text)
    (lost : GivenUp possible (place.past (gapOf lines count))) :
    (frame.lexer allows possible ⟨gapOf lines count ++ text, place⟩).Leads
      ((frame.leave (place.past (gapOf lines count)).column).lexer (allows || lines) none
        ⟨text, place.past (gapOf lines count)⟩) := by
  -- A lexer in front of the gap approaches the same token as one behind it.
  refine .of_approach ?_ (by simp [Frame.lexer])
  have again := @approach_token (frame.leave (place.past (gapOf lines count)).column)
    (allows || lines) none text (place.past (gapOf lines count)) token
    (givenUp_none _)
  -- No more blocks are left in front of the token than in front of the gap.
  rw [approach_gap lines count token lost, again, Frame.leave_leave]

end Lexer

end SyncStore.Yaml
