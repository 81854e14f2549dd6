import SyncStore.Proofs.Decimal.Digits
import SyncStore.Proofs.Yaml.Literal
import SyncStore.Proofs.Yaml.Quoted

/-! A scalar is read as it was written, whatever its style, up to the line of the next token. -/

namespace SyncStore.Yaml

/-- A lexer arrives at the next token of a frame, which stands at some column of a later line. -/
def Lexer.Arrives (lexer : Lexer) (frame : Frame) (column : Nat) (next : List Char) : Prop :=
  ∃ place : Place, place.column = column ∧
    lexer.Leads ((frame.leave column).lexer true none ⟨next, place⟩)

/-- What leads to a lexer arrives where that lexer does. -/
theorem Lexer.Leads.arrives {first second : Lexer} {frame : Frame} {column : Nat}
    {next : List Char} (leads : first.Leads second) (arrives : second.Arrives frame column next) :
    first.Arrives frame column next := by
  obtain ⟨place, stands, rest⟩ := arrives
  exact ⟨place, stands, leads.trans rest⟩

/-- A lexer that allows a key behind a gap arrives behind it. -/
theorem Lexer.arrives_gap {frame : Frame} {allows lines : Bool} {possible : Option PossibleKey}
    {count column : Nat} {next : List Char} {place : Place} (token : AtToken next)
    (starts : (allows || lines) = true) (stands : (place.past (gapOf lines count)).column = column)
    (lost : GivenUp possible (place.past (gapOf lines count))) :
    (frame.lexer allows possible ⟨gapOf lines count ++ next, place⟩).Arrives frame column next := by
  have leads := @leads_gap frame allows possible next place lines count token lost
  rw [starts, stands] at leads
  exact ⟨_, stands, leads⟩

/--
Written text is read as some tokens inside of a block at some column.

It starts behind an indicator, where a key may start only next to the indicator of an item.
-/
def ReadsAs (indent : Nat) (allows : Bool) (written : Written) (tokens : List Token) : Prop :=
  ∀ (frame : Frame) (place : Place) (count : Nat) (next : List Char), frame.indent = indent →
    indent < place.column → (allows = true → place.column = indent + 1) → count ≤ indent →
    AtToken next →
    (frame.lexer allows none ⟨written.text ++ (lineStart written count ++ next), place⟩).Arrives
      (frame.put tokens) count next

/-- A text starts like a token when its first character does. -/
def StartsToken (text : List Char) : Prop :=
  ∃ c rest, text = c :: rest ∧ isGap c = false ∧ c ≠ '#' ∧ c ≠ '\uFEFF'

/-- A text that starts like a token is at one, whatever stands behind it. -/
theorem StartsToken.atToken {text : List Char} (starts : StartsToken text) (rest : List Char) :
    AtToken (text ++ rest) := by
  obtain ⟨c, tail, rfl, first⟩ := starts
  exact atToken_cons first

/-- A scalar behind a space is read when its token arrives at the next line. -/
theorem readsAs_scalar {indent : Nat} {written : Written} {tokens : List Token}
    (starts : StartsToken written.text)
    (passed : ∀ (frame : Frame) (allows : Bool) (place : Place) (count : Nat) (next : List Char),
      frame.indent = indent → indent < place.column → count ≤ indent → AtToken next →
      ∃ second, (frame.lexer allows none
          ⟨written.text ++ (lineStart written count ++ next), place⟩).token = some second ∧
        second.cursor.text.length ≤ (written.text ++ (lineStart written count ++ next)).length ∧
        second.Arrives (frame.put tokens) count next)
    (allows : Bool) : ReadsAs indent allows (written.after [' ']) tokens := by
  intro frame place count next indented deeper _ within token
  have near := @Lexer.approach_gap frame allows none _ place false 1
    (starts.atToken (lineStart written count ++ next)) (Lexer.givenUp_none _)
  have along : place.past (gapOf false 1) = place.along 1 := rfl
  have left : frame.leave (place.along 1).column = frame := by
    refine Frame.leave_of_le ?_
    simp only [Place.along]
    omega
  rw [Bool.or_false, along, left] at near
  -- Behind the space the lexer stands in front of the token, in the same block.
  obtain ⟨second, read, shorter, arrives⟩ := passed frame allows (place.along 1) count next indented
    (Nat.lt_succ_of_lt deeper) within token
  obtain ⟨c, rest, split, -⟩ := starts
  refine Lexer.Leads.arrives (.of_token near ?_ read ?_) arrives
  · simp [Frame.lexer, split]
  · exact Nat.lt_succ_of_le shorter

/-- The key that a scalar might be is given up on a later line. -/
theorem Frame.saved_lost {frame : Frame} {allows : Bool} {place later : Place}
    (deeper : frame.indent < place.column) (behind : place.line < later.line) :
    Lexer.GivenUp (frame.saved allows place) later := by
  intro key saved
  cases allows with
  | false => cases saved
  | true =>
    obtain rfl := Option.some.inj saved
    exact ⟨decide_eq_false (by omega), behind⟩

/-- The start of a line is another line. -/
theorem Place.line_lt_lineStart (place : Place) (text : List Char) (count : Nat) :
    place.line < (place.past (text ++ gapOf true count)).line :=
  place.line_lt_past (List.mem_append_right _ (List.mem_cons_self)) (by decide)

/-- Plain text starts like a token. -/
theorem startsToken_of_plain {text : List Char} (plain : IsPlain text) : StartsToken text := by
  obtain ⟨c, rest, rfl, none, letter, mark⟩ := plain.starts
  exact ⟨c, rest, rfl, letter, (Lexer.not_indicators none).1.1, mark⟩

/-- Plain text is read as a plain scalar. -/
theorem readsAs_plain {indent : Nat} {text : List Char} (plain : IsPlain text) (allows : Bool) :
    ReadsAs indent allows ((Written.mk text false).after [' '])
      [.scalar true (String.ofList text)] := by
  refine readsAs_scalar (startsToken_of_plain plain) ?_ allows
  intro frame allows place count next indented deeper within token
  have closes : EndsPlain (frame.indent + 1).toNat ('\n' :: (spaces count ++ next))
      ('\n' :: spaces count) next true := endsPlain_line (by omega) token.atWord
  have noMarker : Cursor.isAtMarker ⟨text ++ '\n' :: (spaces count ++ next), place⟩ = false := by
    have away : place.column ≠ 0 := by omega
    simp [Cursor.isAtMarker, away]
  refine ⟨_, Lexer.plain_of_line plain closes noMarker, ?_, ?_⟩
  · simp [Frame.lexer, lineStart]
    omega
  · -- The scalar goes up to the next token, because its line may have been folded.
    have stands : (place.past (text ++ '\n' :: spaces count)).column = count := by
      rw [Place.past_append]
      exact column_past_line _ count
    exact @Lexer.arrives_gap (frame.put [.scalar true (String.ofList text)]) true false _ 0 count
      next (place.past (text ++ '\n' :: spaces count)) token rfl stands
      (Frame.saved_lost (by omega) (place.line_lt_lineStart text count))

/-- Text between quotes is read as a scalar that is not plain. -/
theorem readsAs_quoted {indent : Nat} {rendered text : List Char} (isSingle : Bool)
    (starts : rendered.head? = some (quoteMark isSingle))
    (passed : ∀ (frame : Frame) (allows : Bool) (place : Place) (ending : List Char),
      ending.head? ≠ some '\'' →
      (frame.lexer allows none ⟨rendered ++ ending, place⟩).token =
        some ((frame.put [.scalar false (String.ofList text)]).lexer false
          (frame.saved allows place) ⟨ending, place.past rendered⟩))
    (allows : Bool) :
    ReadsAs indent allows ((Written.mk rendered false).after [' '])
      [.scalar false (String.ofList text)] := by
  have first : StartsToken rendered := by
    obtain ⟨rest, rfl⟩ := List.head?_eq_some_iff.mp starts
    cases isSingle <;> exact ⟨_, rest, rfl, by decide⟩
  refine readsAs_scalar first ?_ allows
  intro frame allows place count next indented deeper within token
  refine ⟨_, passed frame allows place (gapOf true count ++ next) (by simp [gapOf]), ?_, ?_⟩
  · simp [Frame.lexer, lineStart, gapOf]
  · -- The quote ends the scalar on its line, and the next line starts a key.
    have stands : ((place.past rendered).past (gapOf true count)).column = count :=
      column_past_line _ count
    refine Lexer.arrives_gap token (Bool.or_true _) stands (Frame.saved_lost (by omega) ?_)
    rw [← Place.past_append]
    exact place.line_lt_lineStart rendered count

/-- A literal block is read as a scalar that is not plain. -/
theorem readsAs_literal {indent : Nat} {text : List Char} (printed : IsPrinted text)
    (nonempty : text ≠ []) (allows : Bool) :
    ReadsAs indent allows
      ((Written.mk (renderLiteral (indent + 2) text) (isEnded text)).after [' '])
      [.scalar false (String.ofList text)] := by
  refine readsAs_scalar ⟨'|', _, rfl, by decide⟩ ?_ allows
  intro frame allows place count next indented deeper within token
  rw [lineStart_eq]
  have read := @Lexer.block_literal count place text frame allows indent next indented token
    (by omega) printed nonempty
  refine ⟨_, read, ?_, ?_⟩
  · simp only [Frame.lexer, List.length_append]
    omega
  · -- The block was read up to the next token, so no gap is left in front of it.
    exact @Lexer.arrives_gap (frame.put [.scalar false (String.ofList text)]) true false none 0
      count next _ token rfl (column_past_literal place (indent + 2) count text)
      (Lexer.givenUp_none _)

/-! Strings are written in one of four styles. -/

/-- A string that nothing takes for another value is not empty. -/
theorem ne_nil_of_not_typed {s : String} (typed : looksTyped s = false) : s.toList ≠ [] := by
  intro empty
  have same : String.ofList s.toList = s := String.ofList_toList
  have null : looksTyped "" = true := by decide +kernel
  rw [← same, empty] at typed
  cases null.symm.trans typed

/-- The four styles, each with what a string of that style is made of. -/
theorem styleOf_cases (s : String) :
    (styleOf s = .plain ∧ looksTyped s = false ∧ allowsPlain s.toList = true) ∨
      (styleOf s = .single ∧ allowsSingle s.toList = true ∧ '\n' ∉ s.toList) ∨
      styleOf s = .double ∨
      (styleOf s = .literal ∧ allowsLiteral s.toList = true ∧ '\n' ∈ s.toList) := by
  unfold styleOf
  dsimp only
  by_cases line : '\n' ∈ s.toList
  · -- A text of several lines is a block, or stands between double quotes.
    have broken : s.toList.contains '\n' = true := List.contains_iff_mem.mpr line
    rw [broken]
    cases literal : allowsLiteral s.toList <;> simp [line]
  · have unbroken : s.toList.contains '\n' = false := by simpa using line
    rw [unbroken]
    cases typed : looksTyped s <;> cases plain : allowsPlain s.toList <;>
      cases single : allowsSingle s.toList <;> simp [line]

/-- The token of a string. -/
def stringToken (s : String) : Token := .scalar (styleOf s = .plain) s

/-- A string is read as a scalar. -/
theorem readsAs_string (indent : Nat) (s : String) (allows : Bool) :
    ReadsAs indent allows ((writeString (indent + 2) s).after [' ']) [stringToken s] := by
  have same : String.ofList s.toList = s := String.ofList_toList
  rcases styleOf_cases s with ⟨style, typed, plain⟩ | ⟨style, single, line⟩ | style |
    ⟨style, literal, line⟩
  · -- Nothing takes a plain string for another value, so it is not empty either.
    have nonempty := ne_nil_of_not_typed typed
    have read := @readsAs_plain indent _ (isPlain_of_allowed nonempty plain) allows
    simpa only [writeString, stringToken, style, same, decide_true] using read
  · have read := @readsAs_quoted indent (renderSingle (indent + 2) s.toList) s.toList true rfl
      (fun frame allows place ending closes =>
        Lexer.quoted_single (isSingle_of_allowed single line) (by omega) closes) allows
    simpa only [writeString, stringToken, style, same, reduceCtorEq, decide_false] using read
  · have read := @readsAs_quoted indent (renderDouble s.toList) s.toList false rfl
      (fun frame allows place ending _ => Lexer.quoted_double ending) allows
    simpa only [writeString, stringToken, style, same, reduceCtorEq, decide_false] using read
  · -- A block has a line feed in its text, so its text is not empty.
    have printed : IsPrinted s.toList := by
      simp only [allowsLiteral, Bool.and_eq_true] at literal
      exact List.all_eq_true.mp literal.1.1.2
    have read := @readsAs_literal indent s.toList printed (List.ne_nil_of_mem line) allows
    simpa only [writeString, stringToken, style, same, reduceCtorEq, decide_false, renderLiteral,
      isEnded] using read

/-! Other scalars are plain. -/

/-- No gap is numeric. -/
theorem isGap_of_isNumeric {c : Char} (numeric : isNumeric c = true) : isGap c = false := by
  by_contra gap
  simp only [isGap, isBlank, isBreak, Bool.not_eq_false, Bool.or_eq_true, decide_eq_true_eq] at gap
  rcases gap with (rfl | rfl) | (((rfl | rfl) | rfl) | rfl) | rfl <;> cases numeric

/-- A number is plain text. -/
theorem isPlain_number {sign rest : List Char} {c : Char} (signed : sign = [] ∨ sign = ['-'])
    (digit : c.isDigit = true) (numeric : ∀ d ∈ sign ++ c :: rest, isNumeric d = true) :
    IsPlain (sign ++ c :: rest) := by
  have apart : ∀ d, isNumeric d = false → d ∉ sign ++ c :: rest := by
    intro d other inside
    cases other.symm.trans (numeric d inside)
  -- None of the indicators is a digit.
  have first : isIndicator none (c :: rest) = false := by
    have all : ("#,[]\x7b\x7d&*!|>'\"%@`".toList ++ "?:-".toList).all (!·.isDigit) = true := by
      decide +kernel
    have all : ∀ d ∈ "#,[]\x7b\x7d&*!|>'\"%@`".toList ++ "?:-".toList, d.isDigit = false :=
      fun d inside => by simpa using List.all_eq_true.mp all d inside
    have outside : ∀ marks : String, (∀ d ∈ marks.toList, d.isDigit = false) →
        marks.toList.contains c = false := by
      intro marks others
      by_contra inside
      cases digit.symm.trans (others c (by simpa using inside))
    rw [isIndicator, outside _ fun d inside => all d (List.mem_append_left _ inside),
      outside _ fun d inside => all d (List.mem_append_right _ inside)]
    rfl
  refine ⟨⟨fun d inside gap => ?_, fun front behind split => ?_, fun front behind split => ?_⟩, ?_,
    ?_, ?_⟩
  · cases gap.symm.trans (isGap_of_isNumeric (numeric d inside))
  · exact absurd (by simp [split]) (apart ':' (by decide))
  · exact absurd (by simp [split]) (apart '#' (by decide))
  · have letter : isGap c = false := isGap_of_isNumeric (isNumeric_of_isDigit digit)
    rcases signed with rfl | rfl
    · exact ⟨c, rest, rfl, first, letter, ne_of_isDigit digit (by decide)⟩
    · exact ⟨'-', c :: rest, rfl, by simp [isIndicator, endsWord, letter], by decide, by decide⟩
  · intro space
    exact apart ' ' (by decide) (List.mem_of_getLast? space)
  · have dash : c ≠ '-' := ne_of_isDigit digit (by decide)
    have dot : c ≠ '.' := ne_of_isDigit digit (by decide)
    rcases signed with rfl | rfl <;>
      simp [startsMarker, List.isPrefixOf, Ne.symm dash, Ne.symm dot]

/-- A written integer is plain text. -/
theorem isPlain_int (n : WordInt) : IsPlain n.render := by
  have numeric := n.render_numeric
  obtain ⟨c, rest, split, digit, -⟩ := Decimal.toDigits_head n.val.natAbs
  unfold WordInt.render at numeric ⊢
  rw [split] at numeric ⊢
  refine isPlain_number ?_ digit numeric
  split
  · exact .inr rfl
  · exact .inl rfl

/-- A written float is plain text. -/
theorem isPlain_float (x : Binary64) : IsPlain (floats.render x) := by
  have numeric := floats.render_numeric x
  obtain ⟨c, rest, split, digit⟩ := floats.magnitude_head (x.shortest floats.ties)
  unfold FloatLayout.render at numeric ⊢
  rw [split] at numeric ⊢
  refine isPlain_number ?_ digit numeric
  split
  · exact .inr rfl
  · exact .inl rfl

/-- Whether a scalar is plain, and its text; a composite has none. -/
def scalarText? : Value → Option (Bool × String)
  | .null => some (true, "null")
  | .bool b => some (true, if b then "true" else "false")
  | .number (.int n) => some (true, String.ofList n.render)
  | .number (.float x) => some (true, String.ofList (floats.render x))
  | .string s => some (styleOf s = .plain, s)
  | _ => none

/-- A scalar is read as one token. -/
theorem readsAs_scalarText {indent : Nat} {value : Value} {found : Bool × String}
    (scalar : scalarText? value = some found) (allows : Bool) :
    ReadsAs indent allows ((writeScalar (indent + 2) value).after [' '])
      [.scalar found.1 found.2] := by
  have word (text : List Char) (nonempty : text ≠ []) (plain : allowsPlain text = true) :
      ReadsAs indent allows ((Written.mk text false).after [' '])
        [.scalar true (String.ofList text)] :=
    readsAs_plain (isPlain_of_allowed nonempty plain) allows
  -- Only strings need quotes: all other scalars are plain words.
  cases value with
  | null =>
    obtain rfl := Option.some.inj scalar
    exact word _ (by decide +kernel) (by decide +kernel)
  | bool b =>
    obtain rfl := Option.some.inj scalar
    cases b
    · exact word _ (by decide +kernel) (by decide +kernel)
    · exact word _ (by decide +kernel) (by decide +kernel)
  | number n =>
    cases n with
    | int n =>
      obtain rfl := Option.some.inj scalar
      exact readsAs_plain (isPlain_int n) allows
    | float x =>
      obtain rfl := Option.some.inj scalar
      exact readsAs_plain (isPlain_float x) allows
  | string s =>
    obtain rfl := Option.some.inj scalar
    exact readsAs_string indent s allows
  | array items => cases scalar
  | object members => cases scalar

/-! An empty collection is a pair of brackets. -/

/-- The brackets of an empty collection, with their tokens. -/
def brackets : List ((Char × Char) × (Token × Token)) :=
  [(('[', ']'), (.flowSequence, .flowSequenceEnd)),
    (('\x7b', '\x7d'), (.flowMapping, .flowMappingEnd))]

/-- The lexer behind an opening bracket. -/
def Frame.opened (frame : Frame) (first : Token) (allows : Bool) (place : Place)
    (text : List Char) : Lexer :=
  ⟨⟨text, place.along 1⟩, frame.indent, frame.outer, true, none, [frame.saved allows place],
    first :: frame.tokens⟩

/-- Between brackets nothing is passed in front of a token. -/
theorem Lexer.approach_opened {frame : Frame} {allows : Bool} {place : Place} {text : List Char}
    (first : Token) (token : AtToken text) :
    (frame.opened first allows place text).approach =
      some (frame.opened first allows place text) := by
  have passed := @span_spaces text (place.along 1)
    (fun c => c = ' ' || (c = '\t' && (true || !true))) (by simp) (by
      intro c starts
      have word := (token c starts).1
      simp only [isGap, isBlank, Bool.or_eq_false_iff] at word
      simp [word.1.1, word.1.2]) 0
  -- A key that was saved at the opening bracket is one column away.
  have near : ∀ key, frame.saved allows place = some key → isStale (place.along 1) key = false := by
    intro key saved
    cases allows with
    | false => cases saved
    | true =>
      obtain rfl := Option.some.inj saved
      simp [isStale, Place.along, longestKey]
  have unmarked : (frame.opened first allows place text).passMark =
      frame.opened first allows place text := by
    simp [passMark, Frame.opened, Place.along]
  have ungapped : (frame.opened first allows place text).passGap (text.length + 1) =
      frame.opened first allows place text := by
    rw [passGap]
    simp only [Frame.opened, inFlow, List.isEmpty_cons, Bool.not_false]
    have none : spaces 0 = [] := rfl
    rw [none, List.nil_append] at passed
    rw [passed]
    simp only [skipComment_token token, break_not_ahead token]
    rfl
  have kept : (frame.opened first allows place text).dropStale =
      some (frame.opened first allows place text) := by
    cases saved : frame.saved allows place with
    | none => simp [dropStale, Frame.opened, saved]
    | some key => simp [dropStale, Frame.opened, saved, near key saved]
  rw [approach, unmarked]
  refine (congrArg (fun lexer => Option.map _ (dropStale lexer)) ungapped).trans ?_
  rw [kept]
  rfl

/-- An opening bracket in front of its closing one makes two tokens. -/
theorem Lexer.leads_brackets {frame : Frame} {allows : Bool} {place : Place} {ending : List Char}
    {left right : Char} {first last : Token}
    (pair : ((left, right), (first, last)) ∈ brackets) :
    ∃ second, (frame.lexer allows none ⟨left :: right :: ending, place⟩).token = some second ∧
      second.cursor.text.length = ending.length + 1 ∧
      second.Leads ((frame.put [first, last]).lexer false (frame.saved allows place)
        ⟨ending, place.along 2⟩) := by
  have opens : (frame.lexer allows none ⟨left :: right :: ending, place⟩).token =
      (frame.lexer allows none ⟨left :: right :: ending, place⟩).openFlow first := by
    simp only [brackets, List.mem_cons, Prod.mk.injEq, List.not_mem_nil, or_false] at pair
    rcases pair with ⟨⟨rfl, rfl⟩, rfl, rfl⟩ | ⟨⟨rfl, rfl⟩, rfl, rfl⟩ <;>
      · rw [token]
        simp [Frame.lexer, Cursor.isAtMarker, List.isPrefixOf]
  rw [openFlow, Frame.saveKey_lexer] at opens
  refine ⟨_, opens, rfl, ?_⟩
  have closer : AtToken (right :: ending) := by
    refine atToken_cons ?_
    simp only [brackets, List.mem_cons, Prod.mk.injEq, List.not_mem_nil, or_false] at pair
    rcases pair with ⟨⟨rfl, rfl⟩, rfl, rfl⟩ | ⟨⟨rfl, rfl⟩, rfl, rfl⟩ <;> decide
  have shuts : (frame.opened first allows place (right :: ending)).token =
      (frame.opened first allows place (right :: ending)).closeFlow last := by
    simp only [brackets, List.mem_cons, Prod.mk.injEq, List.not_mem_nil, or_false] at pair
    rcases pair with ⟨⟨rfl, rfl⟩, rfl, rfl⟩ | ⟨⟨rfl, rfl⟩, rfl, rfl⟩ <;>
      · rw [token]
        simp [Frame.opened, Cursor.isAtMarker, List.isPrefixOf]
  -- The closing bracket gives back the key that was saved in front of the opening one.
  refine .of_token (approach_opened first closer) (List.cons_ne_nil _ _) shuts ?_
  exact Nat.lt_succ_self _

/-- A pair of brackets is read as its two tokens. -/
theorem readsAs_brackets {indent : Nat} {left right : Char} {first last : Token}
    (pair : ((left, right), (first, last)) ∈ brackets) (allows : Bool) :
    ReadsAs indent allows ((Written.mk [left, right] false).after [' ']) [first, last] := by
  have starts : isGap left = false ∧ left ≠ '#' ∧ left ≠ '\uFEFF' := by
    simp only [brackets, List.mem_cons, Prod.mk.injEq, List.not_mem_nil, or_false] at pair
    rcases pair with ⟨⟨rfl, rfl⟩, rfl, rfl⟩ | ⟨⟨rfl, rfl⟩, rfl, rfl⟩ <;> decide
  refine readsAs_scalar ⟨left, [right], rfl, starts⟩ ?_ allows
  intro frame allows place count next indented deeper within token
  obtain ⟨second, read, shorter, leads⟩ := @Lexer.leads_brackets frame allows place
    (gapOf true count ++ next) left right first last pair
  refine ⟨second, read, ?_, leads.arrives ?_⟩
  · rw [shorter]
    exact Nat.le_succ _
  · have stands : ((place.along 2).past (gapOf true count)).column = count :=
      column_past_line _ count
    exact Lexer.arrives_gap token (Bool.or_true _) stands
      (Frame.saved_lost (by omega) ((place.along 2).line_lt_lineStart [] count))

end SyncStore.Yaml
