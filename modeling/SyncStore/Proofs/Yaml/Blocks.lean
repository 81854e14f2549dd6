import SyncStore.Proofs.Value
import SyncStore.Proofs.Yaml.Scalar

/-! Items and members are read line by line, and the blocks that they make are opened and closed. -/

namespace SyncStore.Yaml

/-! A key of one line is told by the colon behind it. -/

/-- The bytes of a text are those of its characters. -/
theorem byteCount_cons (c : Char) (text : List Char) :
    Json.byteCount (c :: text) = c.utf8Size + Json.byteCount text := by
  have general (start : Nat) (text : List Char) :
      text.foldl (fun count c => count + c.utf8Size) start = start + Json.byteCount text := by
    induction text generalizing start with
    | nil => rfl
    | cons d text ih =>
      rw [Json.byteCount, List.foldl_cons, List.foldl_cons, ih, ih, Nat.zero_add, Nat.add_assoc]
  rw [Json.byteCount, List.foldl_cons, general, Nat.zero_add]

/-- No text has fewer bytes than characters. -/
theorem length_le_byteCount (text : List Char) : text.length ≤ Json.byteCount text := by
  induction text with
  | nil => exact Nat.zero_le _
  | cons c text ih =>
    have positive := c.utf8Size_pos
    rw [byteCount_cons, List.length_cons]
    omega

/-- An escape has at most four characters for each byte. -/
theorem Escapes.length_le {c : Char} {letters : List Char} (spelled : Escapes c letters) :
    letters.length ≤ 4 * c.utf8Size := by
  have positive := c.utf8Size_pos
  -- Characters with wider codes have more than one byte.
  have sizes : c.toNat ≤ 0x7F ∨ 2 ≤ c.utf8Size ∧ (c.toNat ≤ 0xFFFF ∨ 4 ≤ c.utf8Size) := by
    have same : c.toNat = c.val.toNat := rfl
    unfold Char.utf8Size
    simp only [UInt32.le_iff_toNat_le, same, UInt32.toNat_ofNatLT]
    split
    · omega
    split
    · omega
    split <;> omega
  cases spelled with
  | short =>
    simp only [List.length_cons, List.length_nil]
    omega
  | itself =>
    simp only [List.length_cons, List.length_nil]
    omega
  | code one wide fits =>
    have width := (codePoint?_codeDigits (codes_letter one).2.2.1 fits []).2
    rw [List.length_cons, List.length_cons, width]
    simp only [codes, List.mem_cons, Prod.mk.injEq, List.not_mem_nil, or_false] at one
    rcases one with ⟨-, rfl, rfl⟩ | ⟨-, rfl, rfl⟩ | ⟨-, rfl, rfl⟩ <;> omega

/-- Escaped text has at most four characters for each byte. -/
theorem length_flatMap_escape_le (text : List Char) :
    (text.flatMap escape).length ≤ 4 * Json.byteCount text := by
  induction text with
  | nil => exact Nat.zero_le _
  | cons c text ih =>
    have first := (escapes_escape c).length_le
    rw [byteCount_cons, List.flatMap_cons, List.length_append]
    omega

/-- Letters between single quotes are at most twice as many. -/
theorem length_flatMap_singleLetter_le (text : List Char) :
    (text.flatMap singleLetter).length ≤ 2 * text.length := by
  induction text with
  | nil => exact Nat.zero_le _
  | cons c text ih =>
    have first : (singleLetter c).length ≤ 2 := by
      rw [singleLetter]
      split <;> simp
    rw [List.flatMap_cons, List.length_append, List.length_cons]
    omega

/-- A text that starts like no marker starts like none in front of a colon. -/
theorem isAtMarker_colon {text : List Char} (unmarked : startsMarker text = false)
    (rest : List Char) (place : Place) :
    Cursor.isAtMarker ⟨text ++ ':' :: rest, place⟩ = false := by
  have none : startsMarker (text ++ ':' :: rest) = false := by
    rcases text with _ | ⟨a, _ | ⟨b, _ | ⟨c, text⟩⟩⟩
    · simp [startsMarker, List.isPrefixOf]
    · simp [startsMarker, List.isPrefixOf]
    · simp [startsMarker, List.isPrefixOf]
    · simpa [startsMarker, List.isPrefixOf] using unmarked
  have same : ("---".toList.isPrefixOf (text ++ ':' :: rest) ||
      "...".toList.isPrefixOf (text ++ ':' :: rest)) = false := none
  rw [Cursor.isAtMarker, same, Bool.and_false, Bool.false_and]

/--
A text that is read as the token of a key in front of a colon.

- `starts`: it starts like a token
- `short`: it is no longer than a key may be
- `unbroken`: it is one line
- `read`: its token is read up to the colon
-/
structure IsKey (text : List Char) (token : Token) : Prop where
  starts : StartsToken text
  short : text.length ≤ Lexer.longestKey
  unbroken : ∀ c ∈ text, isBreak c = false
  read : ∀ (frame : Frame) (place : Place) (rest : List Char), endsWord rest = true →
    (frame.lexer true none ⟨text ++ ':' :: rest, place⟩).token =
      some ((frame.put [token]).lexer false (frame.saved true place) ⟨':' :: rest, place.past text⟩)

/-- A short plain text is a key. -/
theorem isKey_plain {text : List Char} (plain : IsPlain text)
    (unbroken : ∀ c ∈ text, isBreak c = false) (short : Json.byteCount text ≤ 128) :
    IsKey text (.scalar true (String.ofList text)) := by
  have length := length_le_byteCount text
  have limit : Lexer.longestKey = 1024 := rfl
  refine ⟨startsToken_of_plain plain, by omega, unbroken, fun frame place rest ends => ?_⟩
  have read := @Lexer.plain_of_line frame true _ _ _ _ _ plain (endsPlain_colon ends) place
    (isAtMarker_colon plain.unmarked rest place)
  rw [List.append_nil] at read
  exact read

/-- A short text between single quotes is a key. -/
theorem isKey_single {text : List Char} {indent : Nat} (single : IsSingle text)
    (indented : indent ≠ 0) (unbroken : ∀ c ∈ text, isBreak c = false)
    (short : Json.byteCount text ≤ 128) :
    IsKey (renderSingle indent text) (.scalar false (String.ofList text)) := by
  have length := length_le_byteCount text
  have shorter := length_flatMap_singleLetter_le text
  have spelled : renderSingle indent text = '\'' :: (text.flatMap singleLetter ++ ['\'']) := by
    have letters := renderSingleFrom_letters indent unbroken []
    rw [List.append_nil] at letters
    simp [renderSingle, letters, renderSingleFrom]
  refine ⟨⟨'\'', _, rfl, by decide⟩, ?_, fun c inside => ?_, fun frame place rest ends => ?_⟩
  · simp only [spelled, List.length_cons, List.length_append, List.length_nil, Lexer.longestKey]
    omega
  · simp only [spelled, List.mem_cons, List.mem_append, List.not_mem_nil, or_false] at inside
    rcases inside with rfl | inside | rfl
    · decide
    · exact isBreak_singleLetter unbroken inside
    · decide
  · exact @Lexer.quoted_single place frame true text indent (':' :: rest) single indented (by simp)

/-- A short text between double quotes is a key. -/
theorem isKey_double {text : List Char} (short : Json.byteCount text ≤ 128) :
    IsKey (renderDouble text) (.scalar false (String.ofList text)) := by
  have shorter := length_flatMap_escape_le text
  refine ⟨⟨'"', _, rfl, by decide⟩, ?_, fun c inside => isBreak_renderDouble inside,
    fun frame place rest ends => @Lexer.quoted_double place frame true text (':' :: rest)⟩
  simp only [renderDouble, List.length_cons, List.length_append, List.length_nil, Lexer.longestKey]
  omega

/-- A simple key is read as one. -/
theorem isKey_string {key : String} (simple : isSimpleKey key = true) (indent : Nat) :
    IsKey (writeString (indent + 2) key).text (stringToken key) := by
  have same : String.ofList key.toList = key := String.ofList_toList
  simp only [isSimpleKey, Bool.and_eq_true, Bool.not_eq_true', decide_eq_true_eq] at simple
  obtain ⟨line, bytes⟩ := simple
  have short : Json.byteCount key.toList ≤ 128 := bytes
  have unbroken : ∀ c ∈ key.toList, isBreak c = false := by
    intro c inside
    simpa using List.any_eq_false.mp line c inside
  rcases styleOf_cases key with ⟨style, typed, plain⟩ | ⟨style, single, feed⟩ | style |
    ⟨style, -, feed⟩
  · have plain := isPlain_of_allowed (ne_nil_of_not_typed typed) plain
    have read := isKey_plain plain unbroken short
    simpa only [writeString, stringToken, style, same, decide_true] using read
  · have read := isKey_single (isSingle_of_allowed single feed) (by omega : indent + 2 ≠ 0)
      unbroken short
    simpa only [writeString, stringToken, style, same, reduceCtorEq, decide_false] using read
  · have read := isKey_double short
    simpa only [writeString, stringToken, style, same, reduceCtorEq, decide_false] using read
  · -- A text in literal style has more than one line.
    cases unbroken '\n' feed

namespace Lexer

variable {frame : Frame} {place : Place} {rest : List Char}

/-- A colon behind a possible key makes it the first key of a block, or a further one. -/
theorem value_of_key (token : Token) (required : Bool) (key : Place)
    (ends : endsWord rest = true) :
    ((frame.put [token]).lexer false (some ⟨required, frame.tokens.length, key⟩)
        ⟨':' :: rest, place⟩).token =
      some (((frame.enter key.column .blockMapping).put [.key, token, .value]).lexer false none
        ⟨rest, place.along 1⟩) := by
  have dispatched : ((frame.put [token]).lexer false (some ⟨required, frame.tokens.length, key⟩)
        ⟨':' :: rest, place⟩).token = ((frame.put [token]).lexer false
          (some ⟨required, frame.tokens.length, key⟩) ⟨':' :: rest, place⟩).value := by
    rw [Lexer.token]
    simp [Frame.lexer, Cursor.isAtMarker, List.isPrefixOf, inFlow, ends]
  rw [dispatched, value]
  -- The block is entered in front of the key when it stands deeper than the frame.
  by_cases deeper : frame.indent < key.column
  · have two : frame.tokens.length + 1 + 1 - frame.tokens.length = 2 := by omega
    simp [Frame.lexer, Frame.put, Frame.enter, deeper, insertAt, openBlock, inFlow, allowKey, pass,
      moveTo, push, Cursor.skip, two]
  · simp [Frame.lexer, Frame.put, Frame.enter, deeper, insertAt, openBlock, inFlow, allowKey, pass,
      moveTo, push, Cursor.skip]

/-- A key leads behind the colon that follows it. -/
theorem leads_key {text : List Char} {token : Token} (key : IsKey text token)
    (ends : endsWord rest = true) (within : frame.indent ≤ place.column) :
    (frame.lexer true none ⟨text ++ ':' :: rest, place⟩).Leads
      (((frame.enter place.column .blockMapping).put [.key, token, .value]).lexer false none
        ⟨rest, place.along (text.length + 1)⟩) := by
  have start := @approach_token frame true none _ place (key.starts.atToken (':' :: rest))
    (givenUp_none place)
  rw [Frame.leave_of_le within] at start
  have read := key.read frame place rest ends
  rw [place.past_unbroken key.unbroken] at read
  have colon : AtToken (':' :: rest) := atToken_cons (by decide)
  -- The key is still possible in front of the colon, because it is short and on one line.
  have near : isStale (place.along text.length)
      ⟨frame.indent = place.column, frame.tokens.length, place⟩ = false := by
    simpa [isStale, Place.along] using key.short
  have kept := @approach_kept (frame.put [token]) false (':' :: rest) (place.along text.length) _
    colon near (by simp only [Frame.put_indent, Place.along]; omega)
  obtain ⟨c, tail, split, -⟩ := key.starts
  -- Two tokens are passed: that of the key, and the colon behind it.
  have first : (frame.lexer true none ⟨text ++ ':' :: rest, place⟩).Leads _ :=
    .of_token start (by simp [Frame.lexer, split]) read (by
      simp only [Frame.lexer, split, List.length_append, List.length_cons]
      omega)
  have second := Leads.of_token kept (by simp [Frame.lexer])
    (value_of_key token (frame.indent = place.column) place ends) (by simp [Frame.lexer])
  rw [Place.along_along] at second
  exact first.trans second

/-- The indicators of an item, of a key and of a value, with the blocks they are part of. -/
def indicators : List (Char × Token × Token) :=
  [('-', .blockSequence, .blockEntry), ('?', .blockMapping, .key), (':', .blockMapping, .value)]

/-- An indicator leads behind it, into its block. -/
theorem leads_indicator {c : Char} {block entry : Token} (one : (c, block, entry) ∈ indicators)
    (ends : rest.head?.any isGap = true) (within : frame.indent ≤ place.column) :
    (frame.lexer true none ⟨c :: rest, place⟩).Leads
      (((frame.enter place.column block).put [entry]).lexer true none ⟨rest, place.along 1⟩) := by
  simp only [indicators, List.mem_cons, Prod.mk.injEq, List.not_mem_nil, or_false] at one
  have token : AtToken (c :: rest) := by
    refine atToken_cons ?_
    rcases one with ⟨rfl, -⟩ | ⟨rfl, -⟩ | ⟨rfl, -⟩ <;> decide
  have start := @approach_token frame true none _ place token (givenUp_none place)
  rw [Frame.leave_of_le within] at start
  refine .of_token start (List.cons_ne_nil _ _) ?_ (Nat.lt_succ_self _)
  obtain ⟨g, rest, rfl⟩ : ∃ g tail, rest = g :: tail := by
    cases rest with
    | nil => cases ends
    | cons g tail => exact ⟨g, tail, rfl⟩
  have gap : isGap g = true := ends
  have word : endsWord (g :: rest) = true := gap
  have dash : g ≠ '-' := by
    rintro rfl
    cases gap
  -- The indicator stands alone, so it is part of no marker.
  have noMarker : Cursor.isAtMarker ⟨c :: g :: rest, place⟩ = false := by
    rcases one with ⟨rfl, -⟩ | ⟨rfl, -⟩ | ⟨rfl, -⟩ <;>
      simp [Cursor.isAtMarker, List.isPrefixOf, Ne.symm dash]
  -- Its block is entered when it stands deeper than the frame, and is open otherwise.
  have entered : ∀ block, (frame.lexer true none ⟨c :: g :: rest, place⟩).openAt block =
      some ((frame.enter place.column block).lexer true none ⟨c :: g :: rest, place⟩) := by
    intro block
    by_cases deeper : frame.indent < place.column
    · simp [openAt, Frame.lexer, inFlow, openBlock, insertAt, Frame.enter, deeper]
    · simp [openAt, Frame.lexer, inFlow, openBlock, Frame.enter, deeper]
  rcases one with ⟨rfl, rfl, rfl⟩ | ⟨rfl, rfl, rfl⟩ | ⟨rfl, rfl, rfl⟩
  · have told : (frame.lexer true none ⟨'-' :: g :: rest, place⟩).token =
        (frame.lexer true none ⟨'-' :: g :: rest, place⟩).blockEntry := by
      rw [Lexer.token]
      simp only [Frame.lexer, noMarker]
      simp [word]
    rw [told, blockEntry, entered]
    rfl
  · have told : (frame.lexer true none ⟨'?' :: g :: rest, place⟩).token =
        (frame.lexer true none ⟨'?' :: g :: rest, place⟩).explicitKey := by
      rw [Lexer.token]
      simp only [Frame.lexer, noMarker]
      simp [word]
    rw [told, explicitKey, entered]
    rfl
  · have told : (frame.lexer true none ⟨':' :: g :: rest, place⟩).token =
        (frame.lexer true none ⟨':' :: g :: rest, place⟩).value := by
      rw [Lexer.token]
      simp only [Frame.lexer, noMarker]
      simp [word]
    rw [told, value]
    simp only [Frame.lexer] at entered ⊢
    rw [entered]
    rfl

end Lexer

/-! Every value is a scalar, a pair of brackets or a block of lines. -/

mutual

/-- The tokens of a value; below a key items make no block of their own. -/
def valueTokens (below : Bool) : Value → List Token
  | .array [] => [.flowSequence, .flowSequenceEnd]
  | .array items =>
    if below then itemTokens items else .blockSequence :: (itemTokens items ++ [.blockEnd])
  | .object [] => [.flowMapping, .flowMappingEnd]
  | .object members => .blockMapping :: (memberTokens members ++ [.blockEnd])
  | value => (scalarText? value).toList.map fun found => .scalar found.1 found.2

/-- The tokens of items. -/
def itemTokens : List Value → List Token
  | [] => []
  | item :: rest => .blockEntry :: (valueTokens false item ++ itemTokens rest)

/-- The tokens of members; a key behind a question mark leaves its value behind a colon alone. -/
def memberTokens : List (String × Value) → List Token
  | [] => []
  | (key, value) :: rest =>
    .key :: stringToken key :: .value ::
      (valueTokens (isSimpleKey key) value ++ memberTokens rest)

end

/-- Lines are read as some tokens in a block at the column where they start. -/
def LinesReadAs (indent : Nat) (block : Token) (written : Written) (tokens : List Token) : Prop :=
  ∀ (frame : Frame) (place : Place) (count : Nat) (next : List Char), frame.indent ≤ indent →
    place.column = indent → count ≤ indent → AtToken next →
    (frame.lexer true none ⟨written.text ++ (lineStart written count ++ next), place⟩).Arrives
      ((frame.enter indent block).put tokens) count next

/-- Lines are read one after the other. -/
theorem LinesReadAs.line {indent : Nat} {block : Token} {first second : Written}
    {front back : List Token} (one : LinesReadAs indent block first front)
    (other : LinesReadAs indent block second back) (starts : StartsToken second.text) :
    LinesReadAs indent block (first.line indent second) (front ++ back) := by
  intro frame place count next within column shallow token
  -- Behind the first line the lexer stands where the second one starts, in the same block.
  obtain ⟨middle, stands, leads⟩ := one frame place indent
    (second.text ++ (lineStart second count ++ next)) within column (Nat.le_refl _)
    (starts.atToken _)
  have entered : ((frame.enter indent block).put front).indent = indent :=
    Frame.enter_indent within block
  rw [Frame.leave_of_le (Int.le_of_eq entered)] at leads
  have arrives := other ((frame.enter indent block).put front) middle count next
    (Int.le_of_eq entered) stands shallow token
  rw [Frame.enter_of_open entered, Frame.put_put] at arrives
  have text : (first.line indent second).text ++
      (lineStart (first.line indent second) count ++ next) = first.text ++
        (lineStart first indent ++ (second.text ++ (lineStart second count ++ next))) := by
    simp [Written.line, Written.after, lineStart]
  rw [text]
  exact leads.arrives arrives

/-- Lines behind a gap up to their column are read as they are. -/
theorem LinesReadAs.behind {indent inner : Nat} {block : Token} {written : Written}
    {tokens : List Token} (lines : LinesReadAs inner block written tokens)
    (starts : StartsToken written.text) {allows broken : Bool} {width : Nat}
    (place : Place) (frame : Frame) (within : frame.indent = indent) (deep : indent ≤ inner)
    (stands : (place.past (gapOf broken width)).column = inner) (key : (allows || broken) = true)
    (count : Nat) (shallow : count ≤ indent) (next : List Char) (token : AtToken next) :
    (frame.lexer allows none
        ⟨(written.after (gapOf broken width)).text ++
          (lineStart (written.after (gapOf broken width)) count ++ next), place⟩).Arrives
      ((frame.enter inner block).put tokens) count next := by
  have leads := @Lexer.leads_gap frame allows none _ place broken width
    (starts.atToken (lineStart written count ++ next)) (Lexer.givenUp_none _)
  rw [stands, key, Frame.leave_of_le (by omega)] at leads
  have text : (written.after (gapOf broken width)).text ++
      (lineStart (written.after (gapOf broken width)) count ++ next) =
      gapOf broken width ++ (written.text ++ (lineStart written count ++ next)) :=
    List.append_assoc _ _ _
  rw [text]
  exact leads.arrives
    (lines frame (place.past (gapOf broken width)) count next (by omega) stands (by omega) token)

/-- Deeper lines are a block inside of the one around them. -/
theorem Frame.leave_block {frame : Frame} {indent count : Nat} (within : frame.indent = indent)
    (shallow : count ≤ indent) (block : Token) (tokens : List Token) :
    ((frame.enter (indent + 2) block).put tokens).leave count =
      (frame.put (block :: (tokens ++ [.blockEnd]))).leave count :=
  Frame.leave_entered (by omega) (by omega) block tokens

/-- Lines behind a space are a block on the line of their indicator. -/
theorem LinesReadAs.inline {indent : Nat} {block : Token} {written : Written} {tokens : List Token}
    (lines : LinesReadAs (indent + 2) block written tokens) (starts : StartsToken written.text) :
    ReadsAs indent true (written.after [' ']) (block :: (tokens ++ [.blockEnd])) := by
  intro frame place count next indented _ near shallow token
  have stands : (place.past (gapOf false 1)).column = indent + 2 := congrArg (· + 1) (near rfl)
  have arrives := lines.behind starts place frame indented (by omega) stands (Bool.or_false true)
    count shallow next token
  rw [Lexer.Arrives, Frame.leave_block indented shallow] at arrives
  exact arrives

/-- Lines on lines of their own are a block below their key. -/
theorem LinesReadAs.below {indent : Nat} {block : Token} {written : Written} {tokens : List Token}
    (lines : LinesReadAs (indent + 2) block written tokens) (starts : StartsToken written.text) :
    ReadsAs indent false (written.after ('\n' :: spaces (indent + 2)))
      (block :: (tokens ++ [.blockEnd])) := by
  intro frame place count next indented _ _ shallow token
  have stands : (place.past (gapOf true (indent + 2))).column = indent + 2 :=
    column_past_line place (indent + 2)
  have arrives := lines.behind starts place frame indented (by omega) stands (Bool.or_true false)
    count shallow next token
  rw [Lexer.Arrives, Frame.leave_block indented shallow] at arrives
  exact arrives

/-- Lines at the column of their key belong to no block of their own. -/
theorem LinesReadAs.flush {indent : Nat} {block : Token} {written : Written} {tokens : List Token}
    (lines : LinesReadAs indent block written tokens) (starts : StartsToken written.text) :
    ReadsAs indent false (written.after ('\n' :: spaces indent)) tokens := by
  intro frame place count next indented _ _ shallow token
  have stands : (place.past (gapOf true indent)).column = indent := column_past_line place indent
  have arrives := lines.behind starts place frame indented (Nat.le_refl _) stands
    (Bool.or_true false) count shallow next token
  rw [Frame.enter_of_open indented] at arrives
  exact arrives

/-- A text that starts with a gap does so whatever stands behind it. -/
theorem gap_append {text : List Char} (gap : text.head?.any isGap = true) (rest : List Char) :
    (text ++ rest).head?.any isGap = true := by
  cases text with
  | nil => cases gap
  | cons c text => exact gap

/-- A word ends in front of a gap. -/
theorem endsWord_of_gap {text : List Char} (gap : text.head?.any isGap = true) :
    endsWord text = true := by
  cases text with
  | nil => rfl
  | cons c text => exact gap

/-- An item behind its dash is a line of a sequence. -/
theorem linesReadAs_item {indent : Nat} {written : Written} {tokens : List Token}
    (inline : ReadsAs indent true written tokens) (gap : written.text.head?.any isGap = true) :
    LinesReadAs indent .blockSequence (written.after ['-']) (.blockEntry :: tokens) := by
  intro frame place count next within column shallow token
  have dash := @Lexer.leads_indicator frame place _ '-' .blockSequence .blockEntry
    List.mem_cons_self (gap_append gap (lineStart written count ++ next)) (by omega)
  rw [column] at dash
  -- Next to the dash a key may start, one column further.
  have entered : ((frame.enter indent .blockSequence).put [.blockEntry]).indent = indent :=
    Frame.enter_indent within _
  have arrives := inline _ (place.along 1) count next entered (by simp [Place.along, column])
    (fun _ => by simp [Place.along, column]) shallow token
  rw [Frame.put_put] at arrives
  exact dash.arrives arrives

/-- A simple key in front of its value is a line of a mapping. -/
theorem linesReadAs_simple {indent : Nat} {key : String} {written : Written} {tokens : List Token}
    (simple : isSimpleKey key = true) (below : ReadsAs indent false written tokens)
    (gap : written.text.head?.any isGap = true) :
    LinesReadAs indent .blockMapping (simpleMember indent key written)
      (.key :: stringToken key :: .value :: tokens) := by
  intro frame place count next within column shallow token
  have ends := endsWord_of_gap (gap_append gap (lineStart written count ++ next))
  -- The key is read with its colon, and the value in the block that it opens.
  have colon := @Lexer.leads_key frame place _ _ _ (isKey_string simple indent) ends (by omega)
  rw [column] at colon
  have entered : ((frame.enter indent .blockMapping).put
      [.key, stringToken key, .value]).indent = indent := Frame.enter_indent within _
  have arrives := below _ (place.along ((writeString (indent + 2) key).text.length + 1)) count next
    entered (by simp only [Place.along]; omega) (fun never => absurd never (by decide)) shallow
    token
  rw [Frame.put_put] at arrives
  have text : (simpleMember indent key written).text ++
      (lineStart (simpleMember indent key written) count ++ next) =
      (writeString (indent + 2) key).text ++
        ':' :: (written.text ++ (lineStart written count ++ next)) := by
    simp [simpleMember, Written.after, lineStart]
  rw [text]
  exact colon.arrives arrives

/-- A key behind a question mark and its value behind a colon are lines of a mapping. -/
theorem linesReadAs_complex {indent : Nat} {key : String} {written : Written} {tokens : List Token}
    (inline : ReadsAs indent true written tokens) (gap : written.text.head?.any isGap = true) :
    LinesReadAs indent .blockMapping (complexMember indent key written)
      (.key :: stringToken key :: .value :: tokens) := by
  intro frame place count next within column shallow token
  have starts := gap_append gap (lineStart written count ++ next)
  have colonAhead : AtToken (':' :: (written.text ++ (lineStart written count ++ next))) :=
    atToken_cons (by decide)
  -- The key is read like an item, and the line of its value starts at the column of the block.
  have question := @Lexer.leads_indicator frame place
    (' ' :: ((writeString (indent + 2) key).text ++
      (lineStart (writeString (indent + 2) key) indent ++
        ':' :: (written.text ++ (lineStart written count ++ next)))))
    '?' .blockMapping .key (by simp [Lexer.indicators]) (by simp [isGap, isBlank]) (by omega)
  rw [column] at question
  have entered : ((frame.enter indent .blockMapping).put [.key]).indent = indent :=
    Frame.enter_indent within _
  obtain ⟨middle, stands, keyed⟩ := readsAs_string indent key true _ (place.along 1) indent _
    entered (by simp [Place.along, column]) (fun _ => by simp [Place.along, column])
    (Nat.le_refl _) colonAhead
  -- The block of the key is still open there, so the colon enters no other one.
  have inside : (((frame.enter indent .blockMapping).put [.key]).put [stringToken key]).indent =
      indent := entered
  rw [Frame.leave_of_le (Int.le_of_eq inside)] at keyed
  have colon := @Lexer.leads_indicator _ middle _ ':' .blockMapping .value
    (by simp [Lexer.indicators]) starts (by rw [inside, stands])
  rw [stands, Frame.enter_of_open inside] at colon
  have arrives := inline
    ((((frame.enter indent .blockMapping).put [.key]).put [stringToken key]).put [.value])
    (middle.along 1) count next inside (by simp [Place.along, stands])
    (fun _ => by simp [Place.along, stands]) shallow token
  simp only [Frame.put_put] at keyed colon arrives
  have text : (complexMember indent key written).text ++
      (lineStart (complexMember indent key written) count ++ next) =
      '?' :: ' ' :: ((writeString (indent + 2) key).text ++
        (lineStart (writeString (indent + 2) key) indent ++
          ':' :: (written.text ++ (lineStart written count ++ next)))) := by
    simp [complexMember, Written.line, Written.after, lineStart_eq]
  rw [text]
  exact question.arrives (keyed.arrives (colon.arrives arrives))

/-- A value is read where it stands inline and where it stands below a key. -/
def ValueReads (value : Value) : Prop :=
  ∀ indent, ReadsAs indent true (writeInline indent value) (valueTokens false value) ∧
    ReadsAs indent false (writeBelow indent value) (valueTokens true value)

/-- What is written inline starts behind a space. -/
theorem writeInline_starts (indent : Nat) (value : Value) :
    (writeInline indent value).text.head?.any isGap = true := by
  unfold writeInline
  split <;> simp [Written.after, isGap, isBlank]

/-- What is written below a key starts behind a space or on another line. -/
theorem writeBelow_starts (indent : Nat) (value : Value) :
    (writeBelow indent value).text.head?.any isGap = true := by
  unfold writeBelow
  split <;> simp [Written.after, isGap, isBlank, isBreak]

/-- The first of several items starts with its dash. -/
theorem writeItems_starts (indent : Nat) {items : List Value} (nonempty : items ≠ []) :
    StartsToken (writeItems indent items).text := by
  match items with
  | [] => exact absurd rfl nonempty
  | [item] => exact ⟨'-', _, rfl, by decide⟩
  | item :: next :: rest => exact ⟨'-', _, by rw [writeItems]; rfl; simp, by decide⟩

/-- Items that are read are read line by line. -/
theorem linesReadAs_items {items : List Value} (nonempty : items ≠ [])
    (each : ∀ item ∈ items, ValueReads item) (indent : Nat) :
    LinesReadAs indent .blockSequence (writeItems indent items) (itemTokens items) := by
  -- Every item makes a line of its own, in front of those of the others.
  induction items with
  | nil => exact absurd rfl nonempty
  | cons item rest ih =>
    have first := linesReadAs_item (each item List.mem_cons_self indent).1
      (writeInline_starts indent item)
    cases rest with
    | nil =>
      rw [writeItems, itemTokens, itemTokens, List.append_nil]
      exact first
    | cons next rest =>
      have later := ih (List.cons_ne_nil _ _)
        fun item inside => each item (List.mem_cons_of_mem _ inside)
      rw [writeItems, itemTokens]
      · exact first.line later (writeItems_starts indent (List.cons_ne_nil _ _))
      · simp

/-- A member on lines of its own. -/
def writeMember (indent : Nat) (key : String) (value : Value) : Written :=
  if isSimpleKey key then simpleMember indent key (writeBelow indent value)
  else complexMember indent key (writeInline indent value)

/-- Members are written one after the other. -/
theorem writeMembers_cons (indent : Nat) (key : String) (value : Value)
    {rest : List (String × Value)} (nonempty : rest ≠ []) :
    writeMembers indent ((key, value) :: rest) =
      (writeMember indent key value).line indent (writeMembers indent rest) := by
  rw [writeMembers]
  · rfl
  · exact nonempty

/-- A member starts with its key or with a question mark. -/
theorem writeMember_starts (indent : Nat) (key : String) (value : Value) (rest : List Char) :
    StartsToken ((writeMember indent key value).text ++ rest) := by
  unfold writeMember
  cases simple : isSimpleKey key with
  -- A simple key starts like a token, whatever its style is.
  | true =>
    obtain ⟨c, tail, split, first⟩ := (isKey_string simple indent).starts
    refine ⟨c, tail ++ ':' :: ((writeBelow indent value).text ++ rest), ?_, first⟩
    simp [simpleMember, Written.after, split]
  | false => exact ⟨'?', _, rfl, by decide⟩

/-- The first of several members starts like any member. -/
theorem writeMembers_starts (indent : Nat) {members : List (String × Value)}
    (nonempty : members ≠ []) : StartsToken (writeMembers indent members).text := by
  obtain ⟨⟨key, value⟩, rest, rfl⟩ := List.exists_cons_of_ne_nil nonempty
  by_cases last : rest = []
  · subst last
    have starts := writeMember_starts indent key value []
    rw [List.append_nil] at starts
    exact starts
  · rw [writeMembers_cons indent key value last]
    have starts := writeMember_starts indent key value
      (lineStart (writeMember indent key value) indent ++ (writeMembers indent rest).text)
    rw [← List.append_assoc] at starts
    exact starts

/-- A member is read as a key and a value. -/
theorem linesReadAs_member {value : Value} (reads : ValueReads value) (indent : Nat)
    (key : String) :
    LinesReadAs indent .blockMapping (writeMember indent key value)
      (.key :: stringToken key :: .value :: valueTokens (isSimpleKey key) value) := by
  unfold writeMember
  cases simple : isSimpleKey key with
  | true => exact linesReadAs_simple simple (reads indent).2 (writeBelow_starts indent value)
  | false => exact linesReadAs_complex (reads indent).1 (writeInline_starts indent value)

/-- Members whose values are read are read line by line. -/
theorem linesReadAs_members {members : List (String × Value)} (nonempty : members ≠ [])
    (each : ∀ member ∈ members, ValueReads member.2) (indent : Nat) :
    LinesReadAs indent .blockMapping (writeMembers indent members) (memberTokens members) := by
  induction members with
  | nil => exact absurd rfl nonempty
  | cons member rest ih =>
    obtain ⟨key, value⟩ := member
    have first := linesReadAs_member (each (key, value) List.mem_cons_self) indent key
    by_cases last : rest = []
    · subst last
      rw [memberTokens, memberTokens, List.append_nil]
      exact first
    · have later := ih last fun member inside => each member (List.mem_cons_of_mem _ inside)
      rw [writeMembers_cons indent key value last, memberTokens]
      exact first.line later (writeMembers_starts indent last)

/-- Every value is read as its tokens. -/
theorem valueReads (value : Value) : ValueReads value := by
  induction value using Value.parts_induction with
  | array items ih =>
    cases items with
    | nil =>
      intro indent
      have pair := @readsAs_brackets indent _ _ _ _ List.mem_cons_self
      exact ⟨pair true, pair false⟩
    | cons item rest =>
      intro indent
      have lines := linesReadAs_items (List.cons_ne_nil item rest) ih
      have starts (indent : Nat) := writeItems_starts indent (List.cons_ne_nil item rest)
      -- Inline the items are a block of their own, below a key they stand at its column.
      refine ⟨?_, ?_⟩
      · rw [writeInline, valueTokens]
        · exact (lines (indent + 2)).inline (starts (indent + 2))
        · simp
        · simp
      · rw [writeBelow, valueTokens]
        · exact (lines indent).flush (starts indent)
        · simp
        · simp
  | object members ih =>
    cases members with
    | nil =>
      intro indent
      have pair := @readsAs_brackets indent _ _ _ _ (List.mem_cons_of_mem _ List.mem_cons_self)
      exact ⟨pair true, pair false⟩
    | cons member rest =>
      intro indent
      have lines := linesReadAs_members (List.cons_ne_nil member rest) ih (indent + 2)
      have starts := writeMembers_starts (indent + 2) (List.cons_ne_nil member rest)
      -- Members are a deeper block in both places, on the same line or below.
      refine ⟨?_, ?_⟩
      · rw [writeInline, valueTokens]
        · exact lines.inline starts
        · simp
        · simp
      · rw [writeBelow, valueTokens]
        · exact lines.below starts
        · simp
        · simp
  | number n =>
    intro indent
    cases n <;> exact ⟨readsAs_scalarText rfl true, readsAs_scalarText rfl false⟩
  | _ => exact fun indent => ⟨readsAs_scalarText rfl true, readsAs_scalarText rfl false⟩

end SyncStore.Yaml
