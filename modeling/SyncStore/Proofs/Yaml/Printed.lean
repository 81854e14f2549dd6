import SyncStore.Proofs.Yaml.Blocks

/-! Only printable characters are written, so every written text is one that may be read. -/

namespace SyncStore.Yaml

/-- Two texts are printed when both of them are. -/
theorem isPrinted_append {front back : List Char} :
    IsPrinted (front ++ back) ↔ IsPrinted front ∧ IsPrinted back := List.forall_mem_append

/-- A text behind a character is printed with it. -/
theorem isPrinted_cons {c : Char} {text : List Char} :
    IsPrinted (c :: text) ↔ isPrintable c = true ∧ IsPrinted text := List.forall_mem_cons

/-- Nothing is printed of an empty text. -/
theorem isPrinted_nil : IsPrinted [] := fun _ inside => absurd inside List.not_mem_nil

/-- Spaces are printed. -/
theorem isPrinted_spaces (count : Nat) : IsPrinted (spaces count) := by
  intro c inside
  rw [List.eq_of_mem_replicate inside]
  decide

/-- Hexadecimal digits are printed. -/
theorem isPrintable_of_hexValue? {c : Char} (valued : (Json.hexValue? c).isSome) :
    isPrintable c = true := by
  have bounds : 0x20 ≤ c.toNat ∧ c.toNat ≤ 0x7E := by
    have same : c.toNat = c.val.toNat := rfl
    -- All three ranges of digits lie among the visible characters of one byte.
    have ends : '0'.val.toNat = 48 ∧ '9'.val.toNat = 57 ∧ 'a'.val.toNat = 97 ∧
        'f'.val.toNat = 102 ∧ 'A'.val.toNat = 65 ∧ 'F'.val.toNat = 70 := by decide
    unfold Json.hexValue? at valued
    simp only [Char.isDigit, Bool.and_eq_true, decide_eq_true_eq, UInt32.le_iff_toNat_le,
      ge_iff_le, Char.le_def] at valued
    split at valued
    · omega
    split at valued
    · omega
    split at valued
    · omega
    · cases valued
  simp [isPrintable, bounds]

/-- Codes are printed. -/
theorem isPrinted_codeDigits (width code : Nat) : IsPrinted (codeDigits width code) := by
  intro c inside
  rcases List.mem_append.mp inside with zero | digit
  · rw [List.eq_of_mem_replicate zero]
    decide
  · exact isPrintable_of_hexValue? ((codeOf_toDigits code).2 c digit)

/-- Every escape is printed. -/
theorem Escapes.printed {c : Char} {letters : List Char} (spelled : Escapes c letters) :
    IsPrinted letters := by
  cases spelled with
  | short found =>
    exact isPrinted_cons.mpr ⟨by decide,
      isPrinted_cons.mpr ⟨(shortEscape?_letter found).2.1, isPrinted_nil⟩⟩
  | itself other printable => exact isPrinted_cons.mpr ⟨printable, isPrinted_nil⟩
  | code one =>
    exact isPrinted_cons.mpr ⟨by decide,
      isPrinted_cons.mpr ⟨(codes_letter one).2.2.2.1, isPrinted_codeDigits _ _⟩⟩

/-- A string between double quotes is printed, whatever it is. -/
theorem isPrinted_double (text : List Char) : IsPrinted (renderDouble text) := by
  refine isPrinted_cons.mpr ⟨by decide, isPrinted_append.mpr ⟨fun c inside => ?_, by decide⟩⟩
  obtain ⟨d, -, spelled⟩ := List.mem_flatMap.mp inside
  exact (escapes_escape d).printed c spelled

/-- A printed text is printed between single quotes. -/
theorem isPrinted_singleFrom (indent : Nat) (broken : Bool) {text : List Char}
    (printed : IsPrinted text) : IsPrinted (renderSingleFrom indent broken text) := by
  induction text generalizing broken with
  | nil =>
    cases broken
    · exact isPrinted_nil
    · exact isPrinted_spaces indent
  | cons c text ih =>
    obtain ⟨first, rest⟩ := isPrinted_cons.mp printed
    rw [renderSingleFrom]
    split
    · exact isPrinted_cons.mpr ⟨first, ih true rest⟩
    · -- A letter stands behind the spaces of its line, and a quote is doubled.
      refine isPrinted_append.mpr ⟨isPrinted_append.mpr ⟨?_, ?_⟩, ih false rest⟩
      · cases broken
        · exact isPrinted_nil
        · exact isPrinted_spaces indent
      · split
        · decide
        · exact isPrinted_cons.mpr ⟨first, isPrinted_nil⟩

/-- A printed text is printed in a literal block. -/
theorem isPrinted_literalLines (indent : Nat) (broken : Bool) {text : List Char}
    (printed : IsPrinted text) : IsPrinted (literalLines indent broken text) := by
  induction text generalizing broken with
  | nil => exact isPrinted_nil
  | cons c text ih =>
    obtain ⟨first, rest⟩ := isPrinted_cons.mp printed
    rw [literalLines]
    split
    · exact isPrinted_cons.mpr ⟨first, ih true rest⟩
    · refine isPrinted_append.mpr ⟨?_, isPrinted_cons.mpr ⟨first, ih false rest⟩⟩
      cases broken
      · exact isPrinted_nil
      · exact isPrinted_spaces indent

/-- A literal block of printed text is printed with its header. -/
theorem isPrinted_literal (indent : Nat) {text : List Char} (printed : IsPrinted text) :
    IsPrinted (renderLiteral indent text) := by
  -- The header is made of a digit and a sign, where it needs them.
  have hints : IsPrinted (indentHint text ++ chompHint text) := by
    refine isPrinted_append.mpr ⟨?_, ?_⟩
    · unfold indentHint
      split <;> decide
    · unfold chompHint
      split
      · decide
      · split <;> decide
      · split
        · decide
        · split <;> decide
  exact isPrinted_cons.mpr ⟨by decide, isPrinted_append.mpr ⟨hints, isPrinted_cons.mpr
    ⟨by decide, isPrinted_literalLines indent true printed⟩⟩⟩

/-- Every string is printed. -/
theorem isPrinted_string (indent : Nat) (s : String) : IsPrinted (writeString indent s).text := by
  -- Every style but double quotes is allowed for printed text only, and those print any text.
  rcases styleOf_cases s with ⟨style, -, plain⟩ | ⟨style, single, -⟩ | style | ⟨style, literal, -⟩
  · simp only [allowsPlain, Bool.and_eq_true] at plain
    simp only [writeString, style]
    exact List.all_eq_true.mp plain.1.1.1.2
  · simp only [allowsSingle, Bool.and_eq_true] at single
    simp only [writeString, style]
    exact isPrinted_cons.mpr ⟨by decide, isPrinted_append.mpr
      ⟨isPrinted_singleFrom indent false (List.all_eq_true.mp single.1.1), by decide⟩⟩
  · simp only [writeString, style]
    exact isPrinted_double s.toList
  · simp only [allowsLiteral, Bool.and_eq_true] at literal
    simp only [writeString, style]
    exact isPrinted_literal indent (List.all_eq_true.mp literal.1.1.2)

/-- Numeric characters are printed. -/
theorem isPrinted_numeric {text : List Char} (numeric : ∀ c ∈ text, isNumeric c = true) :
    IsPrinted text := by
  intro c inside
  have one := numeric c inside
  simp only [isNumeric, Bool.or_eq_true, decide_eq_true_eq] at one
  rcases one with (((digit | rfl) | rfl) | rfl) | rfl
  · refine isPrintable_of_hexValue? ?_
    rw [Json.hexValue?, if_pos digit]
    rfl
  all_goals decide

/-- Every scalar is printed, and so is every pair of brackets. -/
theorem isPrinted_scalar (indent : Nat) (value : Value) :
    IsPrinted (writeScalar indent value).text := by
  have words : IsPrinted "null".toList ∧ IsPrinted "true".toList ∧ IsPrinted "false".toList ∧
      IsPrinted "[]".toList ∧ IsPrinted "\x7b\x7d".toList := by decide +kernel
  cases value with
  | null => exact words.1
  | bool b =>
    cases b
    · exact words.2.2.1
    · exact words.2.1
  | number n =>
    cases n with
    | int n => exact isPrinted_numeric n.render_numeric
    | float x => exact isPrinted_numeric (floats.render_numeric x)
  | string s => exact isPrinted_string indent s
  | array items => exact words.2.2.2.1
  | object members => exact words.2.2.2.2

/-- A line is started with printed characters. -/
theorem isPrinted_lineStart (written : Written) (indent : Nat) :
    IsPrinted (lineStart written indent) := by
  unfold lineStart
  refine isPrinted_append.mpr ⟨?_, isPrinted_spaces indent⟩
  split <;> decide

/-- Two lines are printed when both of them are. -/
theorem isPrinted_line {first second : Written} (front : IsPrinted first.text)
    (back : IsPrinted second.text) (indent : Nat) : IsPrinted (first.line indent second).text :=
  isPrinted_append.mpr
    ⟨isPrinted_append.mpr ⟨front, isPrinted_lineStart first indent⟩, back⟩

/-- A text behind printed text is printed when it is. -/
theorem isPrinted_after {front : List Char} {written : Written} (first : IsPrinted front)
    (printed : IsPrinted written.text) : IsPrinted (written.after front).text :=
  isPrinted_append.mpr ⟨first, printed⟩

/-- The start of a line is printed. -/
theorem isPrinted_newLine (indent : Nat) : IsPrinted ('\n' :: spaces indent) :=
  isPrinted_cons.mpr ⟨by decide, isPrinted_spaces indent⟩

/-- A value is printed where it stands inline and where it stands below a key. -/
def ValuePrinted (value : Value) : Prop :=
  ∀ indent, IsPrinted (writeInline indent value).text ∧ IsPrinted (writeBelow indent value).text

/-- Items are printed when each of them is. -/
theorem isPrinted_items {items : List Value} (each : ∀ item ∈ items, ValuePrinted item)
    (indent : Nat) : IsPrinted (writeItems indent items).text := by
  induction items with
  | nil => exact isPrinted_nil
  | cons item rest ih =>
    have first : IsPrinted ((writeInline indent item).after ['-']).text :=
      isPrinted_after (by decide) (each item List.mem_cons_self indent).1
    cases rest with
    | nil => exact first
    | cons next rest =>
      have later := ih fun item inside => each item (List.mem_cons_of_mem _ inside)
      rw [writeItems]
      · exact isPrinted_line first later indent
      · simp

/-- A member is printed when its value is. -/
theorem isPrinted_member {value : Value} (printed : ValuePrinted value) (indent : Nat)
    (key : String) : IsPrinted (writeMember indent key value).text := by
  unfold writeMember
  have named := isPrinted_string (indent + 2) key
  split
  · exact isPrinted_after (isPrinted_append.mpr ⟨named, by decide⟩) (printed indent).2
  · exact isPrinted_line (isPrinted_after (by decide) named)
      (isPrinted_after (by decide) (printed indent).1) indent

/-- Members are printed when the value of each is. -/
theorem isPrinted_members {members : List (String × Value)}
    (each : ∀ member ∈ members, ValuePrinted member.2) (indent : Nat) :
    IsPrinted (writeMembers indent members).text := by
  induction members with
  | nil => exact isPrinted_nil
  | cons member rest ih =>
    obtain ⟨key, value⟩ := member
    have first := isPrinted_member (each (key, value) List.mem_cons_self) indent key
    by_cases last : rest = []
    · subst last
      exact first
    · have later := ih fun member inside => each member (List.mem_cons_of_mem _ inside)
      rw [writeMembers_cons indent key value last]
      exact isPrinted_line first later indent

/-- Every value is printed. -/
theorem valuePrinted (value : Value) : ValuePrinted value := by
  have scalar (value : Value) (indent wide : Nat) :
      IsPrinted ((writeScalar wide value).after [' ']).text :=
    isPrinted_after (by decide) (isPrinted_scalar wide value)
  induction value using Value.parts_induction with
  | array items ih =>
    intro indent
    cases items with
    -- An empty collection is written like a scalar.
    | nil => exact ⟨scalar _ indent indent, scalar _ indent indent⟩
    | cons item rest =>
      refine ⟨?_, ?_⟩
      · rw [writeInline]
        · exact isPrinted_after (by decide) (isPrinted_items ih (indent + 2))
        · simp
      · rw [writeBelow]
        · exact isPrinted_after (isPrinted_newLine indent) (isPrinted_items ih indent)
        · simp
  | object members ih =>
    intro indent
    cases members with
    | nil => exact ⟨scalar _ indent indent, scalar _ indent indent⟩
    | cons member rest =>
      refine ⟨?_, ?_⟩
      · rw [writeInline]
        · exact isPrinted_after (by decide) (isPrinted_members ih (indent + 2))
        · simp
      · rw [writeBelow]
        · exact isPrinted_after (isPrinted_newLine (indent + 2)) (isPrinted_members ih (indent + 2))
        · simp
  | _ => exact fun indent => ⟨scalar _ indent (indent + 2), scalar _ indent (indent + 2)⟩

/-- At the end of a text the tokens of a frame are those that are left of it. -/
theorem Lexer.run_end (frame : Frame) (place : Place) {steps : Nat} (enough : 0 < steps) :
    (frame.lexer true none ⟨[], place⟩).run steps =
      some ((frame.leave place.column).leave (-1)).tokens.reverse := by
  obtain ⟨steps, rfl⟩ := Nat.exists_eq_add_one_of_ne_zero (Nat.ne_of_gt enough)
  rw [run, @approach_token frame true none [] place atToken_nil (givenUp_none place)]
  rfl

/-- The tokens of data are those of one mapping. -/
theorem ofText?_render {data : Data} (nonempty : data ≠ []) :
    Token.ofText? (render data).toList =
      some (.blockMapping :: (memberTokens data ++ [.blockEnd])) := by
  have text : (render data).toList =
      (writeMembers 0 data).text ++ (lineStart (writeMembers 0 data) 0 ++ []) := by
    rw [render, String.toList_ofList, if_neg (by simpa using nonempty), List.append_nil]
  have printed : IsPrinted (render data).toList := by
    rw [text, List.append_nil]
    exact isPrinted_append.mpr ⟨isPrinted_members (fun member _ => valuePrinted member.2) 0,
      isPrinted_lineStart _ 0⟩
  -- The reader refuses a text with other characters before it looks at its tokens.
  have allowed : (render data).toList.all isAllowed = true :=
    List.all_eq_true.mpr fun c inside => isAllowed_of_printable (printed c inside)
  rw [Token.ofText?, if_pos allowed, text]
  -- The lexer starts outside of all blocks, and arrives at the end of the text.
  obtain ⟨place, stands, leads⟩ := linesReadAs_members nonempty
    (fun member _ => valueReads member.2) 0 ⟨-1, [], []⟩ .start 0 [] (by decide) rfl
    (Nat.le_refl _) atToken_nil
  obtain ⟨steps, enough, same⟩ := leads _ (Nat.lt_succ_self _)
  have left := @Frame.leave_entered ⟨-1, [], []⟩ 0 (-1) (by decide) (by decide) .blockMapping
    (memberTokens data)
  have outside :
      (Frame.put ⟨-1, [], []⟩ (.blockMapping :: (memberTokens data ++ [.blockEnd]))).leave (-1) =
        Frame.put ⟨-1, [], []⟩ (.blockMapping :: (memberTokens data ++ [.blockEnd])) :=
    Frame.leave_of_le (Int.le_refl _)
  have inside : ((Frame.enter ⟨-1, [], []⟩ 0 .blockMapping).put (memberTokens data)).leave
      ((0 : Nat) : Int) = (Frame.enter ⟨-1, [], []⟩ 0 .blockMapping).put (memberTokens data) :=
    Frame.leave_of_le (Int.le_refl _)
  -- There the block of the members is left, and the frame outside of it is not.
  rw [inside] at same
  refine same.trans ?_
  rw [Lexer.run_end _ _ (Nat.zero_lt_of_lt enough), stands, inside, left, outside]
  simp [Frame.put]

end SyncStore.Yaml
