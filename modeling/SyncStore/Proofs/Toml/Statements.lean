import SyncStore.Proofs.Toml.Inline

/-! A printed document reads back, line by line, as the document in printed order. -/

namespace SyncStore.Toml

/-- A line starts a statement with a bracket or with a key. -/
def StartsStatement (line : List Char) : Prop :=
  ∃ c tail, line = c :: tail ∧ (c = '[' ∨ startsNoKey c = false)

/-- A line states what it is read as, whatever the next lines are. -/
structure States (line : List Char) (statement : Statement) : Prop where
  starts : StartsStatement line
  read : ∀ rest, readStatement (line ++ '\n' :: rest) = some (statement, '\n' :: rest)

/-- A text is made of empty lines and of lines that hold one statement each. -/
inductive Lines : List Char → List Statement → Prop where
  | nil : Lines [] []
  | blank {text : List Char} {statements : List Statement} (rest : Lines text statements) :
    Lines ('\n' :: text) statements
  | line {line text : List Char} {statement : Statement} {statements : List Statement}
    (states : States line statement) (rest : Lines text statements) :
    Lines (line ++ '\n' :: text) (statement :: statements)

/-- Lines may follow lines. -/
theorem Lines.append {front back : List Char} {earlier later : List Statement}
    (first : Lines front earlier) (second : Lines back later) :
    Lines (front ++ back) (earlier ++ later) := by
  -- The lines in front are walked down to the ones behind them.
  induction first with
  | nil => exact second
  | blank rest ih => exact ih.blank
  | line states rest ih =>
    rw [List.append_assoc, List.cons_append]
    exact ih.line states

/-- A statement starts with a character that is not skipped. -/
theorem StartsStatement.kept {line : List Char} (starts : StartsStatement line) :
    ∃ c tail, line = c :: tail ∧ c ∉ '\uFEFF' :: skippedHeads := by
  obtain ⟨c, tail, rfl, head⟩ := starts
  refine ⟨c, tail, rfl, fun member => ?_⟩
  -- A bracket opens a header, and none of the skipped heads starts a key.
  have others : ('\uFEFF' :: skippedHeads).all (fun d => d ≠ '[' && startsNoKey d) = true := rfl
  have outside := List.all_eq_true.mp others c member
  rw [Bool.and_eq_true, decide_eq_true_eq] at outside
  exact head.elim outside.1 fun starts => by cases starts.symm.trans outside.2

/-- An empty line holds no statement. -/
theorem readStatements_blank (steps : Nat) (text : List Char) :
    readStatements steps ('\n' :: text) = readStatements steps text := by
  cases steps with
  | zero => rfl
  | succ steps =>
    -- An empty line is skipped before anything else is read.
    have skipped : skipLines (('\n' :: text).length + 1) ('\n' :: text) =
        skipLines (text.length + 1) text := rfl
    rw [readStatements, readStatements, skipped]

/-- A line ends behind its statement. -/
theorem endStatement_break (rest : List Char) : endStatement ('\n' :: rest) = some rest := rfl

/-- The statements of lines are read one after the other. -/
theorem Lines.readStatements {text : List Char} {statements : List Statement}
    (lines : Lines text statements) {steps : Nat} (enough : text.length < steps) :
    readStatements steps text = some statements := by
  induction lines generalizing steps with
  | nil =>
    obtain ⟨steps, rfl⟩ : ∃ fewer, steps = fewer + 1 := ⟨steps - 1, by omega⟩
    rfl
  -- An empty line takes no step, because it is skipped with what follows it.
  | blank rest ih =>
    rw [List.length_cons] at enough
    rw [readStatements_blank, ih (by omega)]
  | @line line text statement statements states rest ih =>
    obtain ⟨steps, rfl⟩ : ∃ fewer, steps = fewer + 1 := ⟨steps - 1, by omega⟩
    rw [List.length_append, List.length_cons] at enough
    -- A line starts with its statement, which is read up to the end of the line.
    have read := states.read text
    obtain ⟨c, tail, rfl, token⟩ := states.starts.kept
    have kept : c ∉ skippedHeads := fun member => token (List.mem_cons_of_mem _ member)
    rw [List.cons_append] at read ⊢
    have others := @ih steps (by omega)
    rw [Toml.readStatements, skipLines_cons kept, Option.bind_eq_bind, Option.bind_some]
    simp only [read, Option.bind_eq_bind, Option.bind_some, endStatement_break, others,
      Option.map_some]

/-- No lines start with a mark of the byte order. -/
theorem Lines.skipByteOrderMark {text : List Char} {statements : List Statement}
    (lines : Lines text statements) : skipByteOrderMark text = text := by
  -- Neither an empty line nor a statement starts with the mark.
  cases lines with
  | nil => rfl
  | blank rest => rfl
  | line states rest =>
    obtain ⟨c, tail, rfl, kept⟩ := states.starts.kept
    rw [List.cons_append, Toml.skipByteOrderMark]
    rintro rest same
    exact kept (by rw [(List.cons.inj same).1]; exact List.mem_cons_self)

/-- The line of an entry whose value is sound states that entry. -/
theorem states_entry {entry : String × Inline} (sound : entry.2.Sound maxDepth) :
    States (renderEntry entry) (.entry (plainEntry entry)) := by
  obtain ⟨c, tail, same, starts⟩ := renderKey_head entry.1
  have text : renderEntry entry =
      c :: (tail ++ ' ' :: '=' :: ' ' :: renderInline entry.2) := by
    rw [renderEntry, same, List.cons_append]
  refine ⟨⟨c, _, text, Or.inr starts⟩, fun rest => ?_⟩
  -- The reader takes two steps for every character.
  have enough : 2 * (renderEntry entry).length <
      2 * (renderEntry entry ++ '\n' :: rest).length + 2 := by
    rw [List.length_append]
    omega
  have read := readEntry_renderEntry (readsAt_of_sound sound) enough ⟨rest, Or.inl rfl⟩
  rw [readStatement, read, Option.map_some]
  -- No key starts with a bracket, so that the line is no header.
  rintro rest bracket
  rw [text] at bracket
  obtain rfl := (List.cons.inj bracket).1
  cases starts

/-- The line of a header. -/
def renderHeader (header : Header) : List Char :=
  if header.isElement then '[' :: '[' :: (renderPath (header.path ++ [header.key]) ++ [']', ']'])
  else '[' :: (renderPath (header.path ++ [header.key]) ++ [']'])

/-- The line of a header that leads not too deep states that header. -/
theorem states_header {header : Header} (shallow : header.path.length < maxDepth) :
    States (renderHeader header) (.header header) := by
  obtain ⟨path, key, isElement⟩ := header
  have ends : ∀ rest, EndsKey (']' :: rest) := fun rest => ⟨⟨by simp, by simp⟩, by simp [isBare]⟩
  have gap : ∀ rest, skipGap (']' :: rest) = ']' :: rest := skipGap_cons (by decide)
  have read (rest : List Char) :=
    @readPath_renderPath path key shallow _ (ends rest) (by simp [gap])
  cases isElement with
  -- Two brackets open and close the header of an element.
  | true =>
    refine ⟨⟨'[', _, rfl, Or.inl rfl⟩, fun rest => ?_⟩
    simp [renderHeader, readStatement, readHeader, read, gap]
  -- The path behind a single bracket starts with a key, so no second bracket opens.
  | false =>
    refine ⟨⟨'[', _, rfl, Or.inl rfl⟩, fun rest => ?_⟩
    obtain ⟨c, tail, same, starts⟩ := renderPath_head path key
    have noBracket : c ≠ '[' := by
      rintro rfl
      cases starts
    have opened := read ('\n' :: rest)
    rw [same, List.cons_append] at opened
    have header : readHeader (c :: (tail ++ ']' :: '\n' :: rest)) =
        some (⟨path, key, false⟩, '\n' :: rest) := by
      rw [readHeader, opened, gap]
      · rfl
      · exact fun _ same => noBracket (List.cons.inj same).1
    simp [renderHeader, readStatement, same, header]

/-- The lines of the values of a table state their entries. -/
theorem lines_valueLines {depth : Nat} {entries : List (String × Item)}
    (sound : ∀ entry ∈ entries, entry.2.Sound depth) :
    Lines (valueLines entries) (((valuesOf entries).map plainEntry).map .entry) := by
  induction entries with
  | nil => exact .nil
  | cons entry rest ih =>
    obtain ⟨key, item⟩ := entry
    obtain ⟨first, others⟩ := List.forall_mem_cons.mp sound
    cases first with
    -- Only values have lines of their own.
    | @value _ v value =>
      have line := Lines.line (@states_entry (key, v) value) (ih others)
      have text : valueLines ((key, .value v) :: rest) =
          renderEntry (key, v) ++ '\n' :: valueLines rest := by
        simp [valueLines, renderEntry]
      rw [text]
      exact line
    | table => exact ih others
    | tables => exact ih others

/-- The statements of sections, each behind its header. -/
def statementsOf (sections : List Section) : List Statement :=
  sections.flatMap fun one => .header one.header :: one.entries.map .entry

/-- The statements of sections are those of each. -/
theorem statementsOf_append (front back : List Section) :
    statementsOf (front ++ back) = statementsOf front ++ statementsOf back :=
  List.flatMap_append

/-- Entries in front of sections are told from them. -/
theorem sectioned_statements (entries : List Entry) (sections : List Section) :
    sectioned (entries.map .entry ++ statementsOf sections) = (entries, sections) := by
  induction sections generalizing entries with
  -- A header ends the entries in front of it and takes those behind it.
  | nil =>
    induction entries with
    | nil => rfl
    | cons entry rest ih => rw [List.map_cons, List.cons_append, sectioned, ih]
  | cons one sections others =>
    induction entries with
    | nil =>
      have shown : statementsOf (one :: sections) =
          .header one.header :: (one.entries.map .entry ++ statementsOf sections) := rfl
      rw [List.map_nil, List.nil_append, shown, sectioned, others]
    | cons entry rest ih => rw [List.map_cons, List.cons_append, sectioned, ih]

/-- An empty line in front of a header changes no statement. -/
theorem Lines.gapBefore {text : List Char} {statements : List Statement}
    (lines : Lines text statements) (isFirst : Bool) :
    Lines (gapBefore isFirst ++ text) statements := by
  -- The first section follows at once, and any other after an empty line.
  cases isFirst with
  | true => exact lines
  | false => exact lines.blank

/-- A section is the line of its header, the lines of its values and those of its sections. -/
theorem lines_section {depth : Nat} {header : Header} (shallow : header.path.length < maxDepth)
    {entries : List (String × Item)} (sound : ∀ entry ∈ entries, entry.2.Sound depth)
    {text : List Char} {sections : List Section} (behind : Lines text (statementsOf sections)) :
    Lines (renderHeader header ++ '\n' :: (valueLines entries ++ text))
      (statementsOf (⟨header, (valuesOf entries).map plainEntry⟩ :: sections)) :=
  ((lines_valueLines sound).append behind).line (states_header shallow)

mutual

/-- The sections of sound entries are printed as lines that state them. -/
theorem lines_renderSections : ∀ {depth : Nat} {path : List String} {isFirst : Bool}
    {entries : List (String × Item)}, path.length + depth ≤ maxDepth →
    (∀ entry ∈ entries, entry.2.Sound depth) →
    Lines (renderSections path isFirst entries) (statementsOf (sectionsAt path entries))
  | depth, path, isFirst, [], _, _ => by
    rw [renderSections, sectionsAt]
    exact .nil
  | depth, path, isFirst, (_, .value _) :: rest, room, sound => by
    rw [renderSections, sectionsAt]
    exact lines_renderSections room (List.forall_mem_cons.mp sound).2
  | depth, path, isFirst, (key, .table entries) :: rest, room, sound => by
    obtain ⟨first, later⟩ := List.forall_mem_cons.mp sound
    obtain ⟨fewer, rfl, table⟩ := Item.sound_table first
    -- The section is its header and its values, then its own sections, then the rest.
    have inner := @lines_renderSections fewer (path ++ [key]) false entries
      (by rw [List.length_append, List.length_singleton]; omega) table.sound
    have others := @lines_renderSections _ path false rest room later
    have lines := (@lines_section fewer ⟨path, key, false⟩ (by simp only; omega) _ table.sound _ _
      (statementsOf_append _ _ ▸ inner.append others)).gapBefore isFirst
    have text : renderSections path isFirst ((key, .table entries) :: rest) =
        gapBefore isFirst ++ (renderHeader ⟨path, key, false⟩ ++ '\n' :: (valueLines entries ++
          (renderSections (path ++ [key]) false entries ++ renderSections path false rest))) := by
      simp [renderSections, renderHeader]
    rw [text, sectionsAt]
    exact lines
  | depth, path, isFirst, (key, .tables elements) :: rest, room, sound => by
    obtain ⟨first, later⟩ := List.forall_mem_cons.mp sound
    obtain ⟨fewer, rfl, _, tables⟩ := Item.sound_tables first
    -- The tables of the list come first, then the rest.
    have list := @lines_renderElements fewer path key isFirst elements (by omega) tables
    have others := @lines_renderSections _ path (isFirst && elements.isEmpty) rest room later
    rw [renderSections, sectionsAt, statementsOf_append]
    exact list.append others
termination_by _ _ _ entries => sizeOf entries

/-- The tables of a list are printed as lines that state them. -/
theorem lines_renderElements : ∀ {depth : Nat} {path : List String} {key : String} {isFirst : Bool}
    {elements : List (List (String × Item))}, path.length + depth < maxDepth →
    (∀ entries ∈ elements, SoundEntries depth entries) →
    Lines (renderElements (path ++ [key]) isFirst elements)
      (statementsOf (elementsAt path key elements))
  | depth, path, key, isFirst, [], _, _ => by
    rw [renderElements, elementsAt]
    exact .nil
  | depth, path, key, isFirst, entries :: rest, room, sound => by
    obtain ⟨table, later⟩ := List.forall_mem_cons.mp sound
    -- The table is its header and its values, then its own sections, then the next table.
    have inner := @lines_renderSections depth (path ++ [key]) false entries
      (by rw [List.length_append, List.length_singleton]; omega) table.sound
    have others := @lines_renderElements depth path key false rest room later
    have lines := (@lines_section depth ⟨path, key, true⟩ (by simp only; omega) _ table.sound _ _
      (statementsOf_append _ _ ▸ inner.append others)).gapBefore isFirst
    have text : renderElements (path ++ [key]) isFirst (entries :: rest) =
        gapBefore isFirst ++ (renderHeader ⟨path, key, true⟩ ++ '\n' :: (valueLines entries ++
          (renderSections (path ++ [key]) false entries ++
            renderElements (path ++ [key]) false rest))) := by
      simp [renderElements, renderHeader]
    rw [text, elementsAt]
    exact lines
termination_by _ _ _ _ elements => sizeOf elements

end

/-- The text of a sound document reads back as the document in printed order. -/
theorem read?_render {document : Document} (sound : SoundEntries maxDepth document) :
    read? (render document) = some (printed document) := by
  -- The values and the sections of the document are lines that state them.
  have lines : Lines (valueLines document ++ renderSections [] (!hasValue document) document)
      (((valuesOf document).map plainEntry).map .entry ++
        statementsOf (sectionsAt [] document)) :=
    (lines_valueLines sound.sound).append (lines_renderSections (by simp) sound.sound)
  have read := lines.readStatements (Nat.lt_succ_self _)
  rw [read?, render, String.toList_ofList, lines.skipByteOrderMark]
  simp only [read, Option.bind_eq_bind, Option.bind_some, sectioned_statements,
    assemble_sectionsAt sound]

end SyncStore.Toml
