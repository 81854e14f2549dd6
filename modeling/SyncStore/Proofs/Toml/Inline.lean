import SyncStore.Proofs.Toml.Assembly

/-! Values on one line read back up to what ends them. -/

namespace SyncStore.Toml

/-- What is skipped in front of a token starts with one of these. -/
def skippedHeads : List Char := [' ', '\t', '#', '\n', '\r']

/-- No token starts with what is skipped, nor with the end of a bracket. -/
def closingHeads : List Char := [']', '\x7d']

/-- No gap is in front of a character that is not skipped. -/
theorem skipGap_cons {c : Char} (kept : c ∉ skippedHeads) (rest : List Char) :
    skipGap (c :: rest) = c :: rest := by
  -- The character is no gap, so there is nothing to skip.
  simp only [skippedHeads, List.mem_cons, not_or] at kept
  rw [skipGap, List.dropWhile_cons_of_neg]
  simp [isGap, kept.1, kept.2.1]

/-- Nothing is skipped in front of a character that is not skipped. -/
theorem skipLines_cons {c : Char} (kept : c ∉ skippedHeads) (steps : Nat) (rest : List Char) :
    skipLines (steps + 1) (c :: rest) = some (c :: rest) := by
  have gap := skipGap_cons kept rest
  simp only [skippedHeads, List.mem_cons, not_or] at kept
  obtain ⟨_, _, noComment, noFeed, noReturn, _⟩ := kept
  -- The character starts no comment, and it ends no line.
  have comment : skipComment (c :: rest) = some (c :: rest) := by
    rw [skipComment]
    exact fun _ same => noComment (List.cons.inj same).1
  rw [skipLines, gap, comment, Option.bind_eq_bind, Option.bind_some,
    lineEnd?_none noFeed noReturn rest]

/-- A blank is skipped. -/
theorem skipLines_blank (steps : Nat) (text : List Char) :
    skipLines (steps + 1) (' ' :: text) = skipLines (steps + 1) text := by
  have gap : skipGap (' ' :: text) = skipGap text := rfl
  rw [skipLines, skipLines, gap]

/-- A text starts with a token when its first character is neither skipped nor ends a bracket. -/
def StartsToken (text : List Char) : Prop :=
  ∃ c tail, text = c :: tail ∧ c ∉ skippedHeads ++ closingHeads

/-- A token still starts a text when something stands behind it. -/
theorem StartsToken.append {text : List Char} (starts : StartsToken text) (rest : List Char) :
    StartsToken (text ++ rest) := by
  obtain ⟨c, tail, rfl, token⟩ := starts
  exact ⟨c, tail ++ rest, rfl, token⟩

/-- No gap is in front of a token. -/
theorem StartsToken.skipGap {text : List Char} (starts : StartsToken text) :
    skipGap text = text := by
  obtain ⟨c, tail, rfl, token⟩ := starts
  exact skipGap_cons (fun member => token (List.mem_append_left _ member)) tail

/-- At most one blank stands between a text and what it leads to. -/
def LeadsTo (behind text : List Char) : Prop := text = behind ∨ text = ' ' :: behind

/-- A text is skipped up to the kept character that it leads to. -/
theorem LeadsTo.skipLines {c : Char} {tail text : List Char} (leads : LeadsTo (c :: tail) text)
    (kept : c ∉ skippedHeads) (steps : Nat) : skipLines (steps + 1) text = some (c :: tail) := by
  -- The text starts there already, or behind one line end.
  obtain rfl | rfl := leads
  · exact skipLines_cons kept steps tail
  · rw [skipLines_blank, skipLines_cons kept]

/-- Keys start with bare characters and with quotes only. -/
def startsNoKey (c : Char) : Bool := !isBare c && c ≠ '"' && c ≠ '\''

/-- A key starts with a bare character or with a quote. -/
theorem renderKey_head (key : String) :
    ∃ c tail, renderKey key = c :: tail ∧ startsNoKey c = false := by
  rw [renderKey]
  split
  · -- A bare key is not empty, and its first character is bare.
    rename_i bare
    simp only [Bool.and_eq_true, Bool.not_eq_true', List.isEmpty_eq_false_iff, List.all_eq_true]
      at bare
    obtain ⟨c, tail, same⟩ := List.exists_cons_of_ne_nil bare.1
    have first : isBare c = true := bare.2 c (by simp [same])
    exact ⟨c, tail, same, by simp [startsNoKey, first]⟩
  · split
    · -- Any other key is quoted, in one style or the other.
      exact ⟨'\'', _, rfl, rfl⟩
    · exact ⟨'"', _, rfl, rfl⟩

/-- A key starts with a token. -/
theorem startsToken_renderKey (key : String) : StartsToken (renderKey key) := by
  obtain ⟨c, tail, same, starts⟩ := renderKey_head key
  -- No key starts like what is skipped, nor like the end of a bracket.
  have outside : (skippedHeads ++ closingHeads).all startsNoKey = true := rfl
  refine ⟨c, tail, same, fun member => ?_⟩
  cases starts.symm.trans (List.all_eq_true.mp outside c member)

/-- A key ends where neither a quote nor a bare character follows it. -/
structure EndsKey (rest : List Char) : Prop where
  quote : NoQuoteAhead rest
  bare : ∀ c ∈ rest.head?, isBare c = false

/-- A path of several keys has a point behind the first. -/
theorem renderPath_cons (first : String) (path : List String) (key : String) :
    renderPath (first :: (path ++ [key])) =
      renderKey first ++ '.' :: renderPath (path ++ [key]) := by
  cases path <;> simp [renderPath, List.intercalate]

/-- A path of one key is that key. -/
theorem renderPath_singleton (key : String) : renderPath [key] = renderKey key := by
  simp [renderPath, List.intercalate]

/-- A path starts with a key. -/
theorem renderPath_head (path : List String) (key : String) :
    ∃ c tail, renderPath (path ++ [key]) = c :: tail ∧ startsNoKey c = false := by
  cases path with
  | nil =>
    rw [List.nil_append, renderPath_singleton]
    exact renderKey_head key
  | cons first path =>
    obtain ⟨c, tail, same, starts⟩ := renderKey_head first
    rw [List.cons_append, renderPath_cons, same]
    exact ⟨c, _, rfl, starts⟩

/-- A path reads back up to what is not part of it. -/
theorem readParts_renderPath {path : List String} {key : String} {steps : Nat}
    (enough : path.length < steps) {rest : List Char} (ends : EndsKey rest)
    (noPoint : (skipGap rest).head? ≠ some '.') :
    readParts steps (renderPath (path ++ [key]) ++ rest) = some ((path, key), skipGap rest) := by
  induction path generalizing steps with
  | nil =>
    obtain ⟨steps, rfl⟩ : ∃ fewer, steps = fewer + 1 := ⟨steps - 1, by omega⟩
    rw [List.nil_append, renderPath_singleton, readParts,
      ((startsToken_renderKey key).append rest).skipGap, readKey_renderKey key ends.quote ends.bare,
      Option.bind_eq_bind, Option.bind_some]
    simp only
    -- No point follows, so this is the last key.
    split
    · rename_i point
      exact absurd (by rw [point, List.head?_cons]) noPoint
    · rfl
  | cons first path ih =>
    obtain ⟨steps, rfl⟩ : ∃ fewer, steps = fewer + 1 := ⟨steps - 1, by omega⟩
    rw [List.length_cons] at enough
    -- The point ends the first key, and the other keys are read behind it.
    have point : EndsKey ('.' :: (renderPath (path ++ [key]) ++ rest)) :=
      ⟨⟨by simp, by simp⟩, by simp [isBare]⟩
    have gap : skipGap ('.' :: (renderPath (path ++ [key]) ++ rest)) =
        '.' :: (renderPath (path ++ [key]) ++ rest) := skipGap_cons (by decide) _
    rw [List.cons_append, renderPath_cons, List.append_assoc, List.cons_append, readParts,
      ((startsToken_renderKey first).append _).skipGap,
      readKey_renderKey first point.quote point.bare, Option.bind_eq_bind, Option.bind_some]
    have others := @ih steps (by omega)
    simp only [gap, others]
    rfl

/-- A path is at least as long as the number of its keys. -/
theorem length_le_renderPath (path : List String) (key : String) :
    path.length ≤ (renderPath (path ++ [key])).length := by
  induction path with
  | nil => simp
  | cons first path ih =>
    rw [List.cons_append, renderPath_cons, List.length_append, List.length_cons, List.length_cons]
    omega

/-- A path that leads not too deep is read. -/
theorem readPath_renderPath {path : List String} {key : String} (shallow : path.length < maxDepth)
    {rest : List Char} (ends : EndsKey rest) (noPoint : (skipGap rest).head? ≠ some '.') :
    readPath (renderPath (path ++ [key]) ++ rest) = some ((path, key), skipGap rest) := by
  have long := length_le_renderPath path key
  -- Every key takes a step, and there are more characters than keys.
  have enough : path.length < (renderPath (path ++ [key]) ++ rest).length + 1 := by
    rw [List.length_append]
    omega
  rw [readPath, readParts_renderPath enough ends noPoint, Option.bind_eq_bind, Option.bind_some]
  simp only [shallow, ↓reduceIte]

/--
A value reads back with so many levels left when its text starts with a token and is read in
front of whatever ends it.
-/
structure ReadsAt (depth : Nat) (v : Inline) : Prop where
  starts : StartsToken (renderInline v)
  read : ∀ {steps : Nat} {rest : List Char}, 2 * (renderInline v).length < steps → EndsValue rest →
    readInline steps depth (renderInline v ++ rest) = some (v, rest)

/-- The text of a key and its value. -/
def renderEntry (entry : String × Inline) : List Char :=
  renderKey entry.1 ++ ' ' :: '=' :: ' ' :: renderInline entry.2

/-- An entry whose value reads back is read. -/
theorem readEntry_renderEntry {depth : Nat} {entry : String × Inline}
    (reads : ReadsAt depth entry.2) {steps : Nat} (enough : 2 * (renderEntry entry).length < steps)
    {rest : List Char} (ends : EndsValue rest) :
    readEntry steps depth (renderEntry entry ++ rest) = some (plainEntry entry, rest) := by
  obtain ⟨key, v⟩ := entry
  obtain ⟨steps, rfl⟩ : ∃ fewer, steps = fewer + 1 := ⟨steps - 1, by omega⟩
  have after : EndsKey (' ' :: '=' :: ' ' :: (renderInline v ++ rest)) :=
    ⟨⟨by simp, by simp⟩, by simp [isBare]⟩
  have gap : skipGap (' ' :: '=' :: ' ' :: (renderInline v ++ rest)) =
      '=' :: ' ' :: (renderInline v ++ rest) := rfl
  -- The key ends at the blank in front of the equals sign, which is skipped.
  have path := @readPath_renderPath [] key (by decide) _ after (by simp [gap])
  rw [List.nil_append, renderPath_singleton, gap] at path
  -- So is the blank behind it.
  have blank : skipGap (' ' :: (renderInline v ++ rest)) = renderInline v ++ rest :=
    (reads.starts.append rest).skipGap
  have short : 2 * (renderInline v).length < steps := by
    simp only [renderEntry, List.length_append, List.length_cons] at enough
    omega
  have value := reads.read short ends
  simp only [renderEntry, List.append_assoc, List.cons_append, readEntry, path,
    Option.bind_eq_bind, Option.bind_some, blank, value, Option.map_some, plainEntry]

/-- Items are separated by a comma and a blank. -/
theorem renderItems_cons_cons (item next : Inline) (items : List Inline) :
    renderItems (item :: next :: items) =
      renderInline item ++ ',' :: ' ' :: renderItems (next :: items) := by
  rw [renderItems]
  simp

/-- Entries are separated by a comma and a blank. -/
theorem renderEntries_cons_cons (entry next : String × Inline) (entries : List (String × Inline)) :
    renderEntries (entry :: next :: entries) =
      renderEntry entry ++ ',' :: ' ' :: renderEntries (next :: entries) := by
  rw [renderEntries, renderEntry]
  · simp
  · simp

/-- Behind an item comes the end of the array or a comma and further items. -/
theorem readItems_item {steps depth : Nat} {shown text : List Char} {item : Inline} {c : Char}
    {tail : List Char} (leads : LeadsTo shown text) (starts : StartsToken shown)
    (read : readInline steps depth shown = some (item, c :: tail)) (kept : c ∉ skippedHeads) :
    readItems (steps + 1) depth text =
      match c :: tail with
      | ']' :: rest => some ([item], rest)
      | ',' :: rest => (readItems steps depth rest).map fun (items, rest) => (item :: items, rest)
      | _ => none := by
  obtain ⟨d, front, rfl, token⟩ := starts
  -- What stands in front of the item is skipped, and the item does not end the array.
  have skipped := leads.skipLines (fun member => token (List.mem_append_left _ member)) text.length
  have noEnd : d ≠ ']' := by
    rintro rfl
    exact token (by decide)
  rw [readItems, skipped, Option.bind_eq_bind, Option.bind_some]
  split
  · rename_i same
    exact absurd (List.cons.inj same).1 noEnd
  · -- Behind the item nothing is skipped.
    rw [read, Option.bind_eq_bind, Option.bind_some]
    simp only
    rw [skipLines_cons kept]
    rfl

/-- Items that read back are read up to the end of their array. -/
theorem readItems_renderItems {depth : Nat} {items : List Inline}
    (reads : ∀ item ∈ items, ReadsAt depth item) {steps : Nat}
    (enough : 2 * (renderItems items).length + 1 < steps) {rest text : List Char}
    (leads : LeadsTo (renderItems items ++ ']' :: rest) text) :
    readItems steps depth text = some (items, rest) := by
  induction items generalizing steps text with
  -- An empty array ends at once.
  | nil =>
    obtain ⟨steps, rfl⟩ : ∃ fewer, steps = fewer + 1 := ⟨steps - 1, by omega⟩
    rw [readItems, leads.skipLines (by decide), Option.bind_eq_bind, Option.bind_some]
    rfl
  | cons item items ih =>
    obtain ⟨steps, rfl⟩ : ∃ fewer, steps = fewer + 1 := ⟨steps - 1, by omega⟩
    obtain ⟨first, others⟩ := List.forall_mem_cons.mp reads
    cases items with
    -- The last item is followed by the bracket.
    | nil =>
      rw [renderItems] at enough leads
      have short : 2 * (renderInline item).length < steps := by omega
      have read := first.read short ⟨rest, Or.inr (Or.inr (Or.inl rfl))⟩
      rw [readItems_item leads (first.starts.append _) read (by decide)]
      rfl
    -- Any other item is followed by a comma, and the rest are read behind its blank.
    | cons next items =>
      rw [renderItems_cons_cons] at enough leads
      rw [List.length_append, List.length_cons, List.length_cons] at enough
      rw [List.append_assoc, List.cons_append, List.cons_append] at leads
      have short : 2 * (renderInline item).length < steps := by omega
      have read := first.read short
        ⟨' ' :: (renderItems (next :: items) ++ ']' :: rest), Or.inr (Or.inl rfl)⟩
      have later := @ih others steps (by omega) _ (Or.inr rfl)
      rw [readItems_item leads (first.starts.append _) read (by decide)]
      simp only [later, Option.map_some]

/-- Behind an entry comes the end of the table or a comma and further entries. -/
theorem readEntries_entry {steps depth : Nat} {shown text behind : List Char} {entry : Entry}
    {c : Char} {tail : List Char} (leads : LeadsTo shown text) (starts : StartsToken shown)
    (read : readEntry steps depth shown = some (entry, behind)) (ends : LeadsTo (c :: tail) behind)
    (kept : c ∉ skippedHeads) :
    readEntries (steps + 1) depth text =
      match c :: tail with
      | '\x7d' :: rest => some ([entry], rest)
      | ',' :: rest =>
        (readEntries steps depth rest).map fun (entries, rest) => (entry :: entries, rest)
      | _ => none := by
  obtain ⟨d, front, rfl, token⟩ := starts
  -- What stands in front of the entry is skipped, and the entry does not end the table.
  have skipped := leads.skipLines (fun member => token (List.mem_append_left _ member)) text.length
  have noEnd : d ≠ '\x7d' := by
    rintro rfl
    exact token (by decide)
  rw [readEntries, skipped, Option.bind_eq_bind, Option.bind_some]
  split
  · rename_i same
    exact absurd (List.cons.inj same).1 noEnd
  · -- The blank behind the last entry is skipped.
    rw [read, Option.bind_eq_bind, Option.bind_some]
    simp only
    rw [ends.skipLines kept]
    rfl

/-- The text of an entry is a token. -/
theorem startsToken_renderEntry (entry : String × Inline) : StartsToken (renderEntry entry) :=
  (startsToken_renderKey entry.1).append _

/-- Entries that read back are read up to the end of their table. -/
theorem readEntries_renderEntries {depth : Nat} {entries : List (String × Inline)}
    (nonempty : entries ≠ []) (reads : ∀ entry ∈ entries, ReadsAt depth entry.2) {steps : Nat}
    (enough : 2 * (renderEntries entries).length + 1 < steps) (rest : List Char) :
    readEntries steps depth (' ' :: (renderEntries entries ++ ' ' :: '\x7d' :: rest)) =
      some (entries.map plainEntry, rest) := by
  induction entries generalizing steps with
  -- The last entry is followed by the brace.
  | nil => exact absurd rfl nonempty
  | cons entry entries ih =>
    obtain ⟨steps, rfl⟩ : ∃ fewer, steps = fewer + 1 := ⟨steps - 1, by omega⟩
    obtain ⟨first, others⟩ := List.forall_mem_cons.mp reads
    have starts := startsToken_renderEntry entry
    cases entries with
    | nil =>
      have shown : renderEntries [entry] = renderEntry entry := rfl
      rw [shown] at enough ⊢
      have short : 2 * (renderEntry entry).length < steps := by omega
      have read := readEntry_renderEntry first short ⟨rest, Or.inr (Or.inr (Or.inr rfl))⟩
      rw [readEntries_entry (Or.inr rfl) (starts.append _) read (Or.inr rfl) (by decide)]
      rfl
    -- Any other entry is followed by a comma, and the rest are read behind its blank.
    | cons next entries =>
      rw [renderEntries_cons_cons] at enough ⊢
      rw [List.length_append, List.length_cons, List.length_cons] at enough
      rw [List.append_assoc, List.cons_append, List.cons_append]
      have short : 2 * (renderEntry entry).length < steps := by omega
      have read := readEntry_renderEntry first short
        ⟨' ' :: (renderEntries (next :: entries) ++ ' ' :: '\x7d' :: rest), Or.inr (Or.inl rfl)⟩
      have later := @ih (by simp) others steps (by omega)
      rw [readEntries_entry (Or.inr rfl) (starts.append _) read (Or.inl rfl) (by decide)]
      simp only [later, Option.map_some, List.map_cons]

/-- A string starts with a quote. -/
theorem renderString_head (s : String) :
    ∃ tail, renderString s = '"' :: tail ∨ renderString s = '\'' :: tail := by
  rw [renderString]
  cases styleOf s.toList with
  | basic => exact ⟨_, Or.inl rfl⟩
  | literal => exact ⟨_, Or.inr rfl⟩
  | basicLines => exact ⟨_, Or.inl rfl⟩
  | literalLines => exact ⟨_, Or.inr rfl⟩

/-- A string reads back. -/
theorem readsAt_string (depth : Nat) (s : String) : ReadsAt depth (.string s) where
  starts := by
    rw [renderInline]
    obtain ⟨tail, same | same⟩ := renderString_head s
    · exact ⟨'"', tail, same, by decide⟩
    · exact ⟨'\'', tail, same, by decide⟩
  read := by
    intro steps rest enough ends
    obtain ⟨steps, rfl⟩ : ∃ fewer, steps = fewer + 1 := ⟨steps - 1, by omega⟩
    have read := readQuoted_renderString s ends.noQuoteAhead
    rw [renderInline]
    obtain ⟨tail, same | same⟩ := renderString_head s
    · rw [same, List.cons_append] at read ⊢
      rw [readInline, read, Option.map_some]
    · rw [same, List.cons_append] at read ⊢
      rw [readInline, read, Option.map_some]

/-- A value that is spelled by a word reads back. -/
theorem readsAt_word (depth : Nat) {v : Inline} (spells : Spells (renderInline v) v) :
    ReadsAt depth v := by
  -- An empty text spells no value.
  have nonempty : renderInline v ≠ [] := fun empty => by cases empty ▸ spells.is
  obtain ⟨c, tail, same⟩ := List.exists_cons_of_ne_nil nonempty
  have inside : endsScalar c = false := spells.solid c (by simp [same])
  refine ⟨⟨c, tail, same, fun member => ?_⟩, fun {steps rest} enough ends => ?_⟩
  · -- What is skipped and what closes a bracket both end a value.
    have outside : (skippedHeads ++ closingHeads).all endsScalar = true := rfl
    cases inside.symm.trans (List.all_eq_true.mp outside c member)
  · obtain ⟨steps, rfl⟩ : ∃ fewer, steps = fewer + 1 := ⟨steps - 1, by omega⟩
    have read := spells.read ends
    rw [same, List.cons_append] at read ⊢
    rw [readInline, read]
    -- No quote and no opening bracket stands in a word.
    all_goals
      rintro rest same
      obtain ⟨rfl, _⟩ := List.cons.inj same
      cases inside

/-- An array reads back, with one level less for its items. -/
theorem readsAt_array {depth : Nat} {items : List Inline}
    (reads : ∀ item ∈ items, ReadsAt depth item) : ReadsAt (depth + 1) (.array items) where
  starts := ⟨'[', _, by rw [renderInline], by decide⟩
  read := by
    intro steps rest enough ends
    obtain ⟨steps, rfl⟩ : ∃ fewer, steps = fewer + 1 := ⟨steps - 1, by omega⟩
    rw [renderInline, List.length_cons, List.length_append, List.length_singleton] at enough
    -- The bracket takes a step and a level.
    have read := @readItems_renderItems _ _ reads steps (by omega) rest _ (Or.inl rfl)
    rw [renderInline, List.cons_append, List.append_assoc, List.singleton_append, readInline, read,
      Option.map_some]

/-- An inline table reads back, with one level less for its values. -/
theorem readsAt_table {depth : Nat} {entries : List (String × Inline)}
    (distinct : OrderedMap.Distinct entries) (reads : ∀ entry ∈ entries, ReadsAt depth entry.2) :
    ReadsAt (depth + 1) (.table entries) := by
  have assembled := assembleInline_plain distinct
  -- Braces without entries touch each other, and others have a blank inside.
  by_cases empty : entries = []
  · subst empty
    have text : renderInline (.table []) = ['\x7b', '\x7d'] := by rw [renderInline]
    refine ⟨⟨'\x7b', _, text, by decide⟩, fun {steps rest} enough ends => ?_⟩
    rw [text, List.length_cons, List.length_singleton] at enough
    obtain ⟨steps, rfl⟩ : ∃ fewer, steps = fewer + 2 := ⟨steps - 2, by omega⟩
    have read : readEntries (steps + 1) depth ('\x7d' :: rest) = some ([], rest) := by
      rw [readEntries, skipLines_cons (by decide), Option.bind_eq_bind, Option.bind_some]
      rfl
    rw [text, List.cons_append, List.singleton_append, readInline]
    have nothing : assembleInline [] = some (.table []) := assembled
    simp [read, nothing]
  · have text : renderInline (.table entries) =
        '\x7b' :: ' ' :: (renderEntries entries ++ [' ', '\x7d']) := by
      rw [renderInline]
      exact empty
    refine ⟨⟨'\x7b', _, text, by decide⟩, fun {steps rest} enough ends => ?_⟩
    obtain ⟨steps, rfl⟩ : ∃ fewer, steps = fewer + 1 := ⟨steps - 1, by omega⟩
    rw [text, List.length_cons, List.length_cons, List.length_append] at enough
    have read := @readEntries_renderEntries _ _ empty reads steps (by omega) rest
    rw [text, List.cons_append, List.cons_append, List.append_assoc, readInline]
    simp [read, assembled]

/-- A sound value reads back. -/
theorem readsAt_of_sound {depth : Nat} {v : Inline} (sound : v.Sound depth) : ReadsAt depth v := by
  induction sound with
  | string s => exact readsAt_string _ s
  | integer n => exact readsAt_word _ (by rw [renderInline]; exact spells_integer n)
  | float back => exact readsAt_word _ (by rw [renderInline]; exact spells_float back)
  | boolean b => exact readsAt_word _ (spells_boolean b)
  | array sound ih => exact readsAt_array ih
  | table distinct sound ih => exact readsAt_table distinct ih

end SyncStore.Toml
