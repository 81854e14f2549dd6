import SyncStore.Proofs.Codec

/-! Indented text reads back as its value, because the reader skips what sets it apart. -/

namespace SyncStore.Json

/-- A new line in front of a text is skipped as a gap. -/
theorem skipGap_newLine (level : Nat) (text : List Char) :
    skipGap (newLine level ++ text) = skipGap text := by
  -- All of its characters are gaps.
  have gaps : ∀ count, skipGap (List.replicate count ' ' ++ text) = skipGap text := by
    intro count
    induction count with
    | zero => rfl
    | succ count ih => exact ih
  exact gaps (2 * level)

/-- No number goes on behind a new line. -/
theorem stopsNumber_newLine (level : Nat) (text : List Char) :
    StopsNumber (newLine level ++ text) := by
  intro c first
  obtain rfl : '\n' = c := Option.some.inj first
  decide

/-- Behind an item stand nothing, or a comma and the other items. -/
def otherItems (level : Nat) : List Value → List Char
  | [] => []
  | others => ',' :: indentedItems level others

/-- Behind a member stand nothing, or a comma and the other members. -/
def otherMembers (level : Nat) : List (String × Value) → List Char
  | [] => []
  | others => ',' :: indentedMembers level others

/-- An item opens a line, and the others follow it. -/
theorem indentedItems_cons (level : Nat) (first : Value) (others : List Value) :
    indentedItems level (first :: others) =
      newLine level ++ (indented level first ++ otherItems level others) := by
  cases others with
  | nil => rw [indentedItems, otherItems, List.append_nil]
  | cons second rest => rw [indentedItems, otherItems, List.append_assoc] <;> simp

/-- A member opens a line with its key, and the others follow it. -/
theorem indentedMembers_cons (level : Nat) (key : String) (value : Value)
    (others : List (String × Value)) :
    indentedMembers level ((key, value) :: others) =
      newLine level ++ (quote key ++
        ':' :: ' ' :: (indented level value ++ otherMembers level others)) := by
  cases others with
  | nil => simp [indentedMembers, otherMembers]
  | cons second rest => rw [indentedMembers, otherMembers] <;> simp

/-- The next item stands behind its comma on a line of its own. -/
theorem otherItems_cons (level : Nat) (next : Value) (others : List Value) :
    otherItems level (next :: others) =
      ',' :: (newLine level ++ (indented level next ++ otherItems level others)) := by
  rw [otherItems, indentedItems_cons]
  simp

/-- So does the next member. -/
theorem otherMembers_cons (level : Nat) (key : String) (value : Value)
    (others : List (String × Value)) :
    otherMembers level ((key, value) :: others) =
      ',' :: (newLine level ++ (quote key ++
        ':' :: ' ' :: (indented level value ++ otherMembers level others))) := by
  rw [otherMembers, indentedMembers_cons]
  simp

/-- The text of an array with items puts them between its brackets. -/
theorem indented_array (level : Nat) (first : Value) (others : List Value) :
    indented level (.array (first :: others)) =
      '[' :: (indentedItems (level + 1) (first :: others) ++ newLine level ++ [']']) := by
  rw [indented]
  simp

/-- The text of an object with members puts them between its braces. -/
theorem indented_object (level : Nat) (first : String × Value)
    (others : List (String × Value)) :
    indented level (.object (first :: others)) =
      '\x7b' :: (indentedMembers (level + 1) (first :: others) ++ newLine level ++ ['\x7d']) := by
  rw [indented]
  simp

/-- The text of a scalar is the same in both layouts. -/
theorem indented_scalar {value : Value} (scalar : value.nesting = 0) (level : Nat) :
    indented level value = compact value := by
  cases value with
  | array items => simp [Value.nesting] at scalar
  | object members => simp [Value.nesting] at scalar
  | _ => rw [indented, compact] <;> simp

/-- Indented text starts as compact text does, never with a gap or with the end of an array. -/
theorem indented_head (level : Nat) (value : Value) :
    ∃ c rest, indented level value = c :: rest ∧ isGap c = false ∧ c ≠ ']' := by
  cases value with
  | array items =>
    cases items with
    | nil => exact ⟨_, _, by rw [indented], by decide, by decide⟩
    | cons first others => exact ⟨_, _, indented_array level first others, by decide, by decide⟩
  | object members =>
    cases members with
    | nil => exact ⟨_, _, by rw [indented], by decide, by decide⟩
    | cons first others => exact ⟨_, _, indented_object level first others, by decide, by decide⟩
  | _ =>
    rw [indented_scalar rfl]
    exact compact_head _

/-- A value is read at a depth from its indented text in front of anything that ends a number. -/
def ReadIndentedAt (depth : Nat) (value : Value) : Prop :=
  ∀ level steps rest, 3 * (indented level value).length ≤ steps → StopsNumber rest →
    readValue steps depth (indented level value ++ rest) = .ok (value, rest)

/-- What stands behind an item ends a number, in front of the line that ends the array. -/
theorem stopsNumber_otherItems (level inner : Nat) (others : List Value) (rest : List Char) :
    StopsNumber (otherItems inner others ++ (newLine level ++ rest)) := by
  cases others with
  | nil => exact stopsNumber_newLine level rest
  | cons => exact stopsNumber_cons (by simp) _

/-- What stands behind a member ends a number as well. -/
theorem stopsNumber_otherMembers (level inner : Nat) (others : List (String × Value))
    (rest : List Char) : StopsNumber (otherMembers inner others ++ (newLine level ++ rest)) := by
  cases others with
  | nil => exact stopsNumber_newLine level rest
  | cons => exact stopsNumber_cons (by simp) _

/-- Items that are read one by one are read in a row, up to the end of their array. -/
theorem readMoreItems_indented {depth : Nat} (level inner : Nat) {first : Value}
    {others : List Value} (reads : ∀ item ∈ first :: others, ReadIndentedAt depth item) :
    ∀ steps rest, 3 * (indented inner first ++ otherItems inner others).length + 1 ≤ steps →
      readMoreItems steps depth (indented inner first ++
        (otherItems inner others ++ (newLine level ++ ']' :: rest))) =
          .ok (first :: others, rest) := by
  induction others generalizing first with
  | nil =>
    intro steps rest enough
    obtain ⟨steps, rfl⟩ : ∃ fewer, steps = fewer + 1 := ⟨steps - 1, by omega⟩
    rw [List.length_append] at enough
    -- The last item is followed by the line that ends the array.
    have read := (List.forall_mem_cons.mp reads).1 inner steps _ (by omega)
      (stopsNumber_otherItems level inner [] (']' :: rest))
    rw [readMoreItems, read]
    simp only [otherItems, List.nil_append, skipGap_newLine,
      skipGap_cons (show isGap ']' = false from rfl)]
  | cons second others ih =>
    intro steps rest enough
    obtain ⟨steps, rfl⟩ : ∃ fewer, steps = fewer + 1 := ⟨steps - 1, by omega⟩
    obtain ⟨head, tail⟩ := List.forall_mem_cons.mp reads
    simp only [otherItems_cons, List.length_append, List.length_cons] at enough
    have read := head inner steps _ (by omega)
      (stopsNumber_otherItems level inner (second :: others) (']' :: rest))
    have later := ih tail steps rest (by rw [List.length_append]; omega)
    -- Behind the comma a new line is skipped, and the next item is no end of the array.
    obtain ⟨c, body, same, solid, other⟩ := indented_head inner second
    rw [readMoreItems, read]
    simp only [otherItems_cons, List.cons_append, List.append_assoc,
      skipGap_cons (show isGap ',' = false from rfl), skipGap_newLine]
    rw [same, List.cons_append] at later ⊢
    rw [skipGap_cons solid]
    split
    · rename_i same
      cases same
    · rename_i same
      exact absurd (List.cons.inj same).1 other
    · rw [later]
      rfl

/-- An array is read one level deeper than its items. -/
theorem readIndented_array {depth : Nat} {items : List Value}
    (reads : ∀ item ∈ items, ReadIndentedAt depth item) :
    ReadIndentedAt (depth + 1) (.array items) := by
  intro level steps rest enough stops
  cases items with
  | nil =>
    -- An empty array ends at once.
    rw [indented] at enough ⊢
    obtain ⟨steps, rfl⟩ : ∃ fewer, steps = fewer + 2 :=
      ⟨steps - 2, by simp only [List.length_cons] at enough; omega⟩
    simp only [List.cons_append, List.nil_append, readValue, readItems,
      skipGap_cons (show isGap '[' = false from rfl),
      skipGap_cons (show isGap ']' = false from rfl),
      Except.map]
  | cons first others =>
    rw [indented_array, indentedItems_cons] at enough ⊢
    simp only [List.length_cons, List.length_append] at enough
    obtain ⟨steps, rfl⟩ : ∃ fewer, steps = fewer + 2 := ⟨steps - 2, by omega⟩
    have read := readMoreItems_indented level (level + 1) reads steps rest
      (by rw [List.length_append]; omega)
    obtain ⟨c, body, same, solid, other⟩ := indented_head (level + 1) first
    simp only [List.cons_append, List.append_assoc, List.nil_append, readValue, readItems,
      skipGap_cons (show isGap '[' = false from rfl), skipGap_newLine]
    rw [same, List.cons_append] at read ⊢
    rw [skipGap_cons solid]
    -- The first item is no end of the array.
    split
    · rename_i same
      cases same
    · rename_i same
      exact absurd (List.cons.inj same).1 other
    · rw [read]
      rfl

/-- A blank in front of a value is skipped. -/
theorem readValue_blank (steps depth : Nat) (text : List Char) :
    readValue steps depth (' ' :: text) = readValue steps depth text := by
  cases steps with
  | zero => rw [readValue, readValue]
  | succ steps => rw [readValue, readValue, show skipGap (' ' :: text) = skipGap text from rfl]

/-- Members whose values are read one by one are read in a row from behind their first quote. -/
theorem readMoreMembers_indented {depth : Nat} (level inner : Nat) {key : String} {value : Value}
    {others : List (String × Value)}
    (reads : ∀ member ∈ (key, value) :: others, ReadIndentedAt depth member.2) :
    ∀ steps rest,
      3 * (':' :: ' ' :: (indented inner value ++ otherMembers inner others)).length ≤ steps →
      readMoreMembers steps depth (key.toList.flatMap escape ++ '"' :: ':' :: ' ' ::
        (indented inner value ++
          (otherMembers inner others ++ (newLine level ++ '\x7d' :: rest)))) =
          .ok ((key, value) :: others, rest) := by
  induction others generalizing key value with
  | nil =>
    intro steps rest enough
    simp only [List.length_append, List.length_cons] at enough
    obtain ⟨steps, rfl⟩ : ∃ fewer, steps = fewer + 1 := ⟨steps - 1, by omega⟩
    -- The last member is followed by the line that ends the object.
    have read := (List.forall_mem_cons.mp reads).1 inner steps _ (by dsimp only; omega)
      (stopsNumber_otherMembers level inner [] ('\x7d' :: rest))
    simp only [readMoreMembers, readString_quote, skipGap_cons (show isGap ':' = false from rfl),
      readValue_blank, read]
    simp only [otherMembers, List.nil_append, skipGap_newLine,
      skipGap_cons (show isGap '\x7d' = false from rfl)]
  | cons second others ih =>
    obtain ⟨nextKey, next⟩ := second
    intro steps rest enough
    obtain ⟨steps, rfl⟩ : ∃ fewer, steps = fewer + 1 :=
      ⟨steps - 1, by simp only [List.length_cons] at enough; omega⟩
    obtain ⟨head, tail⟩ := List.forall_mem_cons.mp reads
    simp only [otherMembers_cons, List.length_append, List.length_cons] at enough
    have read := head inner steps _ (by dsimp only; omega)
      (stopsNumber_otherMembers level inner ((nextKey, next) :: others) ('\x7d' :: rest))
    have later := ih tail steps rest
      (by simp only [List.length_cons, List.length_append]; omega)
    -- Behind the comma a new line is skipped, and the next key opens with its quote.
    simp only [readMoreMembers, readString_quote, skipGap_cons (show isGap ':' = false from rfl),
      readValue_blank, read]
    simp only [otherMembers_cons, List.cons_append, List.append_assoc, quote_append,
      skipGap_cons (show isGap ',' = false from rfl), skipGap_newLine,
      skipGap_cons (show isGap '"' = false from rfl), later]
    rfl

/-- An object with distinct keys is read one level deeper than its members. -/
theorem readIndented_object {depth : Nat} {members : List (String × Value)}
    (distinct : OrderedMap.Distinct members)
    (reads : ∀ member ∈ members, ReadIndentedAt depth member.2) :
    ReadIndentedAt (depth + 1) (.object members) := by
  intro level steps rest enough stops
  cases members with
  | nil =>
    -- An empty object ends at once.
    rw [indented] at enough ⊢
    obtain ⟨steps, rfl⟩ : ∃ fewer, steps = fewer + 2 :=
      ⟨steps - 2, by simp only [List.length_cons] at enough; omega⟩
    simp only [List.cons_append, List.nil_append, readValue, readMembers,
      skipGap_cons (show isGap '\x7b' = false from rfl),
      skipGap_cons (show isGap '\x7d' = false from rfl), Except.map, OrderedMap.ofEntries,
      OrderedMap.merge, List.foldl_nil]
  | cons first others =>
    obtain ⟨key, value⟩ := first
    rw [indented_object, indentedMembers_cons] at enough ⊢
    simp only [List.length_cons, List.length_append] at enough
    obtain ⟨steps, rfl⟩ : ∃ fewer, steps = fewer + 2 := ⟨steps - 2, by omega⟩
    have read := readMoreMembers_indented level (level + 1) reads steps rest
      (by simp only [List.length_cons, List.length_append]; omega)
    -- The members are read in a row, and distinct keys make the same object of them.
    simp only [List.cons_append, List.append_assoc, List.nil_append, readValue, readMembers,
      quote_append, skipGap_cons (show isGap '\x7b' = false from rfl), skipGap_newLine,
      skipGap_cons (show isGap '"' = false from rfl), read, Except.map,
      OrderedMap.ofEntries_of_distinct distinct]

/-- A value nested no deeper than the depth is read from its indented text, when its keys are
distinct and its floats read back. -/
theorem readValue_indented {value : Value} (distinct : value.Throughout Value.DistinctKeys)
    (floats : value.Throughout (Value.FloatSatisfies Binary64.ReadsBack)) {depth : Nat}
    (nested : value.nesting ≤ depth) : ReadIndentedAt depth value := by
  -- One level of the depth is used up by each array and object.
  induction value using Value.parts_induction generalizing depth with
  | array items ih =>
    rw [Value.nesting] at nested
    obtain ⟨depth, rfl⟩ : ∃ inner, depth = inner + 1 := ⟨depth - 1, by omega⟩
    have within := Value.nestingOfItems_le.mp (Nat.le_of_succ_le_succ nested)
    refine readIndented_array fun item member => ih item member ?_ ?_ (within item member)
    · exact (Value.throughout_array.mp distinct).2 item member
    · exact (Value.throughout_array.mp floats).2 item member
  | object members ih =>
    rw [Value.nesting] at nested
    obtain ⟨depth, rfl⟩ : ∃ inner, depth = inner + 1 := ⟨depth - 1, by omega⟩
    have within := Value.nestingOfMembers_le.mp (Nat.le_of_succ_le_succ nested)
    refine readIndented_object distinct.here fun entry member =>
      ih entry member ?_ ?_ (within entry member)
    · exact (Value.throughout_object.mp distinct).2 entry member
    · exact (Value.throughout_object.mp floats).2 entry member
  | _ =>
    intro level steps rest enough stops
    rw [indented_scalar rfl] at enough ⊢
    exact readValue_scalar rfl floats.here depth steps rest enough stops

/-- The characters of a printed line are those of the value and the end of the line. -/
theorem toList_line (value : Value) :
    (value.indentedText ++ "\n").toList = indented 0 value ++ ['\n'] := by
  rw [String.toList_append, Value.indentedText, String.toList_ofList]
  rfl

/-- A printed line of an exact value starts with the value wherever enough levels are left. -/
theorem readValue_line {value : Value} (exact : value.Exact) {depth : Nat}
    (nested : value.nesting ≤ depth) :
    readValue (3 * (value.indentedText ++ "\n").toList.length + 1) depth
      (value.indentedText ++ "\n").toList = .ok (value, ['\n']) := by
  rw [toList_line]
  exact readValue_indented exact.distinct exact.floats nested 0
    (3 * (indented 0 value ++ ['\n']).length + 1) ['\n'] (by rw [List.length_append]; omega)
    (stopsNumber_newLine 0 [])

/-- A printed line of an exact value is read in whole up to the nesting limit. -/
theorem read_indentedText {value : Value} (exact : value.Exact)
    (nested : value.nesting ≤ maxDepth) :
    Json.read (value.indentedText ++ "\n") = .ok value := by
  -- Only the end of the line is left, and that is a gap.
  rw [Json.read, readText, readValue_line exact nested]
  rfl

/-- A printed line of an exact value is refused beyond the nesting limit. -/
theorem read_indentedText_tooDeep {value : Value} (exact : value.Exact)
    (nested : maxDepth < value.nesting) :
    ∃ error, Json.read (value.indentedText ++ "\n") = .error error :=
  read_tooDeep nested (readValue_line exact (Nat.le_refl _))

end SyncStore.Json
