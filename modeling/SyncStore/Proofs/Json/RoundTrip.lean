import SyncStore.Codec
import SyncStore.Proofs.Except
import SyncStore.Proofs.Json.Number
import SyncStore.Proofs.Json.Quoted
import SyncStore.Proofs.Value

/-! Compact text reads back as its value up to the nesting limit, and not beyond it. -/

namespace SyncStore

/-- A float reads back when its stored text decodes to it. -/
def Binary64.ReadsBack (x : Binary64) : Prop :=
  decodeValue (encodeValue (.number (.float x))) = .number (.float x)

namespace Json

/-- A character that is no gap is not skipped. -/
theorem skipGap_cons {c : Char} (solid : isGap c = false) (rest : List Char) :
    skipGap (c :: rest) = c :: rest := by
  simp [skipGap, solid]

/-- Numeric characters are no gaps. -/
theorem isGap_of_isNumeric {c : Char} (numeric : isNumeric c = true) : isGap c = false := by
  -- Each of the four gaps is settled by looking at it.
  by_cases gap : isGap c = true
  · simp only [isGap, Bool.or_eq_true, decide_eq_true_eq] at gap
    rcases gap with ((rfl | rfl) | rfl) | rfl <;> simp_all [isNumeric]
  · simpa using gap

/-- A number is an optional minus sign in front of its digits. -/
def readSigned (text : List Char) : Reads Number :=
  match text with
  | '-' :: rest => readUnsigned true rest
  | rest => readUnsigned false rest

/-- Numbers are read locally under their sign. -/
theorem readSigned_local : Local readSigned := by
  intro text n rest read
  unfold readSigned at read
  split at read
  · -- The sign is in front of what is read, whatever follows.
    obtain ⟨suffix, extended⟩ := readUnsigned_local true _ n rest read
    exact ⟨suffix.trans (List.suffix_cons _ _), extended⟩
  · -- Without a sign the text starts with a digit, and so does a longer one.
    rename_i noSign
    obtain ⟨suffix, extended⟩ := readUnsigned_local false _ n rest read
    refine ⟨suffix, fun more stops => ?_⟩
    cases text with
    | nil => simp [readUnsigned, failAt] at read
    | cons c tail =>
      rw [List.cons_append, readSigned]
      · exact extended more stops
      · intro other same
        exact noSign tail (by rw [(List.cons.inj same).1])

/-- A text that starts like a number is read as one. -/
theorem readValue_of_startsNumber {text : List Char} (starts : StartsNumber text)
    (steps depth : Nat) :
    readValue (steps + 1) depth text =
      (readSigned text).map fun (n, rest) => (.number n, rest) := by
  obtain ⟨c, rest, rfl, sign | digit⟩ := starts
  · -- A minus sign opens nothing but a number.
    subst c
    rw [readValue, skipGap_cons rfl]
    rfl
  · have noSign : c ≠ '-' := by
      rintro rfl
      simp at digit
    rw [readValue, skipGap_cons (isGap_of_isNumeric (isNumeric_of_isDigit digit)), readSigned]
    · -- No digit is a letter, a quote, a sign or a bracket.
      split
      · rename_i same
        cases same
      all_goals try
        rename_i same
        obtain ⟨rfl, rfl⟩ := List.cons.inj same
        simp at digit
      rename_i same
      obtain ⟨rfl, rfl⟩ := List.cons.inj same
      simp [digit]
    · intro other same
      exact noSign (List.cons.inj same).1

/-- A float that reads back is read from the front of any text that it starts. -/
theorem readSigned_float {x : Binary64} (back : x.ReadsBack) {rest : List Char}
    (stops : StopsNumber rest) :
    readSigned (floats.render x ++ rest) = .ok (.float x, rest) := by
  -- The stored text of the float is its number alone.
  have text : encodeValue (.number (.float x)) = String.ofList (floats.render x) := rfl
  rw [Binary64.ReadsBack, text, decodeValue, Json.read, readText, String.toList_ofList,
    readValue_of_startsNumber (floats.render_starts x)] at back
  cases read : readSigned (floats.render x) with
  | error fault => simp [read, Except.map] at back
  | ok found =>
    obtain ⟨n, left⟩ := found
    simp only [read, Except.map] at back
    obtain ⟨suffix, extended⟩ := readSigned_local _ n left read
    -- Nothing is left behind the number, because its text has no gap.
    have none : left = [] := by
      cases left with
      | nil => rfl
      | cons c left =>
        have numeric := floats.render_numeric x c (suffix.subset (by simp))
        simp [skipGap_cons (isGap_of_isNumeric numeric), failAfter] at back
    subst left
    simp only [skipGap, List.dropWhile_nil, mapError_ok, Value.number.injEq] at back
    subst back
    exact extended rest stops

/-- A word-sized integer is read from the front of any text that it starts. -/
theorem readSigned_int (n : WordInt) {rest : List Char} (stops : StopsNumber rest) :
    readSigned (n.render ++ rest) = .ok (.int n, rest) := by
  have lower := n.lower
  have upper := n.upper
  -- A word fits its digits, whatever its sign is.
  have small : n.val.natAbs < 2 ^ 64 := by omega
  unfold WordInt.render
  by_cases below : n.val < 0
  · -- A negative number has a minus sign in front of its magnitude.
    simp only [below, ↓reduceIte, List.cons_append, List.nil_append, readSigned]
    rw [readUnsigned_toDigits true small stops, integerOf_negative below]
  · simp only [below, ↓reduceIte, List.nil_append]
    obtain ⟨c, tail, same, digit, _⟩ := Decimal.toDigits_head n.val.natAbs
    -- Digits have no sign in front of them.
    have unsigned : readSigned (Nat.toDigits 10 n.val.natAbs ++ rest) =
        readUnsigned false (Nat.toDigits 10 n.val.natAbs ++ rest) := by
      rw [same, List.cons_append, readSigned]
      rintro _ same
      obtain ⟨rfl, _⟩ := List.cons.inj same
      simp at digit
    rw [unsigned, readUnsigned_toDigits false small stops, integerOf_nonnegative (by omega)]

/-- A written number starts with its sign or with a digit. -/
theorem number_starts (n : Number) : StartsNumber (number n) := by
  cases n with
  | int n => exact n.render_starts
  | float x => exact floats.render_starts x

/-- What stops a composite or separates its parts is no part of a number. -/
theorem stopsNumber_cons {c : Char} (stop : c = ',' ∨ c = ']' ∨ c = '\x7d') (rest : List Char) :
    StopsNumber (c :: rest) := by
  -- None of these marks can stand in a number.
  intro d first
  obtain rfl : c = d := by simpa using first
  rcases stop with rfl | rfl | rfl <;> decide

/-- Compact text never starts with a gap or with the end of an array. -/
theorem compact_head (value : Value) :
    ∃ c rest, compact value = c :: rest ∧ isGap c = false ∧ c ≠ ']' := by
  cases value with
  -- A number starts with its sign or with a digit.
  | number n =>
    obtain ⟨c, rest, same, first⟩ := number_starts n
    refine ⟨c, rest, same, ?_, ?_⟩
    · rcases first with rfl | digit
      · rfl
      · exact isGap_of_isNumeric (isNumeric_of_isDigit digit)
    · rintro rfl
      simp at first
  -- Every other value starts with a letter, a quote or a bracket.
  | bool b => cases b <;> exact ⟨_, _, rfl, by decide, by decide⟩
  | _ => exact ⟨_, _, rfl, by decide, by decide⟩

/-- A value is read at a depth when it is taken off the front of any text that it starts. -/
def ReadAt (depth : Nat) (value : Value) : Prop :=
  ∀ steps rest, 3 * (compact value).length ≤ steps → StopsNumber rest →
    readValue steps depth (compact value ++ rest) = .ok (value, rest)

/-- A quoted string in front of a text is its opening quote and what is read behind it. -/
theorem quote_append (s : String) (rest : List Char) :
    quote s ++ rest = '"' :: (s.toList.flatMap escape ++ '"' :: rest) := by
  simp [quote]

/-- An item in front of others is followed by a comma. -/
theorem compactItems_cons (first : Value) {rest : List Value} (more : rest ≠ []) :
    compactItems (first :: rest) = compact first ++ ',' :: compactItems rest := by
  rw [compactItems]
  exact more

/-- A member in front of others is followed by a comma. -/
theorem compactMembers_cons (key : String) (value : Value) {rest : List (String × Value)}
    (more : rest ≠ []) :
    compactMembers ((key, value) :: rest) =
      quote key ++ ':' :: (compact value ++ ',' :: compactMembers rest) := by
  -- The comma is only left out behind the last member.
  rw [compactMembers]
  exact more

/-- Items start like the first of them. -/
theorem compactItems_head {items : List Value} (nonempty : items ≠ []) :
    ∃ c tail, compactItems items = c :: tail ∧ isGap c = false ∧ c ≠ ']' := by
  obtain ⟨first, rest, rfl⟩ := List.exists_cons_of_ne_nil nonempty
  obtain ⟨c, tail, same, solid, other⟩ := compact_head first
  -- The first item is all of the text, or a comma and other items follow it.
  by_cases alone : rest = []
  · subst rest
    exact ⟨c, tail, by rw [compactItems, same], solid, other⟩
  · exact ⟨c, _, by rw [compactItems_cons first alone, same, List.cons_append], solid, other⟩

/-- Members start with the quote of their first key. -/
theorem compactMembers_head {members : List (String × Value)} (nonempty : members ≠ []) :
    ∃ body, compactMembers members = '"' :: body := by
  obtain ⟨⟨key, value⟩, rest, rfl⟩ := List.exists_cons_of_ne_nil nonempty
  -- The first member is all of the text, or a comma and other members follow it.
  by_cases alone : rest = []
  · subst rest
    exact ⟨_, by rw [compactMembers, quote_append]⟩
  · exact ⟨_, by rw [compactMembers_cons key value alone, quote_append]⟩

/-- Behind a comma the next item is read on. -/
theorem readMoreItems_next {steps depth : Nat} {text : List Char} {first : Value}
    {items : List Value} (nonempty : items ≠ []) {rest : List Char}
    (read : readValue steps depth text = .ok (first, ',' :: (compactItems items ++ rest))) :
    readMoreItems (steps + 1) depth text =
      (readMoreItems steps depth (compactItems items ++ rest)).map
        fun (items, rest) => (first :: items, rest) := by
  obtain ⟨c, tail, same, solid, other⟩ := compactItems_head nonempty
  rw [readMoreItems, read]
  simp only [skipGap_cons (show isGap ',' = false from rfl)]
  rw [same, List.cons_append, skipGap_cons solid]
  -- The next item is no end of the array.
  split
  · rename_i same
    cases same
  · rename_i same
    exact absurd (List.cons.inj same).1 other
  · rfl

/-- Behind a comma the next member is read on, from behind the quote of its key. -/
theorem readMoreMembers_next {steps depth : Nat} {key : String} {text : List Char} {value : Value}
    {body : List Char} (read : readValue steps depth text = .ok (value, ',' :: '"' :: body)) :
    readMoreMembers (steps + 1) depth (key.toList.flatMap escape ++ '"' :: ':' :: text) =
      (readMoreMembers steps depth body).map
        fun (members, rest) => ((key, value) :: members, rest) := by
  simp only [readMoreMembers, readString_quote, skipGap_cons (show isGap ':' = false from rfl),
    read, skipGap_cons (show isGap ',' = false from rfl),
    skipGap_cons (show isGap '"' = false from rfl)]

/-- Items that are read one by one are read in a row, up to the end of their array. -/
theorem readMoreItems_compact {depth : Nat} {items : List Value} (nonempty : items ≠ [])
    (reads : ∀ item ∈ items, ReadAt depth item) :
    ∀ steps rest, 3 * (compactItems items).length + 1 ≤ steps →
      readMoreItems steps depth (compactItems items ++ ']' :: rest) = .ok (items, rest) := by
  induction items with
  | nil => contradiction
  | cons first others ih =>
    intro steps rest enough
    obtain ⟨steps, rfl⟩ : ∃ fewer, steps = fewer + 1 := ⟨steps - 1, by omega⟩
    obtain ⟨head, tail⟩ := List.forall_mem_cons.mp reads
    by_cases alone : others = []
    · -- The last item is followed by the end of the array.
      subst others
      rw [compactItems] at enough ⊢
      rw [readMoreItems, head steps (']' :: rest) (by omega) (stopsNumber_cons (by simp) rest)]
      simp [skipGap_cons (show isGap ']' = false from rfl)]
    · -- Any other item is followed by a comma, behind which the others are read.
      rw [compactItems_cons first alone] at enough ⊢
      simp only [List.length_append, List.length_cons] at enough
      have read := head steps (',' :: (compactItems others ++ ']' :: rest)) (by omega)
        (stopsNumber_cons (by simp) _)
      rw [List.append_assoc, List.cons_append, readMoreItems_next alone read,
        ih alone tail steps rest (by omega)]
      rfl

/-- Members whose values are read one by one are read in a row from behind their first quote. -/
theorem readMoreMembers_compact {depth : Nat} {members : List (String × Value)}
    (nonempty : members ≠ []) (reads : ∀ member ∈ members, ReadAt depth member.2)
    {body : List Char} (opened : compactMembers members = '"' :: body) :
    ∀ steps rest, 3 * body.length + 1 ≤ steps →
      readMoreMembers steps depth (body ++ '\x7d' :: rest) = .ok (members, rest) := by
  induction members generalizing body with
  | nil => contradiction
  | cons first others ih =>
    intro steps rest enough
    obtain ⟨key, value⟩ := first
    obtain ⟨steps, rfl⟩ : ∃ fewer, steps = fewer + 1 := ⟨steps - 1, by omega⟩
    obtain ⟨head, tail⟩ := List.forall_mem_cons.mp reads
    by_cases alone : others = []
    · -- The last member is followed by the end of the object.
      subst others
      rw [compactMembers, quote_append] at opened
      obtain rfl := (List.cons.inj opened).2
      simp only [List.length_append, List.length_cons] at enough
      have read := head steps ('\x7d' :: rest) (by dsimp only; omega)
        (stopsNumber_cons (by simp) rest)
      simp only [List.append_assoc, List.cons_append, readMoreMembers, readString_quote,
        skipGap_cons (show isGap ':' = false from rfl), read,
        skipGap_cons (show isGap '\x7d' = false from rfl)]
    · -- Any other member is followed by a comma, behind which the others are read.
      rw [compactMembers_cons key value alone, quote_append] at opened
      obtain rfl := (List.cons.inj opened).2
      obtain ⟨later, opened⟩ := compactMembers_head alone
      simp only [List.length_append, List.length_cons, opened] at enough
      have read := head steps (',' :: '"' :: (later ++ '\x7d' :: rest)) (by dsimp only; omega)
        (stopsNumber_cons (by simp) _)
      rw [opened, List.append_assoc, List.cons_append, List.cons_append, List.append_assoc,
        List.cons_append, List.cons_append, readMoreMembers_next read,
        ih alone tail opened steps rest (by omega)]
      rfl

/-- An array is read one level deeper than its items. -/
theorem readValue_array {depth : Nat} {items : List Value}
    (reads : ∀ item ∈ items, ReadAt depth item) : ReadAt (depth + 1) (.array items) := by
  intro steps rest enough stops
  simp only [compact, List.length_cons, List.length_append, List.length_nil] at enough
  obtain ⟨steps, rfl⟩ : ∃ fewer, steps = fewer + 2 := ⟨steps - 2, by omega⟩
  simp only [compact, List.cons_append, List.append_assoc, List.nil_append, readValue,
    skipGap_cons (show isGap '[' = false from rfl), readItems]
  cases items with
  -- An empty array ends at once.
  | nil => simp [compactItems, skipGap_cons (show isGap ']' = false from rfl), Except.map]
  | cons first others =>
    have nonempty : first :: others ≠ [] := (by simp)
    obtain ⟨c, tail, same, solid, other⟩ := compactItems_head nonempty
    have read := readMoreItems_compact nonempty reads steps rest (by omega)
    rw [same, List.cons_append] at read ⊢
    rw [skipGap_cons solid]
    -- The first item is no end of the array.
    split
    · rename_i same
      cases same
    · rename_i same
      exact absurd (List.cons.inj same).1 other
    · rw [read]
      rfl

/-- An object with distinct keys is read one level deeper than its members. -/
theorem readValue_object {depth : Nat} {members : List (String × Value)}
    (distinct : OrderedMap.Distinct members) (reads : ∀ member ∈ members, ReadAt depth member.2) :
    ReadAt (depth + 1) (.object members) := by
  intro steps rest enough stops
  simp only [compact, List.length_cons, List.length_append, List.length_nil] at enough
  obtain ⟨steps, rfl⟩ : ∃ fewer, steps = fewer + 2 := ⟨steps - 2, by omega⟩
  simp only [compact, List.cons_append, List.append_assoc, List.nil_append, readValue,
    skipGap_cons (show isGap '\x7b' = false from rfl), readMembers]
  cases members with
  -- An empty object ends at once.
  | nil =>
    simp [compactMembers, skipGap_cons (show isGap '\x7d' = false from rfl), Except.map,
      OrderedMap.ofEntries, OrderedMap.merge]
  | cons first others =>
    have nonempty : first :: others ≠ [] := (by simp)
    obtain ⟨body, opened⟩ := compactMembers_head nonempty
    -- The members are read in a row, and distinct keys make the same object of them.
    have read := readMoreMembers_compact nonempty reads opened
    rw [opened] at enough ⊢
    simp only [List.length_cons] at enough
    simp only [List.cons_append, skipGap_cons (show isGap '"' = false from rfl),
      read steps rest (by omega), Except.map, OrderedMap.ofEntries_of_distinct distinct]

/-- A word is read letter by letter in front of anything. -/
theorem readWord_append (value : Value) (letters rest : List Char) :
    readWord value letters (letters ++ rest) = .ok (value, rest) := by
  -- The letters of the word are compared one by one.
  induction letters with
  | nil => rfl
  | cons letter letters ih => rw [List.cons_append, readWord, if_pos rfl, ih]

/-- A scalar is read at any depth. -/
theorem readValue_scalar {value : Value} (scalar : value.nesting = 0)
    (floats : value.FloatSatisfies Binary64.ReadsBack) (depth : Nat) : ReadAt depth value := by
  intro steps rest enough stops
  obtain ⟨c, tail, same, _⟩ := compact_head value
  rw [same, List.length_cons] at enough
  obtain ⟨steps, rfl⟩ : ∃ fewer, steps = fewer + 1 := ⟨steps - 1, by omega⟩
  cases value with
  -- The words are read letter by letter.
  | null =>
    rw [show compact .null = 'n' :: "ull".toList by simp [compact, Json.scalar], List.cons_append,
      readValue, skipGap_cons rfl]
    exact readWord_append .null "ull".toList rest
  | bool b =>
    cases b with
    | true =>
      rw [show compact (.bool true) = 't' :: "rue".toList by simp [compact, Json.scalar],
        List.cons_append, readValue, skipGap_cons rfl]
      exact readWord_append (.bool true) "rue".toList rest
    | false =>
      rw [show compact (.bool false) = 'f' :: "alse".toList by simp [compact, Json.scalar],
        List.cons_append, readValue, skipGap_cons rfl]
      exact readWord_append (.bool false) "alse".toList rest
  | number n =>
    -- A number starts its text and stops in front of what follows it.
    have starts : StartsNumber (number n ++ rest) := by
      obtain ⟨c, tail, same, first⟩ := number_starts n
      exact ⟨c, tail ++ rest, by rw [same, List.cons_append], first⟩
    have read : readSigned (number n ++ rest) = .ok (n, rest) := by
      cases n with
      | int n => exact readSigned_int n stops
      | float x => exact readSigned_float floats stops
    exact (readValue_of_startsNumber starts steps depth).trans (by rw [read]; rfl)
  | string s =>
    -- A string is read up to its closing quote.
    rw [show compact (.string s) = quote s from rfl, quote_append, readValue,
      skipGap_cons (show isGap '"' = false from rfl)]
    simp only [readString_quote, Except.map]
  | array items => simp [Value.nesting] at scalar
  | object members => simp [Value.nesting] at scalar

/-- A value nested no deeper than the depth is read, when its keys are distinct and its floats
read back. -/
theorem readValue_compact {value : Value} (distinct : value.Throughout Value.DistinctKeys)
    (floats : value.Throughout (Value.FloatSatisfies Binary64.ReadsBack)) {depth : Nat}
    (nested : value.nesting ≤ depth) : ReadAt depth value := by
  induction value using Value.parts_induction generalizing depth with
  | array items ih =>
    rw [Value.nesting] at nested
    obtain ⟨depth, rfl⟩ : ∃ inner, depth = inner + 1 := ⟨depth - 1, by omega⟩
    -- The items are nested one level less deep than the array.
    have within := Value.nestingOfItems_le.mp (Nat.le_of_succ_le_succ nested)
    refine readValue_array fun item member => ih item member ?_ ?_ (within item member)
    · exact (Value.throughout_array.mp distinct).2 item member
    · exact (Value.throughout_array.mp floats).2 item member
  | object members ih =>
    rw [Value.nesting] at nested
    obtain ⟨depth, rfl⟩ : ∃ inner, depth = inner + 1 := ⟨depth - 1, by omega⟩
    -- The members are nested one level less deep than the object.
    have within := Value.nestingOfMembers_le.mp (Nat.le_of_succ_le_succ nested)
    refine readValue_object distinct.here fun entry member =>
      ih entry member ?_ ?_ (within entry member)
    · exact (Value.throughout_object.mp distinct).2 entry member
    · exact (Value.throughout_object.mp floats).2 entry member
  | _ => exact readValue_scalar rfl floats.here depth

end Json

end SyncStore
