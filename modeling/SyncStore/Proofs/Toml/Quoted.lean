import SyncStore.Toml.Reader

/-! Strings read back from between their delimiters, in whichever style they are written. -/

namespace SyncStore.Toml

/-- A control character is read from the digits of its code. -/
theorem readCode_codeDigits {c : Char} (coded : needsCode c = true) (rest : List Char) :
    readCode 4 (codeDigits c ++ rest) = some (c, rest) := by
  -- The printer's digits are in upper case, and the reader takes either case.
  have digits : ∀ n < 16, Json.hexValue? (Nat.digitChar n).toUpper = some n := by decide
  have small : c.toNat < 0x80 := by
    simp only [needsCode, Bool.or_eq_true, Bool.and_eq_true, decide_eq_true_eq] at coded
    omega
  -- Both digits of a code below 128 are below sixteen.
  have upper := digits (c.toNat / 16) (by omega)
  have lower := digits (c.toNat % 16) (by omega)
  have zero : Json.hexValue? '0' = some 0 := rfl
  have code : c.toNat / 16 * 16 + c.toNat % 16 = c.toNat := by omega
  simp [readCode, codeDigits, zero, upper, lower, code, Char.ofNat_toNat]
  omega

/-- What is neither coded nor a line feed stands plain on a line. -/
theorem isPlain_of_not_coded {c : Char} (uncoded : needsCode c = false) (noBreak : c ≠ '\n') :
    isPlain c = true := by
  simp only [needsCode, Bool.or_eq_false_iff, Bool.and_eq_false_iff, decide_eq_false_iff_not, ne_eq,
    Decidable.not_not] at uncoded
  obtain ⟨(high | tab) | feed, noDelete⟩ := uncoded
  · -- A character from the blank on is plain unless it is the delete character.
    simp [isPlain, noDelete]
    omega
  · -- A tab is plain as it is.
    simp [isPlain, tab]
  · exact absurd feed noBreak

/-- The character of an escape is read from a basic string. -/
theorem readBasic_backslash {escaped rest : List Char} {c : Char}
    (read : readEscape escaped = some (c, rest)) (steps : Nat) :
    readBasic (steps + 1) ('\\' :: escaped) =
      (readBasic steps rest).map fun (text, rest) => (c :: text, rest) := by
  -- The escaped character is put in front of whatever is read behind it.
  rw [readBasic]
  simp only [read, Option.bind_eq_bind, Option.bind_some]
  cases readBasic steps rest <;> rfl

/-- An escaped character is read from a basic string. -/
theorem readBasic_escape (c : Char) (steps : Nat) (rest : List Char) :
    readBasic (steps + 1) (escape c ++ rest) =
      (readBasic steps rest).map fun (text, rest) => (c :: text, rest) := by
  unfold escape
  split
  -- The short escapes are read by their letter.
  all_goals try exact readBasic_backslash rfl steps
  rename_i noTab noBreak _ _ noQuote noBackslash
  split
  · -- A control character is read from the digits of its code.
    rename_i coded
    have read : readEscape ('u' :: (codeDigits c ++ rest)) = some (c, rest) :=
      readCode_codeDigits coded rest
    exact readBasic_backslash read steps
  · -- Any other character stands for itself, and it is neither the quote nor the backslash.
    rename_i uncoded
    have plain := isPlain_of_not_coded (by simpa using uncoded) noBreak
    rw [List.cons_append, List.nil_append, readBasic]
    · exact if_pos plain
    · exact noQuote
    · exact noBackslash

/-- No escape is empty. -/
theorem length_escape_pos (c : Char) : 0 < (escape c).length := by
  unfold escape
  -- A character stands for itself, or is written with a backslash.
  split
  all_goals try simp
  split <;> simp

/-- An escaped text is no shorter than the text. -/
theorem length_le_flatMap_escape (text : List Char) :
    text.length ≤ (text.flatMap escape).length := by
  -- Every character is written with one character at least.
  induction text with
  | nil => simp
  | cons c text ih =>
    have positive := length_escape_pos c
    rw [List.flatMap_cons, List.length_append, List.length_cons]
    omega

/-- An escaped text is read up to its closing quote. -/
theorem readBasic_flatMap {text : List Char} {steps : Nat} (enough : text.length < steps)
    (rest : List Char) :
    readBasic steps (text.flatMap escape ++ '"' :: rest) = some (text, rest) := by
  induction text generalizing steps with
  | nil =>
    obtain ⟨steps, rfl⟩ : ∃ fewer, steps = fewer + 1 := ⟨steps - 1, by omega⟩
    simp [readBasic]
  | cons c text ih =>
    -- The first character takes one step, and the rest of the text takes the others.
    rw [List.length_cons] at enough
    obtain ⟨steps, rfl⟩ : ∃ fewer, steps = fewer + 1 := ⟨steps - 1, by omega⟩
    rw [List.flatMap_cons, List.append_assoc, readBasic_escape, ih (by omega)]
    rfl

/-- Plain text without an apostrophe is read up to the closing one. -/
theorem readLiteral_append {text : List Char} (plain : ∀ c ∈ text, isPlain c = true)
    (noQuote : '\'' ∉ text) (rest : List Char) :
    readLiteral (text ++ '\'' :: rest) = some (text, rest) := by
  induction text with
  | nil => rw [List.nil_append, readLiteral]
  | cons c text ih =>
    obtain ⟨first, later⟩ := List.forall_mem_cons.mp plain
    rw [List.mem_cons, not_or] at noQuote
    rw [List.cons_append, readLiteral, if_pos first, ih later noQuote.2]
    · -- The character is not the closing quote, because the text has none.
      rfl
    · exact fun same => noQuote.1 same.symm

/-- Nothing that a text goes on with is taken for another quote of its end. -/
def NoQuoteAhead (rest : List Char) : Prop := rest.head? ≠ some '"' ∧ rest.head? ≠ some '\''

/-- Three quotes in front of no other close a text, together with up to two in front of them. -/
theorem closing?_run {quote : Char} {count : Nat} (few : count ≤ 2) {rest : List Char}
    (ends : rest.head? ≠ some quote) :
    closing? quote (List.replicate (count + 3) quote ++ rest) =
      some (List.replicate count quote, rest) := by
  -- A count is one of three, and what follows is at most looked at for its first character.
  match count, few with
  | 0, _ | 1, _ | 2, _ =>
    cases rest with
    | nil => simp [closing?, List.replicate]
    | cons c rest =>
      have differ : c ≠ quote := by simpa using ends
      simp [closing?, List.replicate, differ]

/-- Up to two quotes close nothing. -/
theorem closing?_short {quote c : Char} {count : Nat} (few : count ≤ 2) (differ : c ≠ quote)
    (rest : List Char) : closing? quote (List.replicate count quote ++ c :: rest) = none := by
  match count, few with
  | 0, _ | 1, _ | 2, _ => simp [closing?, List.replicate, differ]

/-- A text without three quotes at its start is closed only when all of it are quotes. -/
theorem closing?_text {quote : Char} {count : Nat} (few : count ≤ 2) {tail rest : List Char}
    (other : tail.head? ≠ some quote) (ends : rest.head? ≠ some quote) :
    closing? quote (List.replicate count quote ++ tail ++ quote :: quote :: quote :: rest) =
      if tail = [] then some (List.replicate count quote, rest) else none := by
  cases tail with
  | nil =>
    -- Only quotes are left: the last three close the text, and the others belong to it.
    have closed := closing?_run few ends
    rw [← List.replicate_append_replicate, List.append_assoc] at closed
    rw [if_pos rfl, List.append_nil]
    exact closed
  | cons c tail =>
    -- Another character comes before the closing quotes, so the run at the start is too short.
    rw [if_neg (by simp), List.append_assoc, List.cons_append]
    exact closing?_short few (by simpa using other) _

/-- The longest run is no shorter than the current one, even with the quotes that continue it. -/
theorem run_add_le_longestRun (quote : Char) (run longest count : Nat) (tail : List Char) :
    run + count ≤ longestRun quote run longest (List.replicate count quote ++ tail) := by
  induction count generalizing run with
  | zero =>
    -- The run may only grow from here on, whatever the tail is.
    have grows : ∀ text run longest, max run longest ≤ longestRun quote run longest text := by
      intro text
      induction text with
      | nil => intro run longest; exact Nat.le_refl _
      | cons c text ih =>
        intro run longest
        rw [longestRun]
        split
        · have later := ih (run + 1) longest
          omega
        · have later := ih 0 (max run longest)
          omega
    have later := grows tail run longest
    rw [List.replicate_zero, List.nil_append]
    omega
  | succ count ih =>
    -- A quote continues the run, and the rest of the quotes continue the longer one.
    have later := ih (run + 1)
    rw [List.replicate_succ, List.cons_append, longestRun, if_pos rfl]
    omega

/-- Every text starts with some quotes, and then with something else or not at all. -/
theorem exists_leading_quotes (quote : Char) (text : List Char) :
    ∃ count tail, text = List.replicate count quote ++ tail ∧ tail.head? ≠ some quote := by
  induction text with
  | nil => exact ⟨0, [], rfl, by simp⟩
  | cons c text ih =>
    by_cases same : c = quote
    · -- A quote joins those of the rest.
      obtain ⟨count, tail, rfl, other⟩ := ih
      exact ⟨count + 1, tail, by rw [same, List.replicate_succ, List.cons_append], other⟩
    · exact ⟨0, c :: text, rfl, by simpa using same⟩

/-- A line ends only in a line feed or a carriage return. -/
theorem lineEnd?_none {c : Char} (noFeed : c ≠ '\n') (noReturn : c ≠ '\r') (rest : List Char) :
    lineEnd? (c :: rest) = none := by
  -- A line ends with a feed, or with a return in front of one.
  rw [lineEnd?]
  · exact fun _ same => noFeed (List.cons.inj same).1
  · exact fun _ same => noReturn (List.cons.inj same).1

/-- Lines without long runs of apostrophes are read up to the three closing ones. -/
theorem readLiteralLines_append {text : List Char} (uncoded : ∀ c ∈ text, needsCode c = false)
    {run longest : Nat} (few : longestRun '\'' run longest text ≤ 2) {steps : Nat}
    (enough : text.length < steps) {rest : List Char} (ends : rest.head? ≠ some '\'') :
    readLiteralLines steps (text ++ '\'' :: '\'' :: '\'' :: rest) = some (text, rest) := by
  induction text generalizing run longest steps with
  | nil =>
    obtain ⟨steps, rfl⟩ : ∃ fewer, steps = fewer + 1 := ⟨steps - 1, by omega⟩
    have closed := closing?_run (Nat.zero_le 2) ends
    rw [List.nil_append, readLiteralLines]
    simp only [List.replicate, List.cons_append, List.nil_append] at closed
    rw [closed]
  | cons c text ih =>
    rw [List.length_cons] at enough
    obtain ⟨steps, rfl⟩ : ∃ fewer, steps = fewer + 1 := ⟨steps - 1, by omega⟩
    obtain ⟨first, later⟩ := List.forall_mem_cons.mp uncoded
    -- The quotes at the start are no more than the longest run, so they close nothing.
    obtain ⟨count, tail, same, other⟩ := exists_leading_quotes '\'' (c :: text)
    have leading := run_add_le_longestRun '\'' run longest count tail
    rw [← same] at leading
    have closed := closing?_text (show count ≤ 2 by omega) other ends
    rw [← same, List.cons_append] at closed
    rw [List.cons_append, readLiteralLines, closed]
    by_cases quotes : tail = []
    · -- Nothing but quotes is left, and all of them belong to the text.
      rw [if_pos quotes]
      rw [quotes, List.append_nil] at same
      simp only [← same]
    · -- Something else comes later, so the first character belongs to the text.
      rw [if_neg quotes]
      rw [longestRun] at few
      have read : readLiteralLines steps (text ++ '\'' :: '\'' :: '\'' :: rest) =
          some (text, rest) := by
        split at few
        · exact ih later few (by omega)
        · exact ih later few (by omega)
      by_cases feed : c = '\n'
      · -- A line feed is read as a line end.
        subst feed
        rw [lineEnd?]
        simp only [read, Option.map_some, List.cons_append, List.nil_append]
      · -- A carriage return would be coded, so this is no line end.
        have noReturn : c ≠ '\r' := by
          rintro rfl
          cases first
        rw [lineEnd?_none feed noReturn, read, if_pos (isPlain_of_not_coded first feed)]
        rfl

/-- Between three quotes a line feed stands for itself, and other characters are escaped. -/
theorem escapeLines_other {c : Char} (noQuote : c ≠ '"') (run : Nat) (text : List Char) :
    escapeLines run (c :: text) =
      (if c = '\n' then ['\n'] else escape c) ++ escapeLines 0 text := by
  -- A line feed is kept as it is, and any other character may be escaped.
  by_cases feed : c = '\n'
  · subst feed
    rfl
  · rw [if_neg feed, escapeLines]
    · exact noQuote
    · exact feed

/-- No escape starts like a line end, and only a quote is written with a quote in front. -/
theorem escape_head {c : Char} (noQuote : c ≠ '"') :
    ∃ first tail, escape c = first :: tail ∧ first ≠ '"' ∧ first ≠ '\n' ∧ first ≠ '\r' := by
  unfold escape
  split
  -- The short escapes start with a backslash.
  all_goals try exact ⟨_, _, rfl, by decide, by decide, by decide⟩
  rename_i noFeed _ noReturn _ _
  split
  · -- So does the code of a control character.
    exact ⟨_, _, rfl, by decide, by decide, by decide⟩
  · exact ⟨_, _, rfl, noQuote, noFeed, noReturn⟩

/-- Text between three quotes starts with no more quotes than still fit the run. -/
theorem exists_leading_escapeLines {run : Nat} (few : run ≤ 2) (text : List Char) :
    ∃ count tail, escapeLines run text = List.replicate count '"' ++ tail ∧
      tail.head? ≠ some '"' ∧ run + count ≤ 2 ∧ (tail = [] → text = List.replicate count '"') := by
  induction text generalizing run with
  | nil => exact ⟨0, [], rfl, by simp, few, fun _ => rfl⟩
  | cons c text ih =>
    by_cases quote : c = '"'
    · subst quote
      -- The third quote of a run is escaped, so the text starts with a backslash.
      by_cases third : run = 2
      · subst third
        exact ⟨0, _, rfl, by simp, few, by simp⟩
      · -- A quote within the run joins those of the rest.
        obtain ⟨count, tail, same, other, short, only⟩ := ih (show run + 1 ≤ 2 by omega)
        refine ⟨count + 1, tail, ?_, other, by omega, fun empty => ?_⟩
        · rw [escapeLines, if_neg third, same, List.replicate_succ, List.cons_append]
        · rw [only empty, List.replicate_succ]
    · -- Another character starts with no quote, escaped or not.
      obtain ⟨first, tail, same, other, _⟩ := escape_head quote
      refine ⟨0, _, escapeLines_other quote run text, ?_, few, ?_⟩
      · split
        · simp
        · simpa [same] using other
      · split <;> simp [same]

/-- A backslash in front of no gap and no line end continues nothing. -/
theorem continuation?_none {c : Char} (solid : isGap c = false) (noFeed : c ≠ '\n')
    (noReturn : c ≠ '\r') (rest : List Char) : continuation? (c :: rest) = none := by
  rw [continuation?, skipGap, List.dropWhile_cons_of_neg (by simp [solid]),
    lineEnd?_none noFeed noReturn, Option.map_none]

/-- The character of an escape is read from a text of several lines. -/
theorem readBasicLines_backslash {d c : Char} {escaped rest : List Char} (solid : isGap d = false)
    (noFeed : d ≠ '\n') (noReturn : d ≠ '\r') (read : readEscape (d :: escaped) = some (c, rest))
    (steps : Nat) :
    readBasicLines (steps + 1) ('\\' :: d :: escaped) =
      (readBasicLines steps rest).map fun (text, rest) => (c :: text, rest) := by
  -- The backslash continues no line, so it starts an escape.
  rw [readBasicLines, continuation?_none solid noFeed noReturn]
  simp only [read, Option.bind_eq_bind, Option.bind_some]
  cases readBasicLines steps rest <;> rfl

/-- An escaped character is read from a text of several lines, when it is neither a quote nor a
line feed. -/
theorem readBasicLines_escape {c : Char} (noQuote : c ≠ '"') (noFeed : c ≠ '\n') (steps : Nat)
    (rest : List Char) :
    readBasicLines (steps + 1) (escape c ++ rest) =
      (readBasicLines steps rest).map fun (text, rest) => (c :: text, rest) := by
  unfold escape
  split
  -- The short escapes are read by their letter.
  all_goals try exact readBasicLines_backslash rfl (by decide) (by decide) rfl steps
  rename_i noTab _ _ noReturn _ noBackslash
  split
  · rename_i coded
    have read : readEscape ('u' :: (codeDigits c ++ rest)) = some (c, rest) :=
      readCode_codeDigits coded rest
    exact readBasicLines_backslash rfl (by decide) (by decide) read steps
  · -- Any other character closes nothing and ends no line, so it stands for itself.
    rename_i uncoded
    have plain := isPlain_of_not_coded (by simpa using uncoded) noFeed
    have closed := closing?_short (Nat.zero_le 2) noQuote rest
    rw [List.replicate_zero, List.nil_append] at closed
    rw [List.cons_append, List.nil_append, readBasicLines]
    · rw [closed, lineEnd?_none noFeed noReturn]
      exact if_pos plain
    · exact noBackslash

/-- Escaped lines are read up to the three closing quotes. -/
theorem readBasicLines_escapeLines {run : Nat} (few : run ≤ 2) {text : List Char} {steps : Nat}
    (enough : text.length < steps) {rest : List Char} (ends : rest.head? ≠ some '"') :
    readBasicLines steps (escapeLines run text ++ '"' :: '"' :: '"' :: rest) =
      some (text, rest) := by
  induction text generalizing run steps with
  -- Only the three closing quotes are left.
  | nil =>
    obtain ⟨steps, rfl⟩ : ∃ fewer, steps = fewer + 1 := ⟨steps - 1, by omega⟩
    have closed := closing?_run (Nat.zero_le 2) ends
    simp only [List.replicate, List.cons_append, List.nil_append] at closed
    rw [escapeLines, List.nil_append, readBasicLines]
    · rw [closed]
    · decide
  | cons c text ih =>
    rw [List.length_cons] at enough
    obtain ⟨steps, rfl⟩ : ∃ fewer, steps = fewer + 1 := ⟨steps - 1, by omega⟩
    by_cases quote : c = '"'
    · subst quote
      by_cases third : run = 2
      · -- The third quote of a run is escaped, and a new run starts behind it.
        have read := ih (Nat.zero_le 2) (show text.length < steps by omega)
        subst third
        rw [escapeLines, if_pos rfl, List.cons_append, List.cons_append, readBasicLines]
        simp [continuation?_none, isGap, readEscape, read]
      · -- Other quotes stand as they are, together with those that follow in the run.
        have read := ih (show run + 1 ≤ 2 by omega) (show text.length < steps by omega)
        obtain ⟨count, tail, same, other, short, only⟩ :=
          exists_leading_escapeLines few ('"' :: text)
        have closed := closing?_text (show count ≤ 2 by omega) other ends
        rw [← same] at closed
        rw [escapeLines, if_neg third, List.cons_append] at closed ⊢
        rw [readBasicLines, closed]
        · by_cases quotes : tail = []
          · -- When nothing follows the run, the closing quotes are its last three.
            rw [if_pos quotes, ← only quotes]
          · -- Otherwise the run closes nothing, and the quote belongs to the text.
            rw [if_neg quotes, lineEnd?_none (by decide) (by decide), read]
            rfl
        · decide
    · have read := ih (Nat.zero_le 2) (show text.length < steps by omega)
      rw [escapeLines_other quote]
      by_cases feed : c = '\n'
      · -- A line feed closes nothing and is read as a line end.
        subst feed
        have closed := closing?_short (Nat.zero_le 2) quote
          (escapeLines 0 text ++ '"' :: '"' :: '"' :: rest)
        rw [List.replicate_zero, List.nil_append] at closed
        rw [if_pos rfl, List.cons_append, List.nil_append, List.cons_append, readBasicLines, closed]
        · rw [lineEnd?]
          simp only [read, Option.map_some, List.cons_append, List.nil_append]
        · decide
      · rw [if_neg feed, List.append_assoc, readBasicLines_escape quote feed, read]
        rfl

/-- Text between three quotes is no shorter than the text. -/
theorem length_le_escapeLines (run : Nat) (text : List Char) :
    text.length ≤ (escapeLines run text).length := by
  -- Every character is written with one character at least, quotes included.
  induction text generalizing run with
  | nil => simp
  | cons c text ih =>
    by_cases quote : c = '"'
    · subst quote
      rw [escapeLines]
      split
      · have later := ih 0
        simp only [List.length_cons]
        omega
      · have later := ih (run + 1)
        simp only [List.length_cons]
        omega
    · have later := ih 0
      have positive := length_escape_pos c
      rw [escapeLines_other quote, List.length_append, List.length_cons]
      split
      · rw [List.length_singleton]
        omega
      · omega

/-- The opening quote of a basic string is not the first of three. -/
theorem basic_opens_once (text : List Char) {rest : List Char} (ends : NoQuoteAhead rest) :
    ∀ tail, text.flatMap escape ++ '"' :: rest ≠ '"' :: '"' :: tail := by
  intro tail same
  cases text with
  -- An empty text ends at once, and no quote follows its end.
  | nil => exact ends.1 (by rw [(List.cons.inj same).2, List.head?_cons])
  | cons c text =>
    -- No escape starts with a quote, not even that of a quote.
    by_cases quote : c = '"'
    · subst quote
      exact absurd (List.cons.inj same).1 (by decide)
    · obtain ⟨first, other, escaped, differ, _⟩ := escape_head quote
      rw [List.flatMap_cons, escaped] at same
      exact differ (List.cons.inj same).1

/-- A text in a basic string reads back. -/
theorem readQuoted_basic (text : List Char) {rest : List Char} (ends : NoQuoteAhead rest) :
    readQuoted ('"' :: (text.flatMap escape ++ '"' :: rest)) = some (String.ofList text, rest) := by
  have long := length_le_flatMap_escape text
  have enough : text.length < (text.flatMap escape ++ '"' :: rest).length + 1 := by
    rw [List.length_append]
    omega
  -- Three opening quotes would mean another style.
  rw [readQuoted]
  · rw [readBasic_flatMap enough rest]
    rfl
  · exact basic_opens_once text ends

/-- The opening quote of a literal string is not the first of three. -/
theorem literal_opens_once {text : List Char} (nonempty : text ≠ []) (noQuote : '\'' ∉ text)
    (rest : List Char) : ∀ tail, text ++ '\'' :: rest ≠ '\'' :: '\'' :: tail := by
  intro tail same
  -- The first character of the text is no apostrophe.
  obtain ⟨c, text, rfl⟩ := List.exists_cons_of_ne_nil nonempty
  exact noQuote (by rw [(List.cons.inj same).1]; exact List.mem_cons_self)

/-- A text in a literal string reads back. -/
theorem readQuoted_literal {text : List Char} (nonempty : text ≠ [])
    (plain : ∀ c ∈ text, isPlain c = true) (noQuote : '\'' ∉ text) (rest : List Char) :
    readQuoted ('\'' :: (text ++ '\'' :: rest)) = some (String.ofList text, rest) := by
  -- The text is not empty, so the opening quote is a single one.
  rw [readQuoted]
  · rw [readLiteral_append plain noQuote rest]
    rfl
  · exact literal_opens_once nonempty noQuote rest

/-- The opening break of a text is skipped, and no other. -/
theorem skipFirstBreak_openingBreak {text written : List Char}
    (same : '\n' ∉ text → lineEnd? written = none) :
    skipFirstBreak (openingBreak text ++ written) = written := by
  -- A text of several lines is set off by a break, and one line starts as it is.
  by_cases broken : '\n' ∈ text
  · simp [openingBreak, broken, skipFirstBreak, lineEnd?]
  · simp [openingBreak, broken, skipFirstBreak, same broken]

/-- Text between three basic quotes reads back. -/
theorem readQuoted_basicLines (text : List Char) {rest : List Char} (ends : NoQuoteAhead rest) :
    readQuoted (renderStyled .basicLines text ++ rest) = some (String.ofList text, rest) := by
  have long := length_le_escapeLines 0 text
  -- A text on one line starts with no break that could be skipped.
  have starts : '\n' ∉ text →
      lineEnd? (escapeLines 0 text ++ '"' :: '"' :: '"' :: rest) = none := by
    intro unbroken
    cases text with
    | nil => rfl
    | cons c text =>
      by_cases quote : c = '"'
      · subst quote
        rfl
      · rw [List.mem_cons, not_or] at unbroken
        obtain ⟨first, other, escaped, _, noFeed, noReturn⟩ := escape_head quote
        rw [escapeLines_other quote, if_neg (Ne.symm unbroken.1), escaped]
        exact lineEnd?_none noFeed noReturn _
  -- Behind the three opening quotes stand the break, the text and the closing quotes.
  have written : renderStyled .basicLines text ++ rest = '"' :: '"' :: '"' ::
      (openingBreak text ++ (escapeLines 0 text ++ '"' :: '"' :: '"' :: rest)) := by
    simp [renderStyled]
  rw [written, readQuoted]
  simp only [skipFirstBreak_openingBreak starts]
  rw [readBasicLines_escapeLines (Nat.zero_le 2) (by simp only [List.length_append]; omega) ends.1]
  rfl

/-- Text between three literal quotes reads back. -/
theorem readQuoted_literalLines {text : List Char} (uncoded : ∀ c ∈ text, needsCode c = false)
    (few : longestRun '\'' 0 0 text ≤ 2) {rest : List Char} (ends : NoQuoteAhead rest) :
    readQuoted (renderStyled .literalLines text ++ rest) = some (String.ofList text, rest) := by
  -- A text on one line starts with no break that could be skipped.
  have starts : '\n' ∉ text → lineEnd? (text ++ '\'' :: '\'' :: '\'' :: rest) = none := by
    intro unbroken
    cases text with
    | nil => rfl
    | cons c text =>
      rw [List.mem_cons, not_or] at unbroken
      refine lineEnd?_none (Ne.symm unbroken.1) ?_ _
      rintro rfl
      cases uncoded '\r' List.mem_cons_self
  -- Behind the three opening quotes stand the break, the text and the closing quotes.
  have written : renderStyled .literalLines text ++ rest = '\'' :: '\'' :: '\'' ::
      (openingBreak text ++ (text ++ '\'' :: '\'' :: '\'' :: rest)) := by
    simp [renderStyled]
  rw [written, readQuoted]
  simp only [skipFirstBreak_openingBreak starts]
  rw [readLiteralLines_append uncoded few (by simp only [List.length_append]; omega) ends.2]
  rfl

/-- What stands between single delimiters is set out with them. -/
theorem renderStyled_basic (text rest : List Char) :
    renderStyled .basic text ++ rest = '"' :: (text.flatMap escape ++ '"' :: rest) := by
  simp [renderStyled]

theorem renderStyled_literal (text rest : List Char) :
    renderStyled .literal text ++ rest = '\'' :: (text ++ '\'' :: rest) := by
  simp [renderStyled]

/-- A string reads back in front of anything but a quote. -/
theorem readQuoted_renderString (s : String) {rest : List Char} (ends : NoQuoteAhead rest) :
    readQuoted (renderString s ++ rest) = some (s, rest) := by
  have uncoded (codes : s.toList.any needsCode = false) : ∀ c ∈ s.toList, needsCode c = false :=
    fun c member => by simpa using List.any_eq_false.mp codes c member
  have basic : readQuoted (renderStyled .basic s.toList ++ rest) =
      some (String.ofList s.toList, rest) := by
    rw [renderStyled_basic, readQuoted_basic _ ends]
  conv => rhs; rw [← String.ofList_toList (s := s)]
  rw [renderString, styleOf]
  -- The text is read in each of the styles that it may be given.
  split
  · -- A text without anything to escape is basic.
    exact basic
  rename_i notBasic
  split
  · -- A literal text has no codes and no apostrophes, and it is not empty, or it would be basic.
    rename_i literal
    simp only [Bool.and_eq_true, Bool.not_eq_true', List.contains_eq_mem, decide_eq_false_iff_not]
      at literal
    obtain ⟨⟨codes, noQuote⟩, unbroken⟩ := literal
    rw [renderStyled_literal]
    refine readQuoted_literal ?_ (fun c member => ?_) noQuote rest
    · intro empty
      simp [empty] at notBasic
    · refine isPlain_of_not_coded (uncoded codes c member) ?_
      rintro rfl
      exact unbroken member
  split
  · -- Few quotes in a row need no escape between three of them.
    exact readQuoted_basicLines _ ends
  split
  · -- Few apostrophes in a row need no escape between three of them.
    rename_i literal
    simp only [Bool.and_eq_true, Bool.not_eq_true', decide_eq_true_eq] at literal
    exact readQuoted_literalLines (uncoded literal.1) literal.2 ends
  split
  · -- What is left is escaped, on several lines when the text has them.
    exact readQuoted_basicLines _ ends
  · exact basic

/-- A bare word reads back as a key in front of what is no part of one. -/
theorem readKey_bare {text : List Char} (nonempty : text ≠ []) (bare : ∀ c ∈ text, isBare c = true)
    {rest : List Char} (stops : ∀ c ∈ rest.head?, isBare c = false) :
    readKey (text ++ rest) = some (String.ofList text, rest) := by
  -- The word ends where the bare characters do.
  have stopped : rest.takeWhile isBare = [] ∧ rest.dropWhile isBare = rest := by
    cases rest with
    | nil => exact ⟨rfl, rfl⟩
    | cons c rest =>
      have first := stops c rfl
      exact ⟨List.takeWhile_cons_of_neg (by simp [first]),
        List.dropWhile_cons_of_neg (by simp [first])⟩
  have word : (text ++ rest).takeWhile isBare = text := by
    rw [List.takeWhile_append_of_pos bare, stopped.1, List.append_nil]
  have left : (text ++ rest).dropWhile isBare = rest := by
    rw [List.dropWhile_append_of_pos bare, stopped.2]
  obtain ⟨c, tail, rfl⟩ := List.exists_cons_of_ne_nil nonempty
  have first := bare c List.mem_cons_self
  rw [readKey]
  · simp only [word, left]
    rfl
  -- A word that starts with a bare character is told from quoted ones.
  all_goals
    intro _ same
    rw [(List.cons.inj same).1] at first
    cases first

/-- A bare key or a quoted one reads back in front of what is no part of a key. -/
theorem readKey_renderKey (key : String) {rest : List Char} (ends : NoQuoteAhead rest)
    (stops : ∀ c ∈ rest.head?, isBare c = false) :
    readKey (renderKey key ++ rest) = some (key, rest) := by
  conv => rhs; rw [← String.ofList_toList (s := key)]
  rw [renderKey]
  split
  · -- A bare key is a word.
    rename_i bare
    simp only [Bool.and_eq_true, Bool.not_eq_true', List.isEmpty_eq_false_iff, List.all_eq_true]
      at bare
    exact readKey_bare bare.1 bare.2 stops
  split
  · -- A key with something to escape is literal when it can be.
    rename_i literal
    simp only [Bool.and_eq_true, Bool.not_eq_true', List.contains_eq_mem, decide_eq_false_iff_not]
      at literal
    obtain ⟨⟨codes, escapes⟩, noQuote⟩ := literal
    have nonempty : key.toList ≠ [] := by
      intro empty
      simp [empty] at escapes
    rw [renderStyled_literal, readKey]
    · refine readQuoted_literal nonempty (fun c member => ?_) noQuote rest
      have uncoded := List.any_eq_false.mp codes c member
      simp only [Bool.or_eq_true, decide_eq_true_eq, not_or, Bool.not_eq_true] at uncoded
      exact isPlain_of_not_coded uncoded.1 uncoded.2
    · exact literal_opens_once nonempty noQuote rest
  · -- Every other key is basic.
    rw [renderStyled_basic, readKey]
    · exact readQuoted_basic _ ends
    · exact basic_opens_once key.toList ends

end SyncStore.Toml
