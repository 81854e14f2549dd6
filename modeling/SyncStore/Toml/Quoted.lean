import SyncStore.Json.Reader

/-! Quoted TOML text is basic with escapes or literal without them, on one line or on several. -/

namespace SyncStore.Toml

/-- No control character but a tab stands unescaped in a line. -/
def isPlain (c : Char) : Bool := 0x20 ≤ c.toNat && c.toNat ≠ 0x7F || c = '\t'

/-- Blanks on a line are spaces and tabs. -/
def isGap (c : Char) : Bool := c = ' ' || c = '\t'

/-- The gap in front of a token is skipped. -/
def skipGap (text : List Char) : List Char := text.dropWhile isGap

/-- A line ends in a line feed, or in a carriage return and a line feed. -/
def lineEnd? : List Char → Option (List Char × List Char)
  | '\n' :: rest => some (['\n'], rest)
  | '\r' :: '\n' :: rest => some (['\r', '\n'], rest)
  | _ => none

/-- A code point of as many hexadecimal digits as asked for must be a character. -/
def readCode (count : Nat) (text : List Char) : Option (Char × List Char) :=
  let digits := (text.take count).filterMap Json.hexValue?
  let code := digits.foldl (fun code digit => code * 16 + digit) 0
  -- The surrogates between the two ranges are no characters.
  if digits.length = count && (code < 0xD800 || 0xE000 ≤ code && code < 0x110000)
  then some (Char.ofNat code, text.drop count)
  else none

/-- The character behind a backslash. -/
def readEscape : List Char → Option (Char × List Char)
  | 'b' :: rest => some ('\x08', rest)
  | 'e' :: rest => some ('\x1b', rest)
  | 'f' :: rest => some ('\x0c', rest)
  | 'n' :: rest => some ('\n', rest)
  | 'r' :: rest => some ('\r', rest)
  | 't' :: rest => some ('\t', rest)
  | '"' :: rest => some ('"', rest)
  | '\\' :: rest => some ('\\', rest)
  | 'x' :: rest => readCode 2 rest
  | 'u' :: rest => readCode 4 rest
  | 'U' :: rest => readCode 8 rest
  | _ => none

/-- Behind a backslash at the end of a line, all gaps and line ends are skipped. -/
def skipContinued (text : List Char) : List Char :=
  match text with
  -- Empty lines are skipped along with the blanks.
  | '\n' :: rest => skipContinued rest
  | '\r' :: '\n' :: rest => skipContinued rest
  | c :: rest => if isGap c then skipContinued rest else c :: rest
  | [] => []
termination_by text.length

/-- A backslash at the end of a line joins the text to the next one. -/
def continuation? (text : List Char) : Option (List Char) :=
  (lineEnd? (skipGap text)).map fun (_, rest) => skipContinued rest

/-- A basic string ends at its quote, on the same line. -/
def readBasic : (steps : Nat) → List Char → Option (List Char × List Char)
  | 0, _ => none
  | _, [] => none
  | _, '"' :: rest => some ([], rest)
  -- The escape may take several characters, so the steps are counted apart from the text.
  | steps + 1, '\\' :: rest => do
    let (c, rest) ← readEscape rest
    let (text, rest) ← readBasic steps rest
    return (c :: text, rest)
  | steps + 1, c :: rest =>
    if isPlain c then (readBasic steps rest).map fun (text, rest) => (c :: text, rest) else none

/-- A literal string ends at its quote, on the same line. -/
def readLiteral : List Char → Option (List Char × List Char)
  | [] => none
  | '\'' :: rest => some ([], rest)
  | c :: rest =>
    if isPlain c then (readLiteral rest).map fun (text, rest) => (c :: text, rest) else none

/-- Up to two quotes in front of three closing ones belong to the text. -/
def closing? (quote : Char) (text : List Char) : Option (List Char × List Char) :=
  -- Two quotes of the text and three closing ones are the most that can stand in a row.
  let run := (text.take 5).takeWhile (· = quote)
  if 3 ≤ run.length then some (run.drop 3, text.drop run.length) else none

/-- A basic string of several lines ends at three quotes. -/
def readBasicLines : (steps : Nat) → List Char → Option (List Char × List Char)
  | 0, _ => none
  | _, [] => none
  | steps + 1, '\\' :: rest =>
    -- A line that is continued has no end in the text.
    match continuation? rest with
    | some rest => readBasicLines steps rest
    | none => do
      let (c, rest) ← readEscape rest
      let (text, rest) ← readBasicLines steps rest
      return (c :: text, rest)
  | steps + 1, c :: rest =>
    -- A quote that does not close the string is a plain character.
    match closing? '"' (c :: rest), lineEnd? (c :: rest) with
    | some closed, _ => some closed
    | none, some (line, rest) =>
      (readBasicLines steps rest).map fun (text, rest) => (line ++ text, rest)
    | none, none =>
      if isPlain c then (readBasicLines steps rest).map fun (text, rest) => (c :: text, rest)
      else none

/-- A literal string of several lines ends at three quotes. -/
def readLiteralLines : (steps : Nat) → List Char → Option (List Char × List Char)
  | 0, _ => none
  | _, [] => none
  | steps + 1, c :: rest =>
    match closing? '\'' (c :: rest), lineEnd? (c :: rest) with
    | some closed, _ => some closed
    | none, some (line, rest) =>
      (readLiteralLines steps rest).map fun (text, rest) => (line ++ text, rest)
    | none, none =>
      if isPlain c then (readLiteralLines steps rest).map fun (text, rest) => (c :: text, rest)
      else none

/-- A line end right behind three opening quotes belongs to no text. -/
def skipFirstBreak (text : List Char) : List Char :=
  match lineEnd? text with
  | some (_, rest) => rest
  | none => text

/-- A quoted string is told by its opening quotes. -/
def readQuoted (text : List Char) : Option (String × List Char) :=
  let found := match text with
    | '"' :: '"' :: '"' :: rest => readBasicLines (rest.length + 1) (skipFirstBreak rest)
    | '\'' :: '\'' :: '\'' :: rest => readLiteralLines (rest.length + 1) (skipFirstBreak rest)
    -- An empty string on one line is tried after three opening quotes.
    | '"' :: rest => readBasic (rest.length + 1) rest
    | '\'' :: rest => readLiteral rest
    | _ => none
  found.map fun (text, rest) => (String.ofList text, rest)

end SyncStore.Toml
