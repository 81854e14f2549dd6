import SyncStore.Toml.Assembly
import SyncStore.Toml.Printer
import SyncStore.Toml.Scalar

/-! TOML text is read line by line into entries and sections, which make a document. -/

namespace SyncStore.Toml

/-- Values and keys may be nested this deep. -/
def maxDepth : Nat := 80

/-- The rest of a line is a comment without control characters, or nothing at all. -/
def skipComment (text : List Char) : Option (List Char) :=
  match text with
  | '#' :: rest =>
    -- A comment runs to the end of its line or of the text.
    let ended := rest.dropWhile isPlain
    if ended.isEmpty || (lineEnd? ended).isSome then some ended else none
  | text => some text

/-- A key is bare, or quoted on one line. -/
def readKey (text : List Char) : Option (String × List Char) :=
  match text with
  -- A key never runs over several lines.
  | '"' :: '"' :: '"' :: _ => none
  | '\'' :: '\'' :: '\'' :: _ => none
  | '"' :: _ => readQuoted text
  | '\'' :: _ => readQuoted text
  | _ =>
    let word := text.takeWhile isBare
    if word.isEmpty then none else some (String.ofList word, text.dropWhile isBare)

/-- A key of several parts is separated by points, with gaps around each part. -/
def readParts : (steps : Nat) → List Char → Option ((List String × String) × List Char)
  | 0, _ => none
  | steps + 1, text => do
    let (part, rest) ← readKey (skipGap text)
    -- Gaps may stand on both sides of a point.
    match skipGap rest with
    | '.' :: rest => do
      let ((path, key), rest) ← readParts steps rest
      return ((part :: path, key), rest)
    | rest => some (([], part), rest)

/-- A key that leads too deep is refused. -/
def readPath (text : List Char) : Option ((List String × String) × List Char) := do
  let ((path, key), rest) ← readParts (text.length + 1) text
  if path.length < maxDepth then some ((path, key), rest) else none

/-- Between the items of a bracket, gaps, comments and line ends are skipped. -/
def skipLines : (steps : Nat) → List Char → Option (List Char)
  | 0, _ => none
  | steps + 1, text => do
    let rest ← skipComment (skipGap text)
    match lineEnd? rest with
    | some (_, rest) => skipLines steps rest
    | none => some rest

mutual

/-- A value is read at a nesting that may still grow by `depth` levels. -/
def readInline (steps depth : Nat) (text : List Char) : Option (Inline × List Char) :=
  match steps with
  | 0 => none
  | steps + 1 =>
    match text with
    | '"' :: _ => (readQuoted text).map fun (s, rest) => (.string s, rest)
    | '\'' :: _ => (readQuoted text).map fun (s, rest) => (.string s, rest)
    | '[' :: rest =>
      match depth with
      | 0 => none
      | depth + 1 => (readItems steps depth rest).map fun (items, rest) => (.array items, rest)
    | '{' :: rest =>
      match depth with
      | 0 => none
      | depth + 1 => do
        let (entries, rest) ← readEntries steps depth rest
        let table ← assembleInline entries
        return (table, rest)
    | text => readUnquoted text

/-- The items of an array end at its bracket, behind an item or behind a comma. -/
def readItems (steps depth : Nat) (text : List Char) : Option (List Inline × List Char) :=
  match steps with
  | 0 => none
  | steps + 1 => do
    let rest ← skipLines (text.length + 1) text
    match rest with
    | ']' :: rest => some ([], rest)
    | rest => do
      let (item, rest) ← readInline steps depth rest
      let rest ← skipLines (rest.length + 1) rest
      match rest with
      | ']' :: rest => some ([item], rest)
      -- A comma may be the last thing before the bracket.
      | ',' :: rest =>
        (readItems steps depth rest).map fun (items, rest) => (item :: items, rest)
      | _ => none

/-- The entries of an inline table end at its brace, behind an entry or behind a comma. -/
def readEntries (steps depth : Nat) (text : List Char) : Option (List Entry × List Char) :=
  match steps with
  | 0 => none
  | steps + 1 => do
    let rest ← skipLines (text.length + 1) text
    match rest with
    | '}' :: rest => some ([], rest)
    | rest => do
      let (entry, rest) ← readEntry steps depth rest
      let rest ← skipLines (rest.length + 1) rest
      match rest with
      | '}' :: rest => some ([entry], rest)
      -- A comma may be the last thing before the brace.
      | ',' :: rest =>
        (readEntries steps depth rest).map fun (entries, rest) => (entry :: entries, rest)
      | _ => none

/-- An entry is a key, an equals sign and a value. -/
def readEntry (steps depth : Nat) (text : List Char) : Option (Entry × List Char) :=
  match steps with
  | 0 => none
  | steps + 1 => do
    let ((path, key), rest) ← readPath text
    -- The value stands on the line of its key.
    match rest with
    | '=' :: rest =>
      (readInline steps depth (skipGap rest)).map fun (value, rest) => (⟨path, key, value⟩, rest)
    | _ => none

end

/-- A statement is an entry or a header. -/
inductive Statement where
  | entry (entry : Entry)
  | header (header : Header)

/-- A header stands in single or in double brackets, which touch each other. -/
def readHeader (text : List Char) : Option (Header × List Char) :=
  match text with
  | '[' :: rest => do
    let ((path, key), rest) ← readPath rest
    match rest with
    -- Two closing brackets must touch each other as well.
    | ']' :: ']' :: rest => some (⟨path, key, true⟩, rest)
    | _ => none
  | rest => do
    let ((path, key), rest) ← readPath rest
    match rest with
    | ']' :: rest => some (⟨path, key, false⟩, rest)
    | _ => none

/-- A statement starts with a bracket or with a key. -/
def readStatement (text : List Char) : Option (Statement × List Char) :=
  match text with
  | '[' :: rest => (readHeader rest).map fun (header, rest) => (.header header, rest)
  | text =>
    -- An entry takes two steps for each character at most.
    (readEntry (2 * text.length + 2) maxDepth text).map fun (entry, rest) => (.entry entry, rest)

/-- Nothing but a comment follows a statement on its line. -/
def endStatement (text : List Char) : Option (List Char) := do
  let rest ← skipComment (skipGap text)
  match rest with
  | [] => some []
  | rest => (lineEnd? rest).map fun (_, rest) => rest

/-- Every line holds at most one statement. -/
def readStatements : (steps : Nat) → List Char → Option (List Statement)
  | 0, _ => none
  | steps + 1, text => do
    let rest ← skipLines (text.length + 1) text
    match rest with
    | [] => some []
    | rest => do
      let (statement, rest) ← readStatement rest
      let rest ← endStatement rest
      (readStatements steps rest).map (statement :: ·)

/-- The entries in front of the first header, and a section for every header. -/
def sectioned : List Statement → List Entry × List Section
  | [] => ([], [])
  | .entry entry :: rest =>
    let (entries, sections) := sectioned rest
    (entry :: entries, sections)
  -- The entries up to the next header belong to this one.
  | .header header :: rest =>
    let (entries, sections) := sectioned rest
    ([], ⟨header, entries⟩ :: sections)

/-- A mark of the byte order in front of a text is skipped. -/
def skipByteOrderMark : List Char → List Char
  | '\uFEFF' :: rest => rest
  | text => text

/-- Text is read as a document. -/
def read? (text : String) : Option Document := do
  let rest := skipByteOrderMark text.toList
  let statements ← readStatements (rest.length + 1) rest
  let (entries, sections) := sectioned statements
  assemble entries sections

end SyncStore.Toml
