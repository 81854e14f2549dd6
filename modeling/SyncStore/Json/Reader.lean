import SyncStore.Json.Number

/-! JSON text is read into a value, or into the first syntax error. -/

namespace SyncStore.Json

/-- The blanks between JSON tokens are space, tab, line feed and carriage return. -/
def isGap (c : Char) : Bool := c = ' ' || c = '\t' || c = '\n' || c = '\r'

/-- The gap in front of a token is skipped. -/
def skipGap (text : List Char) : List Char := text.dropWhile isGap

/-- The value of a hexadecimal digit in either case. -/
def hexValue? (c : Char) : Option Nat :=
  if c.isDigit then some (c.toNat - '0'.toNat)
  else if 'a' ≤ c ∧ c ≤ 'f' then some (c.toNat - 'a'.toNat + 10)
  else if 'A' ≤ c ∧ c ≤ 'F' then some (c.toNat - 'A'.toNat + 10)
  else none

/-- Four hexadecimal digits make a code unit. -/
def hexUnit? : List Char → Option Nat
  | a :: b :: c :: d :: _ => do
    let a ← hexValue? a
    let b ← hexValue? b
    let c ← hexValue? c
    let d ← hexValue? d
    return ((a * 16 + b) * 16 + c) * 16 + d
  | _ => none

/-- A code unit is read from exactly four bytes. -/
def readUnit (text : List Char) : Except Fault Nat :=
  match hexUnit? text with
  | some unit => .ok unit
  | none =>
    -- Too few bytes are the end of the text, and other bytes are no digits.
    if byteCount text < 4 then failAt .unfinishedString []
    else .error ⟨.invalidEscape, byteCount text - 4⟩

/-- The second half of a surrogate pair follows the first half at once. -/
def readLowSurrogate (high : Nat) (text : List Char) : Except Fault (Char × Nat) :=
  match text with
  | [] => failAt .unfinishedString []
  | '\\' :: [] => failAt .unfinishedString []
  | '\\' :: 'u' :: digits => do
    let low ← readUnit digits
    if low < 0xDC00 ∨ 0xDFFF < low then failAt .loneSurrogate (digits.drop 4)
    -- Both halves together count from behind the last of the short code points.
    else .ok (Char.ofNat (0x10000 + (high - 0xD800) * 0x400 + (low - 0xDC00)), 10)
  | '\\' :: other => failAfter .unfinishedSurrogatePair other
  | other => failAfter .unfinishedSurrogatePair other

/-- A character given by code units, and the number of characters that spell it. -/
def readCodePoint (text : List Char) : Except Fault (Char × Nat) := do
  let unit ← readUnit text
  -- A second half of a pair cannot come first.
  if 0xDC00 ≤ unit ∧ unit ≤ 0xDFFF then failAt .loneSurrogate (text.drop 4)
  -- Any other unit outside the pairs is a character of its own.
  else if unit < 0xD800 ∨ 0xDBFF < unit then .ok (Char.ofNat unit, 4)
  else readLowSurrogate unit (text.drop 4)

/-- The character behind a backslash, and the number of characters that spell it. -/
def readEscape (text : List Char) : Except Fault (Char × Nat) :=
  match text with
  | [] => failAt .unfinishedString []
  | '"' :: _ => .ok ('"', 1)
  | '\\' :: _ => .ok ('\\', 1)
  | '/' :: _ => .ok ('/', 1)
  | 'b' :: _ => .ok ('\x08', 1)
  | 'f' :: _ => .ok ('\x0c', 1)
  | 'n' :: _ => .ok ('\n', 1)
  | 'r' :: _ => .ok ('\r', 1)
  | 't' :: _ => .ok ('\t', 1)
  | 'u' :: digits => (readCodePoint digits).map fun (c, length) => (c, length + 1)
  | other => failAfter .invalidEscape other

/-- A string runs to its closing quote. -/
def readCharacters (text : List Char) : Reads (List Char) :=
  match text with
  | [] => failAt .unfinishedString []
  | '"' :: rest => .ok ([], rest)
  | '\\' :: rest =>
    match readEscape rest with
    | .error fault => .error fault
    | .ok (c, length) =>
      (readCharacters (rest.drop length)).map fun (characters, rest) => (c :: characters, rest)
  | c :: rest =>
    -- A line end or another control character has to be escaped.
    if c.toNat < 0x20 then failAt .controlCharacter rest
    else (readCharacters rest).map fun (characters, rest) => (c :: characters, rest)
termination_by text.length

/-- The string behind an opening quote. -/
def readString (text : List Char) : Reads String :=
  (readCharacters text).map fun (characters, rest) => (String.ofList characters, rest)

/-- The letters of a word follow one another exactly. -/
def readWord (value : Value) : (letters : List Char) → List Char → Reads Value
  | [], rest => .ok (value, rest)
  | _ :: _, [] => failAt .unfinishedValue []
  | letter :: letters, c :: rest =>
    if c = letter then readWord value letters rest else failAfter .noWord (c :: rest)

mutual

/--
A value is read at a nesting that may still grow by `depth` levels.

The step limit is larger than any text of its length can use up.
-/
def readValue (steps depth : Nat) (text : List Char) : Reads Value :=
  match steps with
  | 0 => failAt .unfinishedValue []
  | steps + 1 =>
    match skipGap text with
    | [] => failAt .unfinishedValue []
    -- The first letter decides which word must follow.
    | 'n' :: rest => readWord .null "ull".toList rest
    | 't' :: rest => readWord (.bool true) "rue".toList rest
    | 'f' :: rest => readWord (.bool false) "alse".toList rest
    | '"' :: rest => (readString rest).map fun (s, rest) => (.string s, rest)
    | '-' :: rest => (readUnsigned true rest).map fun (n, rest) => (.number n, rest)
    -- A composite takes one level of the nesting that is left.
    | '[' :: rest =>
      match depth with
      | 0 => failAfter .tooDeep ('[' :: rest)
      | depth + 1 => (readItems steps depth rest).map fun (items, rest) => (.array items, rest)
    | '{' :: rest =>
      match depth with
      | 0 => failAfter .tooDeep ('{' :: rest)
      | depth + 1 =>
        -- A repeated key keeps its first place and takes its last value.
        (readMembers steps depth rest).map fun (members, rest) =>
          (.object (OrderedMap.ofEntries members), rest)
    | c :: rest =>
      if c.isDigit then (readUnsigned false (c :: rest)).map fun (n, rest) => (.number n, rest)
      else failAfter .noValue (c :: rest)

/-- The items of an array may be none at all. -/
def readItems (steps depth : Nat) (text : List Char) : Reads (List Value) :=
  match steps with
  | 0 => failAt .unfinishedList []
  | steps + 1 =>
    match skipGap text with
    | [] => failAt .unfinishedList []
    | ']' :: rest => .ok ([], rest)
    | rest => readMoreItems steps depth rest

/-- An item is followed by the end of the array or by a comma and another item. -/
def readMoreItems (steps depth : Nat) (text : List Char) : Reads (List Value) :=
  match steps with
  | 0 => failAt .unfinishedList []
  | steps + 1 =>
    match readValue steps depth text with
    | .error fault => .error fault
    | .ok (item, rest) =>
      match skipGap rest with
      | [] => failAt .unfinishedList []
      | ']' :: rest => .ok ([item], rest)
      | ',' :: rest =>
        match skipGap rest with
        | [] => failAt .unfinishedValue []
        -- A comma promises another item.
        | ']' :: rest => failAfter .trailingComma (']' :: rest)
        | rest => (readMoreItems steps depth rest).map fun (items, rest) => (item :: items, rest)
      | rest => failAfter .noListCommaOrEnd rest

/-- The members of an object may be none at all. -/
def readMembers (steps depth : Nat) (text : List Char) : Reads (List (String × Value)) :=
  match steps with
  | 0 => failAt .unfinishedObject []
  | steps + 1 =>
    match skipGap text with
    | [] => failAt .unfinishedObject []
    | '}' :: rest => .ok ([], rest)
    | '"' :: rest => readMoreMembers steps depth rest
    | rest => failAfter .keyNotString rest

/-- A member, read from behind its opening quote, is followed by the end or by another member. -/
def readMoreMembers (steps depth : Nat) (text : List Char) : Reads (List (String × Value)) :=
  match steps with
  | 0 => failAt .unfinishedObject []
  | steps + 1 =>
    match readString text with
    | .error fault => .error fault
    | .ok (key, rest) =>
      match skipGap rest with
      | [] => failAt .unfinishedObject []
      | ':' :: rest =>
        match readValue steps depth rest with
        | .error fault => .error fault
        | .ok (value, rest) =>
          match skipGap rest with
          | [] => failAt .unfinishedObject []
          | '}' :: rest => .ok ([(key, value)], rest)
          | ',' :: rest =>
            match skipGap rest with
            | [] => failAt .unfinishedValue []
            -- A comma promises another member.
            | '}' :: rest => failAfter .trailingComma ('}' :: rest)
            | '"' :: rest =>
              (readMoreMembers steps depth rest).map fun (members, rest) =>
                ((key, value) :: members, rest)
            | rest => failAfter .keyNotString rest
          | rest => failAfter .noObjectCommaOrEnd rest
      | rest => failAfter .noColon rest

end

/-- Arrays and objects may be nested this deep. -/
def maxDepth : Nat := 127

/-- A whole text is one value with nothing but gaps around it. -/
def readText (text : List Char) : Except Fault Value :=
  -- A reading of any text takes fewer steps than this.
  match readValue (3 * text.length + 1) maxDepth text with
  | .error fault => .error fault
  | .ok (value, rest) =>
    match skipGap rest with
    | [] => .ok value
    | rest => failAfter .trailingCharacters rest

/-- Text is read as JSON, and an error names its place in the text. -/
def read (text : String) : Except SyntaxError Value :=
  (readText text.toList).mapError (·.inText text.toList)

end SyncStore.Json
