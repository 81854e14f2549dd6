/-! A JSON syntax error is a cause and the place in the text where it shows. -/

namespace SyncStore.Json

/-- Why text is not JSON. -/
inductive Cause where
  | unfinishedValue
  | unfinishedList
  | unfinishedObject
  | unfinishedString
  | noValue
  | noWord
  | noColon
  | noListCommaOrEnd
  | noObjectCommaOrEnd
  | keyNotString
  | trailingComma
  | trailingCharacters
  | invalidNumber
  | numberOutOfRange
  | invalidEscape
  | controlCharacter
  | loneSurrogate
  | unfinishedSurrogatePair
  | tooDeep
  deriving DecidableEq

/-- The words for a cause. -/
def Cause.message : Cause → String
  | .unfinishedValue => "EOF while parsing a value"
  | .unfinishedList => "EOF while parsing a list"
  | .unfinishedObject => "EOF while parsing an object"
  | .unfinishedString => "EOF while parsing a string"
  | .noValue => "expected value"
  | .noWord => "expected ident"
  | .noColon => "expected `:`"
  | .noListCommaOrEnd => "expected `,` or `]`"
  | .noObjectCommaOrEnd => "expected `,` or `\x7d`"
  | .keyNotString => "key must be a string"
  | .trailingComma => "trailing comma"
  | .trailingCharacters => "trailing characters"
  | .invalidNumber => "invalid number"
  | .numberOutOfRange => "number out of range"
  | .invalidEscape => "invalid escape"
  | .controlCharacter => "control character (\\u0000-\\u001F) found while parsing a string"
  | .loneSurrogate => "lone leading surrogate in hex escape"
  | .unfinishedSurrogatePair => "unexpected end of hex escape"
  | .tooDeep => "recursion limit exceeded"

/-- A fault is a cause and the number of bytes of the text that were still ahead of it. -/
structure Fault where
  cause : Cause
  ahead : Nat

/-- A syntax error names the line, counted from one, and the bytes of that line before the error. -/
structure SyntaxError where
  cause : Cause
  line : Nat
  column : Nat
  deriving DecidableEq

/-- The words for a syntax error end with its place. -/
def SyntaxError.message (error : SyntaxError) : String :=
  s!"{error.cause.message} at line {error.line} column {error.column}"

/-- The length of a text counts the bytes of its encoding. -/
def byteCount (text : List Char) : Nat := text.foldl (fun count c => count + c.utf8Size) 0

/-- The place reached after a number of bytes, from a given line and column on. -/
def placeAfter : List Char → (bytes line column : Nat) → Nat × Nat
  | [], _, line, column => (line, column)
  | c :: rest, bytes, line, column =>
    if bytes = 0 then (line, column)
    else if bytes < c.utf8Size then (line, column + bytes)
    else if c = '\n' then placeAfter rest (bytes - 1) (line + 1) 0
    else placeAfter rest (bytes - c.utf8Size) line (column + c.utf8Size)

/-- A fault in a text becomes an error at the place that leaves its bytes ahead. -/
def Fault.inText (fault : Fault) (text : List Char) : SyntaxError :=
  let place := placeAfter text (byteCount text - fault.ahead) 1 0
  ⟨fault.cause, place.1, place.2⟩

end SyncStore.Json
