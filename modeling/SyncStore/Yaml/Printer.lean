import SyncStore.Decimal.Layout
import SyncStore.Json.SyntaxError
import SyncStore.Text.Casing
import SyncStore.Value
import SyncStore.Yaml.Character
import SyncStore.Yaml.Resolution

/-! The text of a value in YAML blocks, with each string in the plainest style that keeps it. -/

namespace SyncStore.Yaml

/-- YAML shows numbers far from one with an exponent and keeps a fraction on every other float. -/
def floats : FloatLayout := ⟨true, false, true, .toEven⟩

/-- How a string is delimited. -/
inductive StringStyle where
  | plain
  | single
  | double
  | literal
  deriving DecidableEq

/-- Words that some readers take for booleans are never plain. -/
def booleanWords : List String :=
  ["y", "Y", "yes", "Yes", "YES", "n", "N", "no", "No", "NO", "true", "True", "TRUE", "false",
    "False", "FALSE", "on", "On", "ON", "off", "Off", "OFF"]

/-- A text is not plain when a reader might take it for null, a boolean or a number. -/
def looksTyped (text : String) : Bool :=
  let lower := String.ofList (lowerCase text.toList)
  let startsNumber := text.toList.head?.any fun c => c.isDigit || c = '-' || c = '.' || c = '+'
  let stands := match Plain.ofText text with
    | .text => false
    | _ => true
  booleanWords.contains text || lower = "true" || lower = "false" || lower = "null" ||
    lower = "nan" || startsNumber || stands

/-- Whether some place of a text satisfies a condition on the character before
and the text from there. -/
def hasPlace (holds : Option Char → List Char → Bool) (before : Option Char) : List Char → Bool
  | [] => false
  | c :: rest => holds before (c :: rest) || hasPlace holds (some c) rest

/-- An indicator that would end plain text or start something else in its place. -/
def isIndicator (before : Option Char) (text : List Char) : Bool :=
  match before, text with
  | none, c :: rest =>
    "#,[]\x7b\x7d&*!|>'\"%@`".toList.contains c || ("?:-".toList.contains c && endsWord rest)
  | some b, c :: rest => (c = ':' && endsWord rest) || (c = '#' && isGap b)
  | _, [] => false

/-- A text that starts like a document marker is not plain. -/
def startsMarker (text : List Char) : Bool :=
  "---".toList.isPrefixOf text || "...".toList.isPrefixOf text

/-- A space in front of a line break. -/
def isSpaceBreak (_ : Option Char) : List Char → Bool
  | ' ' :: c :: _ => isBreak c
  | _ => false

/-- A line break in front of a space. -/
def isBreakSpace (_ : Option Char) : List Char → Bool
  | c :: ' ' :: _ => isBreak c
  | _ => false

/-- Whether a text starts or ends in a character of some kind. -/
def isEdged (kind : Char → Bool) (text : List Char) : Bool :=
  text.head?.any kind || text.getLast?.any kind

/-- Plain text is one line without outer spaces, indicators and unprintable characters. -/
def allowsPlain (text : List Char) : Bool :=
  !text.any isBreak && text.all isPrintable && !isEdged (· = ' ') text && !startsMarker text &&
    !hasPlace isIndicator none text

/-- Single quotes keep everything printable whose line breaks touch no space. -/
def allowsSingle (text : List Char) : Bool :=
  text.all isPrintable && !hasPlace isSpaceBreak none text && !hasPlace isBreakSpace none text

/-- A literal block keeps everything printable that has no space at the end of a line. -/
def allowsLiteral (text : List Char) : Bool :=
  !text.isEmpty && text.all isPrintable && !hasPlace isSpaceBreak none text &&
    text.getLast? ≠ some ' '

/-- A style that cannot keep a text gives way to quotes. -/
def styleOf (s : String) : StringStyle :=
  let text := s.toList
  if looksTyped s && !text.contains '\n' then if allowsSingle text then .single else .double
  else if text.contains '\n' then if allowsLiteral text then .literal else .double
  else if allowsPlain text then .plain
  else if allowsSingle text then .single
  else .double

/-- A run of blanks. -/
def spaces (count : Nat) : List Char := List.replicate count ' '

/-- The hexadecimal digits of a code point, in upper case, filled up to a width. -/
def codeDigits (width code : Nat) : List Char :=
  let digits := (Nat.toDigits 16 code).map Char.toUpper
  List.replicate (width - digits.length) '0' ++ digits

/-- The short escapes of a double-quoted string. -/
def shortEscape? (c : Char) : Option Char :=
  match c with
  | '\x00' => some '0'
  | '\x07' => some 'a'
  | '\x08' => some 'b'
  | '\t' => some 't'
  | '\n' => some 'n'
  | '\x0b' => some 'v'
  | '\x0c' => some 'f'
  | '\r' => some 'r'
  | '\x1b' => some 'e'
  | '"' => some '"'
  | '\\' => some '\\'
  | '\x85' => some 'N'
  | '\u2028' => some 'L'
  | '\u2029' => some 'P'
  | _ => none

/-- An escape is short where there is one, and otherwise a code of two, four or eight digits. -/
def escape (c : Char) : List Char :=
  match shortEscape? c with
  | some letter => ['\\', letter]
  | none =>
    if isPrintable c then [c]
    else if c.toNat ≤ 0xFF then '\\' :: 'x' :: codeDigits 2 c.toNat
    else if c.toNat ≤ 0xFFFF then '\\' :: 'u' :: codeDigits 4 c.toNat
    else '\\' :: 'U' :: codeDigits 8 c.toNat

/-- Between double quotes a string stays on one line. -/
def renderDouble (text : List Char) : List Char := '"' :: (text.flatMap escape ++ ['"'])

/-- Between single quotes a quote is doubled, and every line after the first is indented. -/
def renderSingleFrom (indent : Nat) : (broken : Bool) → List Char → List Char
  | broken, [] => if broken then spaces indent else []
  | broken, c :: rest =>
    if isBreak c then c :: renderSingleFrom indent true rest
    else
      (if broken then spaces indent else []) ++ (if c = '\'' then ['\'', '\''] else [c]) ++
        renderSingleFrom indent false rest

/-- A string between single quotes. -/
def renderSingle (indent : Nat) (text : List Char) : List Char :=
  '\'' :: (renderSingleFrom indent false text ++ ['\''])

/-- The lines of a literal block are indented unless they are empty. -/
def literalLines (indent : Nat) : (broken : Bool) → List Char → List Char
  | _, [] => []
  | broken, c :: rest =>
    if isBreak c then c :: literalLines indent true rest
    else (if broken then spaces indent else []) ++ c :: literalLines indent false rest

/-- A literal block tells its indentation when its text starts with a gap. -/
def indentHint (text : List Char) : List Char :=
  if text.head?.any fun c => c = ' ' || isBreak c then ['2'] else []

/-- A literal block tells how its text ends unless it ends in exactly one line break. -/
def chompHint (text : List Char) : List Char :=
  match text.reverse with
  | [] => ['-']
  | [c] => if isBreak c then ['+'] else ['-']
  | last :: before :: _ =>
    if !isBreak last then ['-'] else if isBreak before then ['+'] else []

/-- Written text, and whether its last line is already ended. -/
structure Written where
  text : List Char
  isEnded : Bool

/-- A string whose further lines are indented. -/
def writeString (indent : Nat) (s : String) : Written :=
  let text := s.toList
  match styleOf s with
  | .plain => ⟨text, false⟩
  | .single => ⟨renderSingle indent text, false⟩
  | .double => ⟨renderDouble text, false⟩
  | .literal =>
    ⟨'|' :: (indentHint text ++ chompHint text ++ '\n' :: literalLines indent true text),
      text.getLast?.any isBreak⟩

/-- A scalar or an empty collection has a text of its own; every other value
is written in a block. -/
def writeScalar (indent : Nat) : Value → Written
  | .null => ⟨"null".toList, false⟩
  | .bool true => ⟨"true".toList, false⟩
  | .bool false => ⟨"false".toList, false⟩
  | .number (.int n) => ⟨n.render, false⟩
  | .number (.float x) => ⟨floats.render x, false⟩
  | .string s => writeString indent s
  | .array _ => ⟨"[]".toList, false⟩
  | .object _ => ⟨"\x7b\x7d".toList, false⟩

/-- The next line starts behind an indentation. -/
def lineStart (written : Written) (indent : Nat) : List Char :=
  (if written.isEnded then [] else ['\n']) ++ spaces indent

/-- Text in front of written text. -/
def Written.after (front : List Char) (written : Written) : Written :=
  { written with text := front ++ written.text }

/-- Written text, a new line behind an indentation, and further text. -/
def Written.line (first : Written) (indent : Nat) (second : Written) : Written :=
  second.after (first.text ++ lineStart first indent)

/-- Keys of one line and at most this many bytes stand in front of a colon. -/
def longestKey : Nat := 128

/-- Longer keys, and keys of several lines, stand behind a question mark. -/
def isSimpleKey (key : String) : Bool :=
  !key.toList.any isBreak && Json.byteCount key.toList ≤ longestKey

/-- A key in front of a colon and its value. -/
def simpleMember (indent : Nat) (key : String) (value : Written) : Written :=
  value.after ((writeString (indent + 2) key).text ++ [':'])

/-- A key behind a question mark, and behind a colon on the next line its value. -/
def complexMember (indent : Nat) (key : String) (value : Written) : Written :=
  ((writeString (indent + 2) key).after ['?', ' ']).line indent (value.after [':'])

mutual

/-- A value behind a dash or a colon of its own line; a block starts on the same line. -/
def writeInline (indent : Nat) : Value → Written
  | .array [] => (writeScalar indent (.array [])).after [' ']
  | .array items => (writeItems (indent + 2) items).after [' ']
  | .object [] => (writeScalar indent (.object [])).after [' ']
  | .object members => (writeMembers (indent + 2) members).after [' ']
  | value => (writeScalar (indent + 2) value).after [' ']

/-- A value behind a key; items stand at the indentation of the key, and members two deeper. -/
def writeBelow (indent : Nat) : Value → Written
  | .array [] => (writeScalar indent (.array [])).after [' ']
  | .array items => (writeItems indent items).after ('\n' :: spaces indent)
  | .object [] => (writeScalar indent (.object [])).after [' ']
  | .object members => (writeMembers (indent + 2) members).after ('\n' :: spaces (indent + 2))
  | value => (writeScalar (indent + 2) value).after [' ']

/-- Every item stands behind a dash. -/
def writeItems (indent : Nat) : List Value → Written
  | [] => ⟨[], false⟩
  | [item] => (writeInline indent item).after ['-']
  | item :: rest => ((writeInline indent item).after ['-']).line indent (writeItems indent rest)

/-- Every member stands on lines of its own. -/
def writeMembers (indent : Nat) : List (String × Value) → Written
  | [] => ⟨[], false⟩
  | [(key, value)] =>
    if isSimpleKey key then simpleMember indent key (writeBelow indent value)
    else complexMember indent key (writeInline indent value)
  | (key, value) :: rest =>
    let member :=
      if isSimpleKey key then simpleMember indent key (writeBelow indent value)
      else complexMember indent key (writeInline indent value)
    member.line indent (writeMembers indent rest)

end

/-- The text of data is a block, or braces when it is empty, and its last line is ended. -/
def render (data : Data) : String :=
  let written := if data.isEmpty then writeScalar 0 (.object []) else writeMembers 0 data
  String.ofList (written.text ++ lineStart written 0)

end SyncStore.Yaml
