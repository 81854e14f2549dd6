import SyncStore.Decimal.Layout
import SyncStore.Toml.Document

/-! The text of a TOML document puts the values of a table first and its sections after them. -/

namespace SyncStore.Toml

/-- TOML shows every float without an exponent and with a fraction. -/
def floats : FloatLayout := ⟨false, false, true, .up⟩

/-- The length of the longest run of a character in a text. -/
def longestRun (c : Char) : (current longest : Nat) → List Char → Nat
  | current, longest, [] => max current longest
  | current, longest, d :: rest =>
    if d = c then longestRun c (current + 1) longest rest
    else longestRun c 0 (max current longest) rest

/-- Control characters other than tab and line feed are only written as escapes. -/
def needsCode (c : Char) : Bool := c.toNat < 0x20 && c ≠ '\t' && c ≠ '\n' || c.toNat = 0x7F

/-- The four hexadecimal digits of a control character, in upper case. -/
def codeDigits (c : Char) : List Char :=
  '0' :: '0' :: (Nat.digitChar (c.toNat / 16)).toUpper :: [(Nat.digitChar (c.toNat % 16)).toUpper]

/-- An escape in a basic string. -/
def escape (c : Char) : List Char :=
  match c with
  | '\x08' => ['\\', 'b']
  | '\t' => ['\\', 't']
  | '\n' => ['\\', 'n']
  | '\x0c' => ['\\', 'f']
  | '\r' => ['\\', 'r']
  | '"' => ['\\', '"']
  | '\\' => ['\\', '\\']
  | c => if needsCode c then '\\' :: 'u' :: codeDigits c else [c]

/-- Between three quotes only every third quote of a run is an escape, and lines end as they are. -/
def escapeLines : (run : Nat) → List Char → List Char
  | _, [] => []
  | run, '"' :: rest =>
    -- A third quote in a row would close the string.
    if run = 2 then '\\' :: '"' :: escapeLines 0 rest else '"' :: escapeLines (run + 1) rest
  | _, '\n' :: rest => '\n' :: escapeLines 0 rest
  | _, c :: rest => escape c ++ escapeLines 0 rest

/-- How a string is delimited. -/
inductive StringStyle where
  | basic
  | literal
  | basicLines
  | literalLines
  deriving DecidableEq

/-- A text that needs no escape is basic, and otherwise the first style that
avoids escapes is taken. -/
def styleOf (text : List Char) : StringStyle :=
  let codes := text.any needsCode
  let escapes := codes || text.contains '\\'
  let lines := text.contains '\n'
  if !escapes && !text.contains '"' && !lines then .basic
  -- A literal has no escapes, so what it cannot hold must not be there.
  else if !codes && !text.contains '\'' && !lines then .literal
  else if !escapes && longestRun '"' 0 0 text ≤ 2 then .basicLines
  else if !codes && longestRun '\'' 0 0 text ≤ 2 then .literalLines
  -- Something has to be escaped, and line ends are still kept as they are.
  else if lines then .basicLines
  else .basic

/-- A text of several lines starts on a line of its own. -/
def openingBreak (text : List Char) : List Char := if text.contains '\n' then ['\n'] else []

/-- A text between the delimiters of a style. -/
def renderStyled (style : StringStyle) (text : List Char) : List Char :=
  match style with
  | .basic => '"' :: (text.flatMap escape ++ ['"'])
  | .literal => '\'' :: (text ++ ['\''])
  | .basicLines =>
    "\"\"\"".toList ++ openingBreak text ++ escapeLines 0 text ++ "\"\"\"".toList
  | .literalLines => "'''".toList ++ openingBreak text ++ text ++ "'''".toList

/-- A string is written in the style of its text. -/
def renderString (s : String) : List Char := renderStyled (styleOf s.toList) s.toList

/-- Keys of these characters need no quotes. -/
def isBare (c : Char) : Bool := c.isAlphanum || c = '_' || c = '-'

/-- A key that is not bare is quoted on one line, without escapes if that is possible. -/
def renderKey (key : String) : List Char :=
  let text := key.toList
  let codes := text.any fun c => needsCode c || c = '\n'
  let escapes := text.any fun c => c = '\\' || c = '"'
  if !text.isEmpty && text.all isBare then text
  -- A key never takes more than one line.
  else if !codes && escapes && !text.contains '\'' then renderStyled .literal text
  else renderStyled .basic text

/-- A float is written in full, and infinities and the value that is no number by name. -/
def renderFloat : Real64 → List Char
  | .notANumber => "nan".toList
  | x => floats.renderReal x

mutual

/-- The text of a value. -/
def renderInline : Inline → List Char
  | .string s => renderString s
  | .integer n => n.toWord.render
  | .float x => renderFloat x
  | .boolean true => "true".toList
  | .boolean false => "false".toList
  | .datetime text => text.toList
  | .array items => '[' :: (renderItems items ++ [']'])
  | .table [] => ['{', '}']
  | .table entries => '{' :: ' ' :: (renderEntries entries ++ [' ', '}'])

/-- Items are separated by a comma and a blank. -/
def renderItems : List Inline → List Char
  | [] => []
  | [item] => renderInline item
  | item :: rest => renderInline item ++ ',' :: ' ' :: renderItems rest

/-- Entries of an inline table are separated by a comma and a blank. -/
def renderEntries : List (String × Inline) → List Char
  | [] => []
  | [(key, value)] => renderKey key ++ ' ' :: '=' :: ' ' :: renderInline value
  | (key, value) :: rest =>
    renderKey key ++ ' ' :: '=' :: ' ' :: (renderInline value ++ ',' :: ' ' :: renderEntries rest)

end

/-- The lines of the values among the entries of a table. -/
def valueLines : List (String × Item) → List Char
  | [] => []
  | (key, .value v) :: rest =>
    renderKey key ++ ' ' :: '=' :: ' ' :: (renderInline v ++ '\n' :: valueLines rest)
  | _ :: rest => valueLines rest

/-- The keys of a header are joined by points. -/
def renderPath (path : List String) : List Char :=
  ['.'].intercalate (path.map renderKey)

/-- An empty line stands before every header that is not at the start of the text. -/
def gapBefore (isFirst : Bool) : List Char := if isFirst then [] else ['\n']

mutual

/--
The sections among the entries of a table, in their order.

`isFirst` tells that nothing is written before them.
-/
def renderSections (path : List String) : (isFirst : Bool) → List (String × Item) → List Char
  | _, [] => []
  | isFirst, (_, .value _) :: rest => renderSections path isFirst rest
  | isFirst, (key, .table entries) :: rest =>
    gapBefore isFirst ++ '[' :: (renderPath (path ++ [key]) ++ ']' :: '\n' ::
      (valueLines entries ++ renderSections (path ++ [key]) false entries ++
        renderSections path false rest))
  | isFirst, (key, .tables elements) :: rest =>
    renderElements (path ++ [key]) isFirst elements ++
      renderSections path (isFirst && elements.isEmpty) rest

/-- Every table of a list has a header in double brackets. -/
def renderElements (path : List String) : (isFirst : Bool) → List (List (String × Item)) → List Char
  | _, [] => []
  | isFirst, entries :: rest =>
    gapBefore isFirst ++ '[' :: '[' :: (renderPath path ++ ']' :: ']' :: '\n' ::
      (valueLines entries ++ renderSections path false entries ++ renderElements path false rest))

end

/-- Whether a table has a value among its entries. -/
def hasValue (entries : List (String × Item)) : Bool :=
  entries.any fun entry => match entry.2 with
    | .value _ => true
    | _ => false

/-- The text of a document. -/
def render (document : Document) : String :=
  String.ofList (valueLines document ++ renderSections [] (!hasValue document) document)

end SyncStore.Toml
