import SyncStore.Text.Content
import SyncStore.Yaml.Block

/-! YAML text is a row of tokens, where blocks and keys are marked by tokens of their own. -/

namespace SyncStore.Yaml

/-- A token; the end of a row of tokens is the end of the text. -/
inductive Token where
  | version (major minor : Nat)
  | tagDirective (handle start : String)
  | documentStart
  | documentEnd
  | blockSequence
  | blockMapping
  | blockEnd
  | flowSequence
  | flowSequenceEnd
  | flowMapping
  | flowMappingEnd
  | blockEntry
  | flowEntry
  | key
  | value
  | alias (name : String)
  | anchor (name : String)
  | tag (handle suffix : String)
  | scalar (isPlain : Bool) (text : String)
  deriving DecidableEq

/-- A token that may turn out to be a key; a required one must. -/
structure PossibleKey where
  isRequired : Bool
  position : Nat
  place : Place

/--
The state of reading tokens.

- `indent`: the column of the innermost block, or minus one outside of all blocks
- `outer`: the columns of the blocks around it
- `allowsKey`: a key may start here
- `possible`: the token of the innermost level that may be a key
- `levels`: those of the levels around it, one for each open bracket
- `tokens`: the tokens so far, the last one first
-/
structure Lexer where
  cursor : Cursor
  indent : Int
  outer : List Int
  allowsKey : Bool
  possible : Option PossibleKey
  levels : List (Option PossibleKey)
  tokens : List Token

namespace Lexer

/-- Nothing is read yet. -/
def start (text : List Char) : Lexer := ⟨⟨text, .start⟩, -1, [], true, none, [], []⟩

/-- Inside of brackets indentation means nothing. -/
def inFlow (lexer : Lexer) : Bool := !lexer.levels.isEmpty

/-- A token is put last. -/
def push (token : Token) (lexer : Lexer) : Lexer := { lexer with tokens := token :: lexer.tokens }

/-- A token is put at a position among the tokens so far. -/
def insertAt (position : Nat) (token : Token) (lexer : Lexer) : Lexer :=
  let later := lexer.tokens.length - position
  { lexer with tokens := lexer.tokens.take later ++ token :: lexer.tokens.drop later }

/-- A possible key is given up, unless it is required. -/
def dropKey (lexer : Lexer) : Option Lexer :=
  if lexer.possible.any (·.isRequired) then none else some { lexer with possible := none }

/-- Where a key may start, the next token is remembered as a possible key. -/
def saveKey (lexer : Lexer) : Option Lexer :=
  if lexer.allowsKey then
    let required := !lexer.inFlow && lexer.indent = lexer.cursor.place.column
    lexer.dropKey.map fun lexer =>
      { lexer with possible := some ⟨required, lexer.tokens.length, lexer.cursor.place⟩ }
  else some lexer

/-- A key stands on one line and is at most this long. -/
def longestKey : Nat := 1024

/-- A possible key is stale when the text has gone on too far behind it. -/
def isStale (place : Place) (key : PossibleKey) : Bool :=
  key.place.line < place.line || key.place.index + longestKey < place.index

/-- Stale keys are given up on all levels, unless one of them is required. -/
def dropStale (lexer : Lexer) : Option Lexer :=
  let place := lexer.cursor.place
  let isLost (key : Option PossibleKey) : Bool := key.any fun k => isStale place k && k.isRequired
  let kept (key : Option PossibleKey) : Option PossibleKey := key.filter (!isStale place ·)
  if (lexer.possible :: lexer.levels).any isLost then none
  else some { lexer with possible := kept lexer.possible, levels := lexer.levels.map kept }

/-- A deeper column opens a block, whose token is put at a position. -/
def openBlock (column position : Nat) (token : Token) (lexer : Lexer) : Lexer :=
  if !lexer.inFlow && lexer.indent < column then
    { lexer with indent := column, outer := lexer.indent :: lexer.outer }.insertAt position token
  else lexer

/-- Blocks deeper than a column are closed. -/
def closeBlocks (column : Int) (lexer : Lexer) : Lexer :=
  let rec close (indent : Int) (tokens : List Token) : List Int → Int × List Int × List Token
    | [] => (indent, [], tokens)
    | outer :: rest =>
      if column < indent then close outer (.blockEnd :: tokens) rest
      else (indent, outer :: rest, tokens)
  if lexer.inFlow then lexer
  else
    let (indent, outer, tokens) := close lexer.indent lexer.tokens lexer.outer
    { lexer with indent := indent, outer := outer, tokens := tokens }

/-- A cursor moves on. -/
def moveTo (cursor : Cursor) (lexer : Lexer) : Lexer := { lexer with cursor := cursor }

/-- Some characters of a line are passed. -/
def pass (count : Nat) (lexer : Lexer) : Lexer := lexer.moveTo (lexer.cursor.skip count)

/-- Whether a key may start behind this point. -/
def allowKey (allows : Bool) (lexer : Lexer) : Lexer := { lexer with allowsKey := allows }

/--
The gap and the comments in front of a token are passed.

A new line allows a key outside of brackets, where a tab in front of one is not passed.
-/
def passGap : (steps : Nat) → Lexer → Lexer
  | 0, lexer => lexer
  | steps + 1, lexer =>
    let isPassed (c : Char) : Bool := c = ' ' || (c = '\t' && (lexer.inFlow || !lexer.allowsKey))
    let behind := ((lexer.cursor.span isPassed).2).skipComment
    if behind.text.head?.any isBreak then
      passGap steps ((lexer.moveTo behind.skipBreak).allowKey (lexer.allowsKey || !lexer.inFlow))
    else lexer.moveTo behind

/-- A byte order mark at the start of a text is passed like a blank. -/
def passMark (lexer : Lexer) : Lexer :=
  if lexer.cursor.place.index = 0 && lexer.cursor.text.head? = some '\uFEFF' then lexer.pass 1
  else lexer

/-- A marker closes all blocks. -/
def marker (token : Token) (lexer : Lexer) : Option Lexer :=
  (lexer.closeBlocks (-1)).dropKey.map fun lexer => ((lexer.allowKey false).pass 3).push token

/-- An opening bracket may start a key and opens a level. -/
def openFlow (token : Token) (lexer : Lexer) : Option Lexer :=
  lexer.saveKey.map fun lexer =>
    let inner := { lexer with levels := lexer.possible :: lexer.levels, possible := none }
    ((inner.allowKey true).pass 1).push token

/-- A closing bracket closes a level. -/
def closeFlow (token : Token) (lexer : Lexer) : Option Lexer :=
  lexer.dropKey.map fun lexer =>
    let lexer := match lexer.levels with
      | [] => lexer
      | key :: levels => { lexer with possible := key, levels := levels }
    ((lexer.allowKey false).pass 1).push token

/-- A comma separates the items between brackets. -/
def flowEntry (lexer : Lexer) : Option Lexer :=
  lexer.dropKey.map fun lexer => ((lexer.allowKey true).pass 1).push .flowEntry

/-- A block indicator needs a place where a key could start, and may open a block there. -/
def openAt (token : Token) (lexer : Lexer) : Option Lexer :=
  if lexer.inFlow then some lexer
  else if lexer.allowsKey then
    some (lexer.openBlock lexer.cursor.place.column lexer.tokens.length token)
  else none

/-- A dash starts an item of a block. -/
def blockEntry (lexer : Lexer) : Option Lexer :=
  (lexer.openAt .blockSequence).bind fun lexer =>
    lexer.dropKey.map fun lexer => ((lexer.allowKey true).pass 1).push .blockEntry

/-- A question mark starts a key. -/
def explicitKey (lexer : Lexer) : Option Lexer :=
  (lexer.openAt .blockMapping).bind fun lexer =>
    lexer.dropKey.map fun lexer => ((lexer.allowKey !lexer.inFlow).pass 1).push .key

/-- A colon turns a possible key into a key, or stands for the value of an explicit one. -/
def value (lexer : Lexer) : Option Lexer :=
  match lexer.possible with
  | some key =>
    let marked := lexer.insertAt key.position .key
    let keyed := marked.openBlock key.place.column key.position .blockMapping
    some ((({ keyed with possible := none }.allowKey false).pass 1).push .value)
  | none =>
    (lexer.openAt .blockMapping).map fun lexer =>
      ((lexer.allowKey !lexer.inFlow).pass 1).push .value

/-- The name of an anchor or an alias is followed by a gap or an indicator. -/
def name (token : String → Token) (lexer : Lexer) : Option Lexer :=
  lexer.saveKey.bind fun lexer =>
    let (letters, behind) := (lexer.cursor.skip 1).span isName
    if letters.isEmpty || !(endsWord behind.text || startsWith "?:,]\x7d%@`" behind.text) then none
    else some (((lexer.allowKey false).moveTo behind).push (token (String.ofList letters)))

/-- A scalar that may be a key. -/
def keyScalar (isPlain allows : Bool) (found : List Char) (behind : Cursor)
    (lexer : Lexer) : Lexer :=
  ((lexer.allowKey allows).moveTo behind).push (.scalar isPlain (String.ofList found))

/-- A quoted scalar. -/
def quoted (isSingle : Bool) (lexer : Lexer) : Option Lexer := do
  let lexer ← lexer.saveKey
  let start := lexer.cursor.skip 1
  let (found, behind) ← readQuoted isSingle (start.text.length + 1) start
  return lexer.keyScalar false false found behind

/-- A plain scalar; behind several lines a key may start again. -/
def plain (lexer : Lexer) : Option Lexer := do
  let lexer ← lexer.saveKey
  let (found, behind) ← readPlain lexer.inFlow (lexer.indent + 1).toNat
    (lexer.cursor.text.length + 1) [] false lexer.cursor
  return lexer.keyScalar true found.isFolded found.text behind

/-- A block scalar is never a key. -/
def block (isLiteral : Bool) (lexer : Lexer) : Option Lexer := do
  let lexer ← lexer.dropKey
  let (found, behind) ← readBlock isLiteral lexer.indent (lexer.cursor.skip 1)
  return lexer.keyScalar false true found behind

/-- The characters of a tag; brackets and commas only stand in a tag between angle brackets. -/
def isTagCharacter (isVerbatim : Bool) (c : Char) : Bool :=
  isName c || ";/?:@&=+$.!~*'()".toList.contains c || (isVerbatim && ",[]".toList.contains c)

/-- The byte spelled by a percent sign and two hexadecimal digits. -/
def escapedByte? : List Char → Option UInt8
  | '%' :: a :: b :: _ => do
    let high ← Json.hexValue? a
    let low ← Json.hexValue? b
    return .ofNat (high * 16 + low)
  | _ => none

/-- The number of bytes of a character that starts with a byte. -/
def bytesOf? (first : UInt8) : Option Nat :=
  if first < 0x80 then some 1
  else if 0xC0 ≤ first ∧ first < 0xE0 then some 2
  else if 0xE0 ≤ first ∧ first < 0xF0 then some 3
  else if 0xF0 ≤ first ∧ first < 0xF8 then some 4
  else none

/-- A character spelled by escaped bytes, and the number of characters that spell it. -/
def escapedCharacter? (text : List Char) : Option (List Char × Nat) := do
  let first ← escapedByte? text
  let count ← bytesOf? first
  let bytes ← (List.range count).mapM fun i => escapedByte? (text.drop (3 * i))
  match Content.ofBytes bytes with
  | .text s => some (s.toList, 3 * count)
  | .binary _ => none

/-- The characters of a tag, where escaped bytes spell further characters. -/
def tagCharacters (isVerbatim : Bool) : (steps : Nat) → Cursor → Option (List Char × Cursor)
  | 0, _ => none
  | steps + 1, cursor =>
    match cursor.text with
    | [] => some ([], cursor)
    | c :: _ =>
      if c = '%' then
        match escapedCharacter? cursor.text with
        | none => none
        | some (found, length) =>
          (tagCharacters isVerbatim steps (cursor.skip length)).map fun (rest, cursor) =>
            (found ++ rest, cursor)
      else if isTagCharacter isVerbatim c then
        (tagCharacters isVerbatim steps (cursor.skip 1)).map fun (rest, cursor) =>
          (c :: rest, cursor)
      else some ([], cursor)

/-- The handle in front of a tag is an exclamation mark, or a name between two of them. -/
def tagHandle (cursor : Cursor) : List Char × Cursor :=
  let (letters, behind) := (cursor.skip 1).span isName
  if behind.text.head? = some '!' then ('!' :: (letters ++ ['!']), behind.skip 1)
  else ('!' :: letters, behind)

/-- Whether a handle names a directive. -/
def isNamedHandle (handle : List Char) : Bool := 2 ≤ handle.length && handle.getLast? = some '!'

/-- A tag is verbatim between angle brackets, or a suffix behind a handle; its
handle comes first. -/
def readTag (cursor : Cursor) : Option ((List Char × List Char) × Cursor) :=
  if (cursor.text.drop 1).head? = some '<' then do
    let (suffix, behind) ← tagCharacters true (cursor.text.length + 1) (cursor.skip 2)
    if suffix.isEmpty || behind.text.head? ≠ some '>' then none
    else some (([], suffix), behind.skip 1)
  else
    let (handle, behind) := tagHandle cursor
    do
      let (found, behind) ← tagCharacters false (cursor.text.length + 1) behind
      if isNamedHandle handle then
        if found.isEmpty then none else some ((handle, found), behind)
      else
        -- Letters behind a lone exclamation mark are part of the suffix.
        let suffix := handle.drop 1 ++ found
        if suffix.isEmpty then some (([], ['!']), behind) else some ((['!'], suffix), behind)

/-- A tag is followed by a gap, or between brackets by a comma. -/
def tagged (lexer : Lexer) : Option Lexer := do
  let lexer ← lexer.saveKey
  let ((handle, suffix), behind) ← readTag lexer.cursor
  if endsWord behind.text || (lexer.inFlow && behind.text.head? = some ',') then
    some (((lexer.allowKey false).moveTo behind).push
      (.tag (String.ofList handle) (String.ofList suffix)))
  else none

/-- A version number has one to nine digits. -/
def versionNumber (cursor : Cursor) : Option (Nat × Cursor) :=
  let (digits, behind) := cursor.span Char.isDigit
  if digits.isEmpty || 9 < digits.length then none
  else some (Decimal.natOfDigits digits, behind)

/-- Blanks are passed. -/
def passBlanks (cursor : Cursor) : Cursor := (cursor.span isBlank).2

/-- A version is two numbers joined by a point. -/
def versionDirective (cursor : Cursor) : Option (Token × Cursor) := do
  let (major, behind) ← versionNumber (passBlanks cursor)
  if behind.text.head? ≠ some '.' then none
  else
    let (minor, behind) ← versionNumber (behind.skip 1)
    return (.version major minor, behind)

/-- A tag directive gives a handle the start of the tags it stands for. -/
def tagDirective (cursor : Cursor) : Option (Token × Cursor) :=
  let start := passBlanks cursor
  if start.text.head? ≠ some '!' then none
  else
    let (handle, behind) := tagHandle start
    if handle ≠ ['!'] && !isNamedHandle handle || !behind.text.head?.any isBlank then none
    else do
      let (found, behind) ← tagCharacters true (behind.text.length + 1) (passBlanks behind)
      if found.isEmpty || !endsWord behind.text then none
      else some (.tagDirective (String.ofList handle) (String.ofList found), behind)

/-- A directive stands on a line of its own in front of a document. -/
def directive (lexer : Lexer) : Option Lexer := do
  let lexer ← (lexer.closeBlocks (-1)).dropKey
  let (letters, behind) := (lexer.cursor.skip 1).span isName
  if !endsWord behind.text then none
  else
    let (token, behind) ←
      if letters = "YAML".toList then versionDirective behind
      else if letters = "TAG".toList then tagDirective behind
      else none
    let behind := (passBlanks behind).skipComment
    if !endsLine behind.text then none
    else some (((lexer.allowKey false).moveTo behind.skipBreak).push token)

/-- These characters cannot start a plain scalar, unless they go on with a word. -/
def isReserved (c : Char) : Bool := "-?:,[]\x7b\x7d#&*!|>'\"%@`".toList.contains c

/-- A plain scalar starts with a character that is no indicator there. -/
def startsPlain (inFlow : Bool) (c : Char) (rest : List Char) : Bool :=
  (!isReserved c && !isGap c) || (c = '-' && !rest.head?.any isBlank) ||
    (!inFlow && (c = '?' || c = ':') && !endsWord rest)

/-- The token ahead is told by its first characters. -/
def token (lexer : Lexer) : Option Lexer :=
  match lexer.cursor.text with
  | [] => some lexer
  | c :: rest =>
    let inFlow := lexer.inFlow
    if lexer.cursor.place.column = 0 && c = '%' then lexer.directive
    else if lexer.cursor.isAtMarker then
      lexer.marker (if c = '-' then .documentStart else .documentEnd)
    else if c = '[' then lexer.openFlow .flowSequence
    else if c = '\x7b' then lexer.openFlow .flowMapping
    else if c = ']' then lexer.closeFlow .flowSequenceEnd
    else if c = '\x7d' then lexer.closeFlow .flowMappingEnd
    else if c = ',' then lexer.flowEntry
    else if c = '-' && endsWord rest then lexer.blockEntry
    else if c = '?' && (inFlow || endsWord rest) then lexer.explicitKey
    else if c = ':' && (inFlow || endsWord rest) then lexer.value
    else if c = '*' then lexer.name .alias
    else if c = '&' then lexer.name .anchor
    else if c = '!' then lexer.tagged
    else if c = '|' && !inFlow then lexer.block true
    else if c = '>' && !inFlow then lexer.block false
    else if c = '\'' then lexer.quoted true
    else if c = '"' then lexer.quoted false
    else if startsPlain inFlow c rest then lexer.plain
    else none

/-- The gap in front of the next token is passed, which may close blocks and lose keys. -/
def approach (lexer : Lexer) : Option Lexer :=
  (lexer.passMark.passGap (lexer.cursor.text.length + 1)).dropStale.map fun lexer =>
    lexer.closeBlocks lexer.cursor.place.column

/-- At the end of the text all blocks are closed. -/
def finish (lexer : Lexer) : Option (List Token) :=
  (lexer.closeBlocks (-1)).dropKey.map fun lexer => lexer.tokens.reverse

/-- Tokens are read up to the end of the text. -/
def run : (steps : Nat) → Lexer → Option (List Token)
  | 0, _ => none
  | steps + 1, lexer =>
    match lexer.approach with
    | none => none
    | some lexer => if lexer.cursor.text.isEmpty then lexer.finish else lexer.token.bind (run steps)

end Lexer

/-- The tokens of a text of allowed characters. -/
def Token.ofText? (text : List Char) : Option (List Token) :=
  if text.all isAllowed then (Lexer.start text).run (text.length + 1) else none

end SyncStore.Yaml
