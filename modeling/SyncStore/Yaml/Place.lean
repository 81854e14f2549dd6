import SyncStore.Yaml.Character

/-! A place in a text counts characters and lines, and a gap between words is folded. -/

namespace SyncStore.Yaml

/-- A place counts the characters before it, the lines before it, and the characters of its line. -/
structure Place where
  index : Nat
  line : Nat
  column : Nat

namespace Place

/-- The start of a text. -/
def start : Place := ⟨0, 0, 0⟩

/-- The place behind some characters of a line. -/
def along (place : Place) (count : Nat) : Place :=
  { place with index := place.index + count, column := place.column + count }

/-- The place behind a line break of some characters. -/
def down (place : Place) (count : Nat) : Place := ⟨place.index + count, place.line + 1, 0⟩

end Place

/-- The rest of a text and its place. -/
structure Cursor where
  text : List Char
  place : Place

namespace Cursor

/-- The cursor behind some characters of a line. -/
def skip (cursor : Cursor) (count : Nat) : Cursor :=
  ⟨cursor.text.drop count, cursor.place.along count⟩

/-- The characters of a line that satisfy a condition, and the cursor behind them. -/
def span (cursor : Cursor) (holds : Char → Bool) : List Char × Cursor :=
  let taken := cursor.text.takeWhile holds
  (taken, cursor.skip taken.length)

/-- The cursor behind a line break, if one is ahead. -/
def skipBreak (cursor : Cursor) : Cursor :=
  match cursor.text with
  | '\r' :: '\n' :: rest => ⟨rest, cursor.place.down 2⟩
  | c :: rest => if isBreak c then ⟨rest, cursor.place.down 1⟩ else cursor
  | [] => cursor

/-- A comment runs to the end of its line. -/
def skipComment (cursor : Cursor) : Cursor :=
  if cursor.text.head? = some '#' then (cursor.span (!isBreak ·)).2 else cursor

/-- A marker of three characters at the start of a line, with a gap behind it, ends a document. -/
def isAtMarker (cursor : Cursor) : Bool :=
  cursor.place.column = 0 &&
    ("---".toList.isPrefixOf cursor.text || "...".toList.isPrefixOf cursor.text) &&
    endsWord (cursor.text.drop 3)

end Cursor

/-- Line breaks are kept as line feeds, except for the separators of lines and of paragraphs. -/
def keptBreak (c : Char) : Char := if c = '\u2028' || c = '\u2029' then c else '\n'

/-- A gap is blanks on one line, or the line breaks it spans. -/
structure Gap where
  blanks : List Char
  breaks : List Char
  cursor : Cursor

/--
A gap runs up to the next word.

A tab left of the column `tabs` is refused on every line of the gap but the first.
-/
def readGap (tabs : Nat) : (folding : Bool) → List Char → Place → Option Gap
  | _, [], place => some ⟨[], [], ⟨[], place⟩⟩
  | _, '\r' :: '\n' :: rest, place =>
    (readGap tabs true rest (place.down 2)).map fun gap => { gap with breaks := '\n' :: gap.breaks }
  | folding, c :: rest, place =>
    if isBreak c then
      (readGap tabs true rest (place.down 1)).map fun gap =>
        { gap with breaks := keptBreak c :: gap.breaks }
    else if isBlank c then
      if folding && c = '\t' && place.column < tabs then none
      else (readGap tabs folding rest (place.along 1)).map fun gap =>
        if folding then gap else { gap with blanks := c :: gap.blanks }
    else some ⟨[], [], ⟨c :: rest, place⟩⟩

/-- A single line break becomes a space, and of several the first is dropped. -/
def foldedBreaks : List Char → List Char
  | ['\n'] => [' ']
  | '\n' :: rest => rest
  | breaks => breaks

/-- Blanks stay as they are unless a line break follows them. -/
def Gap.joined (gap : Gap) : List Char :=
  if gap.breaks.isEmpty then gap.blanks else foldedBreaks gap.breaks

end SyncStore.Yaml
