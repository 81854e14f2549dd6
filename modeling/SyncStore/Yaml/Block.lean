import SyncStore.Yaml.Word

/-! Block scalars are indented lines, kept as they are or folded, under a header. -/

namespace SyncStore.Yaml

/-- What becomes of the line breaks at the end of a block. -/
inductive Chomping where
  | strip
  | clip
  | keep
  deriving DecidableEq

/-- The header of a block; without an increment the indentation is that of the first line. -/
structure BlockHeader where
  isLiteral : Bool
  chomping : Chomping
  increment : Option Nat

/-- A sign in a header tells the chomping. -/
def chomping? : Char → Option Chomping
  | '+' => some .keep
  | '-' => some .strip
  | _ => none

/-- A digit in a header tells the increment, and zero is none. -/
def increment? (c : Char) : Option Nat :=
  if c.isDigit && c ≠ '0' then some (Decimal.digitValue c) else none

/-- A header has at most one sign and one digit, in either order; the count
tells how many it has. -/
def readHeader (isLiteral : Bool) (text : List Char) : Option (BlockHeader × Nat) :=
  let first := text.head?
  let second := (text.drop 1).head?
  match first.bind chomping?, first.any Char.isDigit with
  | some chomping, _ =>
    if second.any Char.isDigit then
      (second.bind increment?).map fun n => (⟨isLiteral, chomping, some n⟩, 2)
    else some (⟨isLiteral, chomping, none⟩, 1)
  | none, true =>
    (first.bind increment?).map fun n =>
      match second.bind chomping? with
      | some chomping => (⟨isLiteral, chomping, some n⟩, 2)
      | none => (⟨isLiteral, .clip, some n⟩, 1)
  | none, false => some (⟨isLiteral, .clip, none⟩, 0)

/-- The empty lines in front of a line of text, and the widest indentation among all these lines. -/
structure EmptyLines where
  breaks : List Char
  widest : Nat
  cursor : Cursor

/--
Empty lines are skipped up to a line with text.

Spaces are skipped up to the indentation, or all of them while it is not known, and a tab among
them is refused.
-/
def readEmptyLines (indent : Option Nat) : (widest : Nat) → List Char → Place → Option EmptyLines
  | widest, [], place => some ⟨[], widest, ⟨[], place⟩⟩
  | widest, '\r' :: '\n' :: rest, place =>
    (readEmptyLines indent widest rest (place.down 2)).map fun found =>
      { found with breaks := '\n' :: found.breaks }
  | widest, c :: rest, place =>
    let isIndentation := indent.all (place.column < ·)
    if c = ' ' && isIndentation then
      readEmptyLines indent (max widest (place.column + 1)) rest (place.along 1)
    else if c = '\t' && isIndentation then none
    else if isBreak c then
      (readEmptyLines indent widest rest (place.down 1)).map fun found =>
        { found with breaks := keptBreak c :: found.breaks }
    else some ⟨[], widest, ⟨c :: rest, place⟩⟩

/-- The break at the end of a line, if there is one. -/
def breakAhead (cursor : Cursor) : List Char :=
  match cursor.text.head? with
  | some c => if isBreak c then [keptBreak c] else []
  | none => []

/-- The state between two lines of a block: the break before it, the empty
lines, and a leading blank. -/
structure BlockJoint where
  lineBreak : List Char
  emptyBreaks : List Char
  afterBlank : Bool

/-- Two folded lines are joined by a space, unless one of them starts with a blank. -/
def BlockJoint.text (joint : BlockJoint) (isLiteral startsBlank : Bool) : List Char :=
  if !isLiteral && joint.lineBreak = ['\n'] && !joint.afterBlank && !startsBlank then
    if joint.emptyBreaks.isEmpty then [' '] else joint.emptyBreaks
  else joint.lineBreak ++ joint.emptyBreaks

/-- The line breaks at the end of a block. -/
def BlockJoint.ending (joint : BlockJoint) : Chomping → List Char
  | .strip => []
  | .clip => joint.lineBreak
  | .keep => joint.lineBreak ++ joint.emptyBreaks

/-- The lines of a block all start at its indentation. -/
def readBlockLines (header : BlockHeader) (indent : Nat) : (steps : Nat) → BlockJoint → Cursor →
    Option (List Char × Cursor)
  | 0, _, _ => none
  | steps + 1, joint, cursor =>
    if cursor.place.column ≠ indent || cursor.text.isEmpty then
      some (joint.ending header.chomping, cursor)
    else
      let startsBlank := cursor.text.head?.any isBlank
      let (line, behind) := cursor.span (!isBreak ·)
      let next := behind.skipBreak
      match readEmptyLines (some indent) 0 next.text next.place with
      | none => none
      | some empties =>
        (readBlockLines header indent steps ⟨breakAhead behind, empties.breaks, startsBlank⟩
          empties.cursor).map fun (found, cursor) =>
            (joint.text header.isLiteral startsBlank ++ line ++ found, cursor)

/--
A block scalar is read from behind its indicator, inside a block of some indentation.

The indentation of the text is deeper than that of the block around it.
-/
def readBlock (isLiteral : Bool) (outer : Int) (cursor : Cursor) : Option (List Char × Cursor) := do
  let (header, length) ← readHeader isLiteral cursor.text
  let behind := (((cursor.skip length).span isBlank).2).skipComment
  if !endsLine behind.text then none
  else
    let next := behind.skipBreak
    let known := header.increment.map fun n => (max outer 0).toNat + n
    let empties ← readEmptyLines known 0 next.text next.place
    let indent := known.getD (max empties.widest (max (outer + 1).toNat 1))
    readBlockLines header indent (next.text.length + 1) ⟨[], empties.breaks, false⟩ empties.cursor

end SyncStore.Yaml
