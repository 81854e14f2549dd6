import SyncStore.Json.Reader
import SyncStore.Yaml.Place

/-! Plain and quoted scalars are runs of words with folded gaps between them. -/

namespace SyncStore.Yaml

/-- A run of a plain scalar ends at a gap, at a colon in front of one, and at brackets in flow. -/
def plainRun (inFlow : Bool) : List Char → Option (List Char)
  | [] => some []
  | c :: rest =>
    if isGap c then some []
    else if inFlow && c = ':' && startsWith ",?[]\x7b\x7d" rest then none
    else if c = ':' && endsWord rest then some []
    else if inFlow && ",[]\x7b\x7d".toList.contains c then some []
    else (plainRun inFlow rest).map (c :: ·)

/-- The text of a plain scalar, and whether the gap behind it spans lines. -/
structure PlainText where
  text : List Char
  isFolded : Bool

/--
A plain scalar goes on behind a gap unless it is cut there.

It is cut by a comment, by a marker, and outside of flow by a line that is not indented to `indent`.
-/
def readPlain (inFlow : Bool) (indent : Nat) : (steps : Nat) → (joint : List Char) →
    (isFolded : Bool) → Cursor → Option (PlainText × Cursor)
  | 0, _, _, _ => none
  | steps + 1, joint, isFolded, cursor =>
    if cursor.isAtMarker || cursor.text.head? = some '#' then some (⟨[], isFolded⟩, cursor)
    else
      match plainRun inFlow cursor.text with
      | none => none
      | some [] => some (⟨[], isFolded⟩, cursor)
      | some run =>
        let behind := cursor.skip run.length
        match readGap indent false behind.text behind.place with
        | none => none
        | some gap =>
          let folded := !gap.breaks.isEmpty
          if (gap.blanks.isEmpty && !folded) ||
              (folded && !inFlow && gap.cursor.place.column < indent) then
            some (⟨joint ++ run, folded⟩, gap.cursor)
          else
            (readPlain inFlow indent steps gap.joined folded gap.cursor).map
              fun (found, cursor) => (⟨joint ++ run ++ found.text, found.isFolded⟩, cursor)

/-- The character behind a backslash, and the number of characters that spell it. -/
def shortEscaped? : Char → Option Char
  | '0' => some '\x00'
  | 'a' => some '\x07'
  | 'b' => some '\x08'
  | 't' => some '\t'
  | '\t' => some '\t'
  | 'n' => some '\n'
  | 'v' => some '\x0b'
  | 'f' => some '\x0c'
  | 'r' => some '\r'
  | 'e' => some '\x1b'
  | ' ' => some ' '
  | '"' => some '"'
  | '/' => some '/'
  | '\\' => some '\\'
  | 'N' => some '\x85'
  | '_' => some '\xa0'
  | 'L' => some '\u2028'
  | 'P' => some '\u2029'
  | _ => none

/-- The number of hexadecimal digits behind a letter. -/
def codeLength? : Char → Option Nat
  | 'x' => some 2
  | 'u' => some 4
  | 'U' => some 8
  | _ => none

/-- A code point of a fixed number of hexadecimal digits must be a character. -/
def codePoint? (count : Nat) (text : List Char) : Option Char :=
  let digits := (text.take count).filterMap Json.hexValue?
  let code := digits.foldl (fun code digit => code * 16 + digit) 0
  if digits.length = count && (code < 0xD800 || (0xE000 ≤ code && code < 0x110000))
  then some (Char.ofNat code)
  else none

/-- The character that an escape stands for, and the number of characters behind the backslash. -/
def escaped? : List Char → Option (Char × Nat)
  | [] => none
  | c :: rest =>
    match shortEscaped? c, codeLength? c with
    | some found, _ => some (found, 1)
    | none, some count => (codePoint? count rest).map fun found => (found, count + 1)
    | none, none => none

/-- How a run of a quoted scalar ends. -/
inductive RunEnd where
  | gap
  | quote
  | joined
  deriving DecidableEq

/-- A run of a quoted scalar: its characters, its end, and the number of
characters that spell it. -/
structure Run where
  characters : List Char
  stop : RunEnd
  length : Nat

/-- A run that starts with a character spelled by some characters. -/
def Run.push (run : Run) (c : Char) (length : Nat) : Run :=
  { run with characters := c :: run.characters, length := run.length + length }

/-- Between single quotes only a doubled quote is special. -/
def singleRun : List Char → Run
  | [] => ⟨[], .gap, 0⟩
  | '\'' :: '\'' :: rest => (singleRun rest).push '\'' 2
  | '\'' :: _ => ⟨[], .quote, 0⟩
  | c :: rest => if isGap c then ⟨[], .gap, 0⟩ else (singleRun rest).push c 1

/-- Between double quotes a backslash starts an escape, or joins a line to the next one. -/
def doubleRun (text : List Char) : Option Run :=
  match text with
  | [] => some ⟨[], .gap, 0⟩
  | '"' :: _ => some ⟨[], .quote, 0⟩
  | '\\' :: rest =>
    if rest.head?.any isBreak then some ⟨[], .joined, 1⟩
    else
      match escaped? rest with
      | none => none
      | some (c, length) =>
        (doubleRun (rest.drop length)).map fun run => run.push c (length + 1)
  | c :: rest =>
    if isGap c then some ⟨[], .gap, 0⟩ else (doubleRun rest).map fun run => run.push c 1
termination_by text.length

/-- A run between either kind of quotes. -/
def quotedRun (isSingle : Bool) (text : List Char) : Option Run :=
  if isSingle then some (singleRun text) else doubleRun text

/-- A quoted scalar goes on to its closing quote, and no marker interrupts it. -/
def readQuoted (isSingle : Bool) : (steps : Nat) → Cursor → Option (List Char × Cursor)
  | 0, _ => none
  | steps + 1, cursor =>
    if cursor.isAtMarker || cursor.text.isEmpty then none
    else
      match quotedRun isSingle cursor.text with
      | none => none
      | some run =>
        let ahead := cursor.skip run.length
        let behind := if run.stop = .joined then ahead.skipBreak else ahead
        if behind.text.head? = some (if isSingle then '\'' else '"') then
          some (run.characters, behind.skip 1)
        else
          match readGap 0 (run.stop = .joined) behind.text behind.place with
          | none => none
          | some gap =>
            -- A joined line adds no space, but the empty lines behind it stay.
            let joint := if run.stop = .joined then gap.breaks else gap.joined
            (readQuoted isSingle steps gap.cursor).map fun (found, cursor) =>
              (run.characters ++ joint ++ found, cursor)

end SyncStore.Yaml
