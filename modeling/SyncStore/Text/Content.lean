import SyncStore.Text.HiddenTable

/-! The content of a file, a variable or a remote key is text, or bytes that are no text. -/

namespace SyncStore

/-- Content is text whenever its bytes are an encoding of text. -/
inductive Content where
  | text (s : String)
  | binary (bytes : List UInt8)
  deriving DecidableEq

namespace Content

/-- Bytes are text exactly when they are valid. -/
def ofBytes (bytes : List UInt8) : Content :=
  match String.fromUTF8? ⟨bytes.toArray⟩ with
  | some s => .text s
  | none => .binary bytes

/-- Only text has a text. -/
def text? : Content → Option String
  | .text s => some s
  | .binary _ => none

end Content

/-- The value of the low six bits of a continuation byte. -/
def continuation? (byte : UInt8) : Option Nat :=
  if 0x80 ≤ byte ∧ byte < 0xC0 then some (byte.toNat % 0x40) else none

/-- A code point is a character when it is spelled with no more bytes than it
needs and is no surrogate. -/
def characterFrom? (lowest code : Nat) : Option Char :=
  if lowest ≤ code ∧ (code < 0xD800 ∨ 0xE000 ≤ code) ∧ code < 0x110000 then some (Char.ofNat code)
  else none

/-- The first character of some bytes, if they begin with one, and the number of its bytes. -/
def firstCharacter? : List UInt8 → Option (Char × Nat)
  | [] => none
  | a :: rest =>
    if a < 0x80 then some (Char.ofNat a.toNat, 1)
    else if 0xC0 ≤ a ∧ a < 0xE0 then do
      let b ← rest[0]? >>= continuation?
      let c ← characterFrom? 0x80 (a.toNat % 0x20 * 0x40 + b)
      return (c, 2)
    else if 0xE0 ≤ a ∧ a < 0xF0 then do
      let b ← rest[0]? >>= continuation?
      let c ← rest[1]? >>= continuation?
      let d ← characterFrom? 0x800 ((a.toNat % 0x10 * 0x40 + b) * 0x40 + c)
      return (d, 3)
    else if 0xF0 ≤ a ∧ a < 0xF8 then do
      let b ← rest[0]? >>= continuation?
      let c ← rest[1]? >>= continuation?
      let d ← rest[2]? >>= continuation?
      let e ← characterFrom? 0x10000 (((a.toNat % 8 * 0x40 + b) * 0x40 + c) * 0x40 + d)
      return (e, 4)
    else none

/-- Hexadecimal digits of a number, in lower case. -/
def hexDigits (n : Nat) : List Char := Nat.toDigits 16 n

/-- A character of a quoted display is spelled out when it has no shape or a meaning of its own. -/
def displayCharacter (c : Char) : List Char :=
  match c with
  | '\x00' => ['\\', '0']
  | '\t' => ['\\', 't']
  | '\r' => ['\\', 'r']
  | '\n' => ['\\', 'n']
  | '\\' => ['\\', '\\']
  | '"' => ['\\', '"']
  | c => if isHidden c then '\\' :: 'u' :: '{' :: (hexDigits c.toNat ++ ['}']) else [c]

/-- A byte of a quoted display that belongs to no character is spelled with two digits. -/
def displayByte (byte : UInt8) : List Char :=
  '\\' :: 'x' :: (Nat.digitChar (byte.toNat / 16)).toUpper ::
    [(Nat.digitChar (byte.toNat % 16)).toUpper]

/-- The characters among some bytes are displayed as such, and the bytes between them one by one. -/
def displayBytes (bytes : List UInt8) : List Char :=
  match bytes with
  | [] => []
  | byte :: rest =>
    match firstCharacter? (byte :: rest) with
    | some (c, count) => displayCharacter c ++ displayBytes (rest.drop (count - 1))
    | none => displayByte byte ++ displayBytes rest
termination_by bytes.length

/-- A quoted display stands between quotes. -/
def displayQuoted (bytes : List UInt8) : String :=
  String.ofList ('"' :: (displayBytes bytes ++ ['"']))

end SyncStore
