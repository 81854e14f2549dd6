/-! YAML sorts characters into blanks, line breaks, word characters and characters it can print. -/

namespace SyncStore.Yaml

/-- A blank is a space or a tab. -/
def isBlank (c : Char) : Bool := c = ' ' || c = '\t'

/-- A line ends in one of five characters. -/
def isBreak (c : Char) : Bool :=
  c = '\n' || c = '\r' || c = '\x85' || c = '\u2028' || c = '\u2029'

/-- A gap between words is made of blanks and line breaks. -/
def isGap (c : Char) : Bool := isBlank c || isBreak c

/-- A text that is empty or goes on with a gap stands at the end of a word. -/
def endsWord : List Char → Bool
  | [] => true
  | c :: _ => isGap c

/-- A text that is empty or goes on with a line break stands at the end of a line. -/
def endsLine : List Char → Bool
  | [] => true
  | c :: _ => isBreak c

/-- Names are made of letters, digits, dashes and underscores. -/
def isName (c : Char) : Bool := c.isAlphanum || c = '-' || c = '_'

/-- A text may only hold tabs, line breaks and characters that are neither
controls nor unassigned. -/
def isAllowed (c : Char) : Bool :=
  let code := c.toNat
  c = '\t' || c = '\n' || c = '\r' || (0x20 ≤ code && code ≤ 0x7E) || code = 0x85 ||
    (0xA0 ≤ code && code ≤ 0xFFFD) || 0x10000 ≤ code

/-- A character is printed as it is unless it is a control, a byte order mark or unassigned. -/
def isPrintable (c : Char) : Bool :=
  let code := c.toNat
  c = '\n' || (0x20 ≤ code && code ≤ 0x7E) || (0xA0 ≤ code && code ≤ 0xFFFD && code ≠ 0xFEFF) ||
    0x10000 ≤ code

/-- Whether a text starts with one of some characters. -/
def startsWith (characters : String) : List Char → Bool
  | [] => false
  | c :: _ => characters.toList.contains c

end SyncStore.Yaml
