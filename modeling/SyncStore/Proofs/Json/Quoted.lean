import SyncStore.Json.Printer
import SyncStore.Json.Reader

/-! Quoted strings read back character by character, whatever they are made of. -/

namespace SyncStore.Json

/-- The digits of a control character read back as its code. -/
theorem hexUnit_controlDigits {c : Char} (control : c.toNat < 0x20) (rest : List Char) :
    hexUnit? (controlDigits c ++ rest) = some c.toNat := by
  have digits : ∀ n < 16, hexValue? (Nat.digitChar n) = some n := by decide
  -- Both digits of a code below 32 are below sixteen.
  have upper := digits (c.toNat / 16) (by omega)
  have lower := digits (c.toNat % 16) (by omega)
  have zero : hexValue? '0' = some 0 := rfl
  simp only [controlDigits, List.cons_append, List.nil_append, hexUnit?, zero, upper, lower,
    Option.bind_eq_bind, Option.bind_some, Option.pure_def, Option.some.injEq]
  omega

/-- The code of a control character reads back as that character. -/
theorem readEscape_control {c : Char} (control : c.toNat < 0x20) (rest : List Char) :
    readEscape ('u' :: (controlDigits c ++ rest)) = .ok (c, 5) := by
  -- The code is no half of a pair, so it stands for a character of its own.
  have plain : ¬(0xDC00 ≤ c.toNat ∧ c.toNat ≤ 0xDFFF) := by omega
  have single : c.toNat < 0xD800 ∨ 0xDBFF < c.toNat := Or.inl (by omega)
  simp only [readEscape, readCodePoint, readUnit, hexUnit_controlDigits control rest,
    Bind.bind, Except.bind, plain, single, ↓reduceIte, Except.map, Char.ofNat_toNat]

/-- A visible character other than a quote and a backslash stands for itself. -/
theorem readCharacters_visible {c : Char} (noQuote : c ≠ '"') (noBackslash : c ≠ '\\')
    (visible : ¬c.toNat < 0x20) (rest : List Char) :
    readCharacters (c :: rest) =
      (readCharacters rest).map fun (characters, rest) => (c :: characters, rest) := by
  rw [readCharacters.eq_def]
  split
  · -- The text is not empty, and its first character opens neither an end nor an escape.
    rename_i same
    simp at same
  · rename_i same
    exact absurd (List.cons.inj same).1 noQuote
  · rename_i same
    exact absurd (List.cons.inj same).1 noBackslash
  · rename_i same
    obtain ⟨rfl, rfl⟩ := List.cons.inj same
    exact if_neg visible

/-- An escaped character reads back in front of anything. -/
theorem readCharacters_escape (c : Char) (rest : List Char) :
    readCharacters (escape c ++ rest) =
      (readCharacters rest).map fun (characters, rest) => (c :: characters, rest) := by
  unfold escape
  -- Each short escape names its character, and the other control characters are spelled by code.
  split
  all_goals try (rw [List.cons_append, List.cons_append, readCharacters]; rfl)
  rename_i noQuote noBackslash _ _ _ _ _
  split
  · -- The code of a control character is read back as that character.
    rename_i control
    rw [List.cons_append, List.cons_append, readCharacters]
    simp only [readEscape_control control rest]
    rfl
  · -- Any other character is written as it is.
    rename_i visible
    rw [List.cons_append, List.nil_append, readCharacters_visible noQuote noBackslash visible]

/-- The characters of a string read back up to its closing quote. -/
theorem readCharacters_flatMap (characters rest : List Char) :
    readCharacters (characters.flatMap escape ++ '"' :: rest) = .ok (characters, rest) := by
  -- Each escaped character is read back before the next one.
  induction characters with
  | nil => rw [List.flatMap_nil, List.nil_append, readCharacters]
  | cons c characters ih =>
    rw [List.flatMap_cons, List.append_assoc, readCharacters_escape, ih]
    rfl

/-- A quoted string reads back from behind its opening quote. -/
theorem readString_quote (s : String) (rest : List Char) :
    readString (s.toList.flatMap escape ++ '"' :: rest) = .ok (s, rest) := by
  rw [readString, readCharacters_flatMap]
  simp [Except.map]

end SyncStore.Json
