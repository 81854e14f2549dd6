import SyncStore.Value

/-! A TOML document is a table of values, of further tables, and of lists of tables. -/

namespace SyncStore.Toml

/-- An integer of a document fits a signed 64-bit word. -/
@[ext]
structure SignedInt where
  val : Int
  lower : -2 ^ 63 ≤ val
  upper : val < 2 ^ 63

namespace SignedInt

/-- Signed words are the same when their integers are. -/
instance : DecidableEq SignedInt := fun _ _ => decidable_of_iff _ SignedInt.ext_iff.symm

/-- An integer outside the signed words has no place in a document. -/
def ofInt? (n : Int) : Option SignedInt :=
  if inside : -2 ^ 63 ≤ n ∧ n < 2 ^ 63 then some ⟨n, inside.1, inside.2⟩ else none

/-- Every signed word is among the words of a value. -/
def toWord (n : SignedInt) : WordInt := ⟨n.val, n.lower, by have := n.upper; omega⟩

end SignedInt

/-- A value is written on the line of its key; tables among values are written inline. -/
inductive Inline where
  | string (s : String)
  | integer (n : SignedInt)
  | float (x : Real64)
  | boolean (b : Bool)
  | datetime (text : String)
  | array (items : List Inline)
  | table (entries : List (String × Inline))

/-- An item of a table is a value, or a section of its own, or a list of such sections. -/
inductive Item where
  | value (v : Inline)
  | table (entries : List (String × Item))
  | tables (elements : List (List (String × Item)))

/-- A document is its root table. -/
abbrev Document := List (String × Item)

end SyncStore.Toml
