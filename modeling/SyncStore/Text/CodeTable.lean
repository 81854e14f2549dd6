import SyncStore.Decimal.Reading

/-! Tables of code points are written as lines of decimal numbers. -/

namespace SyncStore.CodeTable

/-- The numbers of one line are separated by single spaces. -/
def numbersOf (line : String) : List Nat :=
  (line.toList.splitOn ' ').map Decimal.natOfDigits

/-- The numbers of a table follow one another through its lines. -/
def numbers (lines : List String) : List Nat := lines.flatMap numbersOf

/-- Numbers taken two by two. -/
def twoByTwo : List Nat → List (Nat × Nat)
  | a :: b :: rest => (a, b) :: twoByTwo rest
  | _ => []

/-- Numbers taken four by four. -/
def fourByFour : List Nat → List (Nat × Nat × Nat × Nat)
  | a :: b :: c :: d :: rest => (a, b, c, d) :: fourByFour rest
  | _ => []

/-- A table of pairs. -/
def pairs (lines : List String) : List (Nat × Nat) := twoByTwo (numbers lines)

/-- A table of quadruples. -/
def quadruples (lines : List String) : List (Nat × Nat × Nat × Nat) := fourByFour (numbers lines)

/-- A code point lies within a table of bounds when some pair encloses it. -/
def within (bounds : List (Nat × Nat)) (code : Nat) : Bool :=
  bounds.any fun bound => bound.1 ≤ code && code ≤ bound.2

end SyncStore.CodeTable
