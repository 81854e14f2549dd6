import SyncStore.Decimal.Binary64
import SyncStore.OrderedMap

/-! Values are the data that a store keeps under its keys. -/

namespace SyncStore

/-- An integer of a value fits a signed or an unsigned 64-bit word. -/
structure WordInt where
  val : Int
  lower : -2 ^ 63 ≤ val
  upper : val < 2 ^ 64
  deriving DecidableEq

namespace WordInt

/-- An integer outside both word ranges has no word. -/
def ofInt? (n : Int) : Option WordInt :=
  if inside : -2 ^ 63 ≤ n ∧ n < 2 ^ 64 then some ⟨n, inside.1, inside.2⟩ else none

/-- An integer fits a signed word when it lies below two to the sixty-third. -/
def isSigned (n : WordInt) : Bool := n.val < 2 ^ 63

/-- The decimal digits of an integer under its sign. -/
def render (n : WordInt) : List Char :=
  (if n.val < 0 then ['-'] else []) ++ Nat.toDigits 10 n.val.natAbs

end WordInt

/-- A number is an integer or a finite binary64 number, and the two never coincide. -/
inductive Number where
  | int (n : WordInt)
  | float (x : Binary64)
  deriving DecidableEq

/-- A value is a scalar, an array of values, or an object of keyed members. -/
inductive Value where
  | null
  | bool (b : Bool)
  | number (n : Number)
  | string (s : String)
  | array (items : List Value)
  | object (members : List (String × Value))
  deriving Inhabited

/-- The data of a store maps its keys to values in the order of their first appearance. -/
abbrev Data := OrderedMap Value

namespace Value

/-- Only the null value is null. -/
def isNull : Value → Bool
  | .null => true
  | _ => false

/-- Only objects have members. -/
def isObject : Value → Bool
  | .object _ => true
  | _ => false

end Value

end SyncStore
