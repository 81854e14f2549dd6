import SyncStore.Decimal.Layout
import SyncStore.Json.Printer

/-! A store fails because of what its destination cannot do, reach, read or represent. -/

namespace SyncStore

/-- What is wrong with the data or with the text that should hold it. -/
inductive Defect where
  | nullInArray
  | integerOutOfRange (n : WordInt)
  | malformedText
  | nonFiniteFloat (x : Real64)
  | rootNotMapping (found : Value)
  | zeroBatchSize
  | described (text : String)

/-- The words for a defect. -/
def Defect.message : Defect → String
  | .nullInArray => "TOML cannot represent null inside an array"
  | .integerOutOfRange n => s!"integer {String.ofList n.render} is out of range for TOML"
  | .malformedText => "the text is malformed"
  | .nonFiniteFloat x => s!"non-finite float {String.ofList (FloatLayout.plain.renderReal x)}"
  | .rootNotMapping found =>
    s!"expected a mapping at the document root, found {found.compactText}"
  | .zeroBatchSize => "batch size must be greater than zero"
  | .described text => text

/-- Why an operation on a store failed; a missing key is never a failure. -/
inductive StoreError where
  | unsupported (destination operation : String)
  | io (path message : String)
  | serialization (file : Option String) (defect : Defect)
  | connectionFailed (reason : String)
  | remote (reason : String)
  | unevenAnswer (values keys : Nat)
  | invalidData (file : Option String) (defect : Defect)

namespace StoreError

/-- A defect found in a file is told behind the name of the file. -/
def placed (file : Option String) (text : String) : String :=
  match file with
  | none => text
  | some path => s!"{path}: {text}"

/-- The words for a failure. -/
def message : StoreError → String
  | .unsupported destination operation =>
    s!"{operation} is not supported by the {destination} destination"
  | .io path message => s!"I/O failure at '{path}': {message}"
  | .serialization file defect => s!"Serialization error: {placed file defect.message}"
  | .connectionFailed reason => s!"Connection failed: {reason}"
  | .remote reason => s!"Remote operation failed: {reason}"
  | .unevenAnswer values keys =>
    s!"Remote operation failed: MGET returned {values} values for {keys} keys"
  | .invalidData file defect => s!"Invalid data: {placed file defect.message}"

/-- Only a call that the destination can never serve is unsupported. -/
def isUnsupported : StoreError → Bool
  | .unsupported _ _ => true
  | _ => false

/-- A defect without a file is placed in one, and every other failure stays as it is. -/
def inFile (path : String) : StoreError → StoreError
  | .serialization none defect => .serialization (some path) defect
  | .invalidData none defect => .invalidData (some path) defect
  | error => error

end StoreError

end SyncStore
