import SyncStore.Json.Printer
import SyncStore.Json.Reader

/-! Values are kept as JSON text by services that only know text. -/

namespace SyncStore

/-- A value is stored as its compact JSON text. -/
def encodeValue (value : Value) : String := value.compactText

/-- Stored text that is not JSON is kept as a plain string. -/
def decodeValue (raw : String) : Value :=
  match Json.read raw with
  | .ok value => value
  | .error _ => .string raw

end SyncStore
