import SyncStore.Decimal.Integer
import SyncStore.Json.Printer
import SyncStore.Json.SyntaxError
import SyncStore.Settings.SettingValue
import SyncStore.Text.Content

/-! Settings fail for a wrong type, a failed check, a fixed value, or an unreadable variable. -/

namespace SyncStore

/-- Why the content of an environment variable is refused. -/
inductive VariableFault where
  | notText (bytes : List UInt8)
  | notBoolean (raw : String)
  | notInteger (fault : IntegerFault)
  | notJson (error : Json.SyntaxError)
  | notObject (found : Value)

/-- The words for a refused boolean repeat the raw text. -/
def notBooleanMessage (raw : String) : String := s!"Unable to coerce value to boolean: {raw}"

/-- The words for a refused variable. -/
def VariableFault.message : VariableFault → String
  | .notText bytes => "environment variable was not valid unicode: " ++ displayQuoted bytes
  | .notBoolean raw => notBooleanMessage raw
  | .notInteger fault => fault.message
  | .notJson error => error.message
  | .notObject found => s!"expected a JSON object, found {found.compactText}"

/-- Why a setting or a variable is refused. -/
inductive SettingError where
  | typeMismatch (name : String) (expected found : SettingType)
  | validation (name reason : String)
  | immutable (name : String)
  | variable (key : String) (fault : VariableFault)

/-- The words for a refused setting or variable. -/
def SettingError.message : SettingError → String
  | .typeMismatch name expected found =>
    s!"ConfigVar '{name}' unexpected type: '{found.name}' - Expected: '{expected.name}'"
  | .validation name reason => s!"ConfigVar '{name}' failed validation for reason: '{reason}'"
  | .immutable name => s!"ConfigVar '{name}' is immutable"
  | .variable key fault => s!"Error retrieving env var with key: '{key}' - {fault.message}"

end SyncStore
