import SyncStore.Json.Reader
import SyncStore.Settings.SettingError
import SyncStore.Text.Blank
import SyncStore.Text.Casing

/-! Environment variables are read as text, booleans, integers, lists or JSON objects. -/

namespace SyncStore

/-- A text is a boolean word in any case, with blanks around it ignored; a blank text is false. -/
def readBool? (raw : String) : Option Bool :=
  let word := String.ofList (lowerCase (trimBlanks raw.toList))
  if ["true", "yes", "y", "1"].contains word then some true
  else if ["", "false", "no", "n", "0"].contains word then some false
  else none

/-- The pieces of a text between the places where a separator stands, scanning from the left. -/
def splitAtSeparator (separator : List Char) (piece : List Char) : List Char → List (List Char)
  | [] => [piece.reverse]
  | c :: rest =>
    match separator with
    | [] => [c :: rest]
    | s :: tail =>
      if (s :: tail).isPrefixOf (c :: rest) then
        piece.reverse :: splitAtSeparator (s :: tail) [] (rest.drop tail.length)
      else splitAtSeparator (s :: tail) (c :: piece) rest
termination_by text => text.length

/-- An empty separator stands before every character and at both ends. -/
def splitText (separator text : List Char) : List (List Char) :=
  if separator.isEmpty then [] :: (text.map ([·]) ++ [[]])
  else splitAtSeparator separator [] text

/-- An environment gives each variable that is set a content. -/
abbrev Environment := List (String × Content)

namespace Environment

/-- A variable that is not set has no text, and one that is not text is refused. -/
def text? (environment : Environment) (key : String) : Except SettingError (Option String) :=
  match environment.lookup key with
  | none => .ok none
  | some (.text s) => .ok (some s)
  | some (.binary bytes) => .error (.variable key (.notText bytes))

/-- The text of a variable, or a default when it is not set. -/
def getStr (environment : Environment) (key default : String) : Except SettingError String :=
  (environment.text? key).map (·.getD default)

/-- The boolean of a variable, or a default when it is not set. -/
def getBool (environment : Environment) (key : String) (default : Bool) :
    Except SettingError Bool :=
  match environment.text? key with
  | .error error => .error error
  | .ok none => .ok default
  | .ok (some raw) =>
    match readBool? raw with
    | some b => .ok b
    | none => .error (.variable key (.notBoolean raw))

/-- The integer of a variable, with blanks around it ignored, or a default when it is not set. -/
def getInt (environment : Environment) (key : String) (default : Int) : Except SettingError Int :=
  match environment.text? key with
  | .error error => .error error
  | .ok none => .ok default
  | .ok (some raw) =>
    match IntegerRange.signed64.read 10 (trimBlanks raw.toList) with
    | .ok n => .ok n
    | .error fault => .error (.variable key (.notInteger fault))

/-- The pieces of a variable; when it is not set the default is split. -/
def getList (environment : Environment) (key separator default : String) :
    Except SettingError (List String) :=
  (environment.getStr key default).map fun raw =>
    (splitText separator.toList raw.toList).map String.ofList

/-- The JSON object of a variable, which is empty when it is not set. -/
def getObject (environment : Environment) (key : String) : Except SettingError Data :=
  match environment.text? key with
  | .error error => .error error
  | .ok none => .ok []
  | .ok (some raw) =>
    match Json.read raw with
    | .ok (.object members) => .ok members
    | .ok found => .error (.variable key (.notObject found))
    | .error error => .error (.variable key (.notJson error))

end Environment

end SyncStore
