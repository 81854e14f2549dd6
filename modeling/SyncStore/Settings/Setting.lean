import SyncStore.Settings.Validator

/-! A setting is a named value of a fixed type with validators attached to it. -/

namespace SyncStore

/-- The value of a setting always has the declared type. -/
structure Setting where
  name : String
  type : SettingType
  value : SettingValue
  validators : List Validator
  isImmutable : Bool
  typed : value.type = type

namespace Setting

/-- A setting is built only from a value of its type. -/
def build (name : String) (value : SettingValue) (type : SettingType) (isImmutable : Bool) :
    Except SettingError Setting :=
  if typed : value.type = type then .ok ⟨name, type, value, [], isImmutable, typed⟩
  else .error (.typeMismatch name type value.type)

/-- A setting whose value may be replaced. -/
def new (name : String) (value : SettingValue) (type : SettingType) : Except SettingError Setting :=
  build name value type false

/-- A setting whose value can never be replaced. -/
def immutable (name : String) (value : SettingValue) (type : SettingType) :
    Except SettingError Setting :=
  build name value type true

/-- A new value replaces the old one when the setting is mutable and the type
fits; no validator runs. -/
def set (setting : Setting) (value : SettingValue) : Except SettingError Setting :=
  if setting.isImmutable then .error (.immutable setting.name)
  else if typed : value.type = setting.type then
    .ok { setting with value := value, typed := typed }
  else .error (.typeMismatch setting.name setting.type value.type)

/-- An attached validator comes last and takes the name of the setting. -/
def addValidator (setting : Setting) (validator : Validator) : Setting :=
  { setting with validators := setting.validators ++ [validator.withName setting.name] }

/-- A setting that is being built takes a validator in the same way. -/
def withValidator (setting : Setting) (validator : Validator) : Setting :=
  setting.addValidator validator

/-- Several validators are attached one after the other. -/
def addValidators (setting : Setting) (validators : List Validator) : Setting :=
  validators.foldl addValidator setting

/-- The first failing validator decides the error. -/
def validate (setting : Setting) : Except SettingError Unit :=
  setting.validators.forM fun validator => validator.check setting.value

/-- A setting is displayed as its value. -/
def display (setting : Setting) : String := String.ofList setting.value.display

end Setting

end SyncStore
