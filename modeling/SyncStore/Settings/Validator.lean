import SyncStore.Settings.SettingError

/-! A validator is a predicate on values with the reason given when it fails. -/

namespace SyncStore

/-- A validator names the setting it belongs to once it is attached to one. -/
structure Validator where
  holds : SettingValue → Bool
  reason : String
  settingName : Option String

namespace Validator

/-- A validator without a setting. -/
def ofPredicate (holds : SettingValue → Bool) (reason : String) : Validator := ⟨holds, reason, none⟩

/-- Naming a validator replaces any name it had. -/
def withName (validator : Validator) (name : String) : Validator :=
  { validator with settingName := some name }

/-- A value that fails the predicate is refused under the name of the setting. -/
def check (validator : Validator) (value : SettingValue) : Except SettingError Unit :=
  if validator.holds value then .ok ()
  else .error (.validation (validator.settingName.getD "") validator.reason)

/-- Integers above zero. -/
def numberNatural : Validator :=
  ofPredicate (fun value => value.int?.any (0 < ·)) "Must be a natural number (integer > 0)"

/-- Integers below zero. -/
def numberIntNegative : Validator :=
  ofPredicate (fun value => value.int?.any (· < 0)) "Must be a negative integer"

/-- Numbers above zero. -/
def numberFloatPositive : Validator :=
  ofPredicate (fun value => value.real?.any Real64.isPositive) "Must be a positive number"

/-- Numbers below zero. -/
def numberFloatNegative : Validator :=
  ofPredicate (fun value => value.real?.any Real64.isNegative) "Must be a negative number"

/-- Texts with at least one character, blank or not. -/
def stringNonEmpty : Validator :=
  ofPredicate (fun value => value.str?.any (· ≠ "")) "Must be a valid, non-empty string"

/-- Lists with at least one item. -/
def listNonEmpty : Validator :=
  ofPredicate (fun value => value.list?.any (!·.isEmpty)) "Must be a non-empty list"

/-- Lists with at least one item whose items are all texts with at least one character. -/
def listStrNonEmpty : Validator :=
  ofPredicate
    (fun value => value.list?.any fun items =>
      !items.isEmpty && items.all fun item => item.str?.any (· ≠ ""))
    "Must be a non-empty list of non-empty strings"

end Validator

end SyncStore
