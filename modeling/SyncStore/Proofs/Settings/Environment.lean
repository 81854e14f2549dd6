import SyncStore.Proofs.Decimal.Integer
import SyncStore.Proofs.Except
import SyncStore.Settings.Environment

/-! What a variable reads as is decided by whether it is set, and to which text. -/

namespace SyncStore.Environment

variable {environment : Environment} {key : String}

/-- A variable that is unset gives one fact, a text gives another, and other bytes give none. -/
def Gives (environment : Environment) (key : String) (unset : Prop) (reads : String → Prop) :
    Prop :=
  match environment.lookup key with
  | none => unset
  | some (.text raw) => reads raw
  | some (.binary _) => False

/-- Facts that follow from what a variable gives are given by it. -/
theorem Gives.imp {unset unset' : Prop} {reads reads' : String → Prop}
    (given : environment.Gives key unset reads) (whenUnset : unset → unset')
    (whenText : ∀ raw, reads raw → reads' raw) : environment.Gives key unset' reads' := by
  unfold Gives at given ⊢
  split at given
  · exact whenUnset given
  · exact whenText _ given
  · exact given

/-- Equivalent facts are given by the same variables. -/
theorem gives_congr {unset unset' : Prop} {reads reads' : String → Prop}
    (whenUnset : unset ↔ unset') (whenText : ∀ raw, reads raw ↔ reads' raw) :
    environment.Gives key unset reads ↔ environment.Gives key unset' reads' :=
  ⟨fun given => given.imp whenUnset.mp fun raw => (whenText raw).mp,
    fun given => given.imp whenUnset.mpr fun raw => (whenText raw).mpr⟩

/-- A fact that is given either way holds. -/
theorem Gives.elim {fact : Prop} (given : environment.Gives key fact fun _ => fact) : fact := by
  unfold Gives at given
  split at given
  · exact given
  · exact given
  · exact given.elim

/-- Why a variable is refused, given the fault of each text. -/
def refusal? {ε : Type} (environment : Environment) (key : String) (refused : SettingError → ε)
    (fault? : String → Option ε) : Option ε :=
  match environment.lookup key with
  | none => none
  | some (.text raw) => fault? raw
  | some (.binary bytes) => some (refused (.variable key (.notText bytes)))

variable {ε : Type} {refused : SettingError → ε}

/-- A variable is not refused when it is unset, or a text without a fault. -/
theorem refusal?_eq_none {fault? : String → Option ε} :
    environment.refusal? key refused fault? = none ↔
      environment.Gives key True (fault? · = none) := by
  unfold refusal? Gives
  split <;> simp

/-- A text is read as it is. -/
theorem getStr_eq_ok_iff {default text : String} :
    environment.getStr key default = .ok text ↔
      environment.Gives key (text = default) (· = text) := by
  rw [getStr, text?, Gives]
  cases environment.lookup key with
  | none => simp [Except.map, eq_comm]
  | some content => cases content <;> simp [Except.map]

/-- No text is refused where any text will do. -/
theorem failure?_getStr {default : String} :
    failure? ((environment.getStr key default).mapError refused) =
      environment.refusal? key refused fun _ => none := by
  rw [getStr, text?, refusal?]
  cases environment.lookup key with
  | none => rfl
  | some content => cases content <;> rfl

/-- What holds of the text of a variable holds of the default or of the text that is set. -/
theorem exists_getStr_iff {default : String} {fact : String → Prop} :
    (∃ text, environment.getStr key default = .ok text ∧ fact text) ↔
      environment.Gives key (fact default) fact := by
  simp only [getStr_eq_ok_iff]
  unfold Gives
  split <;> simp

/-- A step behind the text of a variable is refused for what it makes of a text that is set. -/
theorem failure?_getStr_bind {α : Type} {default : String} {step : String → Except ε α}
    (accepts : failure? (step default) = none) :
    failure? ((environment.getStr key default).mapError refused >>= step) =
      environment.refusal? key refused fun raw => failure? (step raw) := by
  rw [getStr, text?, refusal?]
  cases environment.lookup key with
  | none => exact accepts
  | some content => cases content <;> rfl

/-- A boolean is read from the texts that are boolean words. -/
theorem getBool_eq_ok_iff {default b : Bool} :
    environment.getBool key default = .ok b ↔
      environment.Gives key (b = default) (readBool? · = some b) := by
  rw [getBool, text?, Gives]
  cases environment.lookup key with
  | none => simp [eq_comm]
  | some content =>
    cases content with
    | binary bytes => simp
    | text raw => cases reading : readBool? raw <;> simp [reading]

/-- A text that is no boolean word is refused for that. -/
theorem failure?_getBool {default : Bool} :
    failure? ((environment.getBool key default).mapError refused) =
      environment.refusal? key refused fun raw =>
        if (readBool? raw).isSome then none
        else some (refused (.variable key (.notBoolean raw))) := by
  rw [getBool, text?, refusal?]
  cases environment.lookup key with
  | none => rfl
  | some content =>
    cases content with
    | binary bytes => rfl
    | text raw => cases reading : readBool? raw <;> simp [reading]

/-- An integer is read from the texts that spell one of 64 bits, when blanks are trimmed. -/
theorem getInt_eq_ok_iff {default n : Int} :
    environment.getInt key default = .ok n ↔
      environment.Gives key (n = default) fun raw =>
        SpellsInteger (trimBlanks raw.toList) n ∧ IntegerRange.signed64.Includes n := by
  have reads (raw : String) : IntegerRange.signed64.read 10 (trimBlanks raw.toList) = .ok n ↔
      SpellsInteger (trimBlanks raw.toList) n ∧ IntegerRange.signed64.Includes n :=
    IntegerRange.read_eq_ok_iff (by decide) (by decide) _
  -- Spelling an integer of 64 bits is the same as being read as one.
  simp only [← reads]
  rw [getInt, text?, Gives]
  cases environment.lookup key with
  | none => simp [eq_comm]
  | some content =>
    cases content with
    | binary bytes => simp
    | text raw =>
      cases reading : IntegerRange.signed64.read 10 (trimBlanks raw.toList) <;> simp [reading]

end SyncStore.Environment
