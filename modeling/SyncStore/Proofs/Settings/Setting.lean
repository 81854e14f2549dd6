import Mathlib.Data.List.Induction
import SyncStore.Proofs.Except
import SyncStore.Settings.Setting

/-! A setting keeps its type and its name, and all validators attached to it judge its value. -/

namespace SyncStore

/-- What can be asked of a setting. -/
inductive SettingRequest where
  | set (value : SettingValue)
  | addValidator (validator : Validator)
  | addValidators (validators : List Validator)
  | withValidator (validator : Validator)
  | validate

namespace SettingRequest

/-- The validators that a request attaches, in their order. -/
def attached : SettingRequest → List Validator
  | .addValidator validator | .withValidator validator => [validator]
  | .addValidators validators => validators
  | .set _ | .validate => []

/-- The value that a request gives to a mutable setting of some type. -/
def given? (type : SettingType) : SettingRequest → Option SettingValue
  | .set value => if value.type = type then some value else none
  | _ => none

end SettingRequest

namespace Setting

variable {setting start reached : Setting} {requests : List SettingRequest}

/-- A request is answered, and one that fails leaves the setting as it was. -/
def perform (setting : Setting) : SettingRequest → Except SettingError Unit × Setting
  | .set value =>
    match setting.set value with
    | .ok changed => (.ok (), changed)
    | .error error => (.error error, setting)
  | .addValidator validator => (.ok (), setting.addValidator validator)
  | .addValidators validators => (.ok (), setting.addValidators validators)
  | .withValidator validator => (.ok (), setting.withValidator validator)
  | .validate => (setting.validate, setting)

/-- The setting that requests leave one after the other. -/
def after (setting : Setting) (requests : List SettingRequest) : Setting :=
  requests.foldl (fun setting request => (setting.perform request).2) setting

/-- The value that requests leave is the last one they give, unless it can never be replaced. -/
def valueAfter (start : Setting) (requests : List SettingRequest) : SettingValue :=
  if start.isImmutable then start.value
  else (requests.filterMap (·.given? start.type)).getLastD start.value

/-- Every value is refused by an immutable setting, whatever its type is. -/
theorem set_of_immutable (immutable : setting.isImmutable = true) (value : SettingValue) :
    setting.perform (.set value) = (.error (.immutable setting.name), setting) := by
  simp only [perform, set, immutable, ↓reduceIte]

/-- A value of the right type replaces that of a mutable setting, and nothing else changes. -/
theorem set_of_typed (mutable : setting.isImmutable = false) {value : SettingValue}
    (typed : value.type = setting.type) :
    setting.perform (.set value) =
      (.ok (), { setting with value := value, typed := typed }) := by
  simp only [perform, set, mutable, Bool.false_eq_true, ↓reduceIte, dif_pos typed]

/-- A value of another type is refused by a mutable setting. -/
theorem set_of_mistyped (mutable : setting.isImmutable = false) {value : SettingValue}
    (mistyped : value.type ≠ setting.type) :
    setting.perform (.set value) =
      (.error (.typeMismatch setting.name setting.type value.type), setting) := by
  simp only [perform, set, mutable, Bool.false_eq_true, ↓reduceIte, dif_neg mistyped]

/-- Attached validators come behind those that are there, each under the name of the setting. -/
theorem addValidators_eq (setting : Setting) (validators : List Validator) :
    setting.addValidators validators =
      { setting with
        validators := setting.validators ++ validators.map (·.withName setting.name) } := by
  unfold addValidators
  induction validators generalizing setting with
  | nil => simp
  | cons validator rest ih =>
    -- The first one is attached, and the name of the setting is still the same.
    rw [List.foldl_cons, ih]
    simp [addValidator]

/-- A setting is refused under the first of its validators that does not hold. -/
theorem failure?_validators (setting : Setting) :
    failure? setting.validate = setting.validators.findSome? fun validator =>
      if validator.holds setting.value then none
      else some (.validation (validator.settingName.getD "") validator.reason) := by
  refine failure?_forM fun validator _ => ?_
  unfold Validator.check
  split <;> rfl

/--
What requests have made of a setting.

- `name`, `type`, `isImmutable`: these stay as they were declared
- `value`: the last value that was taken
- `validators`: all that were attached, in order and under the name of the setting
-/
structure Follows (start : Setting) (requests : List SettingRequest) (reached : Setting) :
    Prop where
  name : reached.name = start.name
  type : reached.type = start.type
  isImmutable : reached.isImmutable = start.isImmutable
  value : reached.value = start.valueAfter requests
  validators : reached.validators =
    start.validators ++ (requests.flatMap (·.attached)).map (·.withName start.name)

namespace Follows

/-- A request that gives no value leaves the one that is there. -/
theorem valueAfter_of_none {request : SettingRequest} (none : request.given? start.type = none) :
    start.valueAfter (requests ++ [request]) = start.valueAfter requests := by
  rw [valueAfter, valueAfter, List.filterMap_append]
  simp [none]

/-- A value is taken when it can be, and refused otherwise. -/
theorem set (follows : Follows start requests reached) (value : SettingValue) :
    Follows start (requests ++ [.set value]) (reached.perform (.set value)).2 := by
  obtain ⟨name, type, isImmutable, current, validators⟩ := follows
  have attached : (requests ++ [SettingRequest.set value]).flatMap (·.attached) =
      requests.flatMap (·.attached) := by
    rw [List.flatMap_append]
    simp [SettingRequest.attached]
  cases mode : reached.isImmutable with
  | true =>
    rw [set_of_immutable mode]
    refine ⟨name, type, isImmutable, ?_, by rw [attached, validators]⟩
    rw [current, valueAfter, valueAfter, ← isImmutable, mode]
    rfl
  | false =>
    by_cases typed : value.type = reached.type
    · rw [set_of_typed mode typed]
      refine ⟨name, type, isImmutable, ?_, by rw [attached]; exact validators⟩
      -- The value is the last one that was given.
      have given : (SettingRequest.set value).given? start.type = some value := by
        simp [SettingRequest.given?, typed, type]
      rw [valueAfter, ← isImmutable, mode, List.filterMap_append]
      simp [given]
    · rw [set_of_mistyped mode typed]
      refine ⟨name, type, isImmutable, ?_, by rw [attached, validators]⟩
      rw [current, valueAfter_of_none]
      simp [SettingRequest.given?, ← type, typed]

/-- Validators are attached behind those that were attached before. -/
theorem attach (follows : Follows start requests reached) {request : SettingRequest}
    (none : request.given? start.type = none)
    (attaches : (reached.perform request).2 = reached.addValidators request.attached) :
    Follows start (requests ++ [request]) (reached.perform request).2 := by
  obtain ⟨name, type, isImmutable, current, validators⟩ := follows
  rw [attaches, addValidators_eq]
  refine ⟨name, type, isImmutable, by rw [valueAfter_of_none none]; exact current, ?_⟩
  rw [List.flatMap_append]
  simp [validators, name]

/-- A setting follows one request more after it is asked. -/
theorem perform (follows : Follows start requests reached) (request : SettingRequest) :
    Follows start (requests ++ [request]) (reached.perform request).2 := by
  cases request with
  | set value => exact follows.set value
  -- All other requests attach some validators, or none at all.
  | _ => exact follows.attach rfl rfl

/-- A setting follows all requests that it was asked. -/
theorem after (start : Setting) (requests : List SettingRequest) :
    Follows start requests (start.after requests) := by
  -- The induction is on the requests from the last one back, and each is one step.
  induction requests using List.reverseRecOn with
  | nil =>
    refine ⟨rfl, rfl, rfl, ?_, by simp [Setting.after]⟩
    rw [valueAfter]
    split <;> rfl
  | append_singleton requests request ih =>
    rw [Setting.after, List.foldl_append]
    exact ih.perform request

end Follows

/-- A setting that is built is what it was declared as, and no validator is attached to it yet. -/
theorem declared_of_built {name : String} {value : SettingValue} {type : SettingType}
    {isImmutable : Bool}
    (built : (if isImmutable then immutable else new) name value type = .ok setting) :
    setting.name = name ∧ setting.type = type ∧ setting.value = value ∧
      setting.validators = [] ∧ setting.isImmutable = isImmutable := by
  have built : build name value type isImmutable = .ok setting := by
    rw [← built]
    cases isImmutable <;> rfl
  unfold build at built
  -- A value of another type builds no setting.
  split at built
  · cases built
    exact ⟨rfl, rfl, rfl, rfl, rfl⟩
  · cases built

/--
A setting stays what it was declared as, and its validators judge the value that it has.

An immutable setting refuses every value, and a mutable one takes exactly those of its type.
Validation succeeds when all validators hold, and otherwise the first one that fails is told.
-/
theorem judged_as_declared {name : String} {value : SettingValue} {type : SettingType}
    {isImmutable : Bool} {setting : Setting}
    (built : (if isImmutable then immutable else new) name value type = .ok setting)
    (requests : List SettingRequest) :
    let reached := setting.after requests
    let attached := requests.flatMap (·.attached)
    (reached.name = name ∧ reached.type = type ∧ reached.value.type = type) ∧
      (isImmutable = true → reached.value = value ∧ ∀ next,
        reached.perform (.set next) = (.error (.immutable name), reached)) ∧
      (isImmutable = false →
        reached.value = (requests.filterMap (·.given? type)).getLastD value ∧ ∀ next,
          (next.type = type → ∃ typed, reached.perform (.set next) =
            (.ok (), { reached with value := next, typed := typed })) ∧
          (next.type ≠ type → reached.perform (.set next) =
            (.error (.typeMismatch name type next.type), reached))) ∧
      reached.validators = attached.map (·.withName name) ∧
      (reached.perform .validate).2 = reached ∧
      ((reached.perform .validate).1 = .ok () ↔
        ∀ validator ∈ attached, validator.holds reached.value = true) ∧
      ∀ front validator rest, attached = front ++ validator :: rest →
        (∀ passed ∈ front, passed.holds reached.value = true) →
        validator.holds reached.value = false →
        (reached.perform .validate).1 = .error (.validation name validator.reason) := by
  intro reached attached
  obtain ⟨named, declared, given, unattached, mode⟩ := declared_of_built built
  have follows : Follows setting requests reached := .after setting requests
  have called : reached.name = name := follows.name.trans named
  have type_eq : reached.type = type := follows.type.trans declared
  have fixed : reached.isImmutable = isImmutable := follows.isImmutable.trans mode
  have validators : reached.validators = attached.map (·.withName name) := by
    rw [follows.validators, unattached, named, List.nil_append]
  -- An attached validator is refused under the name of the setting.
  have judged : failure? reached.validate = attached.findSome? fun validator =>
      if validator.holds reached.value then none
      else some (.validation name validator.reason) := by
    rw [failure?_validators, validators, List.findSome?_map]
    rfl
  refine ⟨⟨called, type_eq, reached.typed.trans type_eq⟩, fun immutable => ?_, fun mutable => ?_,
    validators, rfl, ?_, fun front validator rest split passed fails => ?_⟩
  · have current : reached.value = value := by
      rw [follows.value, valueAfter, if_pos (mode.trans immutable), given]
    refine ⟨current, fun next => ?_⟩
    rw [set_of_immutable (fixed.trans immutable), called]
  · have current : reached.value = (requests.filterMap (·.given? type)).getLastD value := by
      rw [follows.value, valueAfter, mode, mutable, given, declared]
      rfl
    refine ⟨current, fun next => ⟨fun typed => ?_, fun mistyped => ?_⟩⟩
    · exact ⟨typed.trans type_eq.symm, set_of_typed (fixed.trans mutable) _⟩
    · rw [set_of_mistyped (fixed.trans mutable) (by rwa [type_eq]), called, type_eq]
  · -- Nothing is told exactly when no validator fails.
    have succeeds : reached.validate = .ok () ↔ failure? reached.validate = none := by
      rw [failure?_eq_none]
      exact ⟨fun done => ⟨(), done⟩, fun ⟨_, done⟩ => done⟩
    rw [show (reached.perform .validate).1 = reached.validate from rfl, succeeds, judged,
      List.findSome?_eq_none_iff]
    refine forall₂_congr fun validator _ => ?_
    split <;> simp_all
  · -- The validators in front tell nothing, and the next one tells its failure.
    have silent : front.findSome? (fun validator =>
        if validator.holds reached.value then none
        else some (SettingError.validation name validator.reason)) = none := by
      rw [List.findSome?_eq_none_iff]
      intro other inside
      rw [if_pos (passed other inside)]
    refine failure?_eq_some.mp ?_
    rw [show (reached.perform .validate).1 = reached.validate from rfl, judged, split,
      List.findSome?_append, silent, List.findSome?_cons]
    simp [fails]

/-- A setting of a list takes another list, and is refused by the second of three validators. -/
theorem judged_as_declared_after_nested_list :
    let nested := SettingValue.list [.list [.str "a"], .int 1]
    let setting : Setting :=
      ⟨"HOSTS", .list, .list [.str "a"], [], false, rfl⟩
    let named := Validator.listStrNonEmpty.withName "PORTS"
    let requests : List SettingRequest :=
      [.addValidator .listNonEmpty, .set (.int 3), .addValidators [named, .numberNatural],
        .set nested, .validate]
    Setting.new "HOSTS" (.list [.str "a"]) .list = .ok setting ∧
      (setting.after requests).value = nested ∧
      ((setting.after requests).perform .validate).1 =
        .error (.validation "HOSTS" "Must be a non-empty list of non-empty strings") := by
  intro nested setting named requests
  have built : (if false then immutable else new) "HOSTS" (.list [.str "a"]) .list =
      .ok setting := rfl
  obtain ⟨-, -, taken, -, -, -, refused⟩ := judged_as_declared built requests
  have current : (setting.after requests).value = nested := (taken rfl).1
  refine ⟨built, current, refused [.listNonEmpty] named [.numberNatural] rfl ?_ ?_⟩
  · intro passed inside
    rw [List.mem_singleton.mp inside, current]
    rfl
  · -- The list is not empty, but neither of its items is a text.
    rw [current]
    rfl

end Setting

end SyncStore
