import Mathlib.Data.List.Forall2

/-! Results that are mapped keep their success, and rows of results succeed part by part. -/

namespace SyncStore

/-- A result is mapped to a success exactly when it is one. -/
theorem map_eq_ok {α β ε : Type} {f : α → β} {result : Except ε α} {b : β} :
    result.map f = .ok b ↔ ∃ a, result = .ok a ∧ b = f a := by
  cases result <;> simp [Except.map, eq_comm]

/-- Mapping an answer keeps its success. -/
@[simp] theorem isOk_map {ε α β : Type} (f : α → β) (answer : Except ε α) :
    (answer.map f).isOk = answer.isOk := by
  cases answer <;> rfl

@[simp] theorem mapError_ok {α ε δ : Type} (f : ε → δ) (a : α) :
    (Except.ok a : Except ε α).mapError f = .ok a := rfl

@[simp] theorem mapError_error {α ε δ : Type} (f : ε → δ) (error : ε) :
    (Except.error error : Except ε α).mapError f = .error (f error) := rfl

/-- Only the error of a result is mapped, so its success stays. -/
theorem mapError_eq_ok {α ε δ : Type} {f : ε → δ} {result : Except ε α} {a : α} :
    result.mapError f = .ok a ↔ result = .ok a := by
  cases result <;> simp

/-- The answer of a result is there exactly when it is a success. -/
theorem toOption_eq_some {ε α : Type} {result : Except ε α} {a : α} :
    result.toOption = some a ↔ result = .ok a := by
  cases result <;> simp [Except.toOption]

/-- The error of a result, if it is one. -/
def failure? {ε α : Type} : Except ε α → Option ε
  | .ok _ => none
  | .error error => some error

@[simp] theorem failure?_ok {ε α : Type} (a : α) : failure? (.ok a : Except ε α) = none := rfl

@[simp] theorem failure?_pure {ε α : Type} (a : α) :
    failure? (pure a : Except ε α) = none := rfl

@[simp] theorem failure?_error {ε α : Type} (error : ε) :
    failure? (.error error : Except ε α) = some error := rfl

theorem failure?_eq_some {ε α : Type} {result : Except ε α} {error : ε} :
    failure? result = some error ↔ result = .error error := by
  cases result <;> simp

theorem failure?_eq_none {ε α : Type} {result : Except ε α} :
    failure? result = none ↔ ∃ a, result = .ok a := by
  cases result <;> simp

/-- Mapping an answer keeps its failure. -/
@[simp] theorem failure?_map {ε α β : Type} (f : α → β) (result : Except ε α) :
    failure? (result.map f) = failure? result := by
  cases result <;> rfl

/-- Two steps succeed together exactly when the first one does and then the second one. -/
theorem bind_eq_ok {α β ε : Type} {result : Except ε α} {f : α → Except ε β} {b : β} :
    result >>= f = .ok b ↔ ∃ a, result = .ok a ∧ f a = .ok b := by
  cases result <;> simp [bind, Except.bind]

/-- The first of two steps decides the failure, when that of the second one is always the same. -/
theorem failure?_bind {α β ε : Type} {result : Except ε α} {f : α → Except ε β}
    {later : Option ε} (same : ∀ a, failure? (f a) = later) :
    failure? (result >>= f) = (failure? result).or later := by
  cases result with
  | ok a => exact same a
  | error error => rfl

/-- The first part of a row that has something comes before the parts behind it. -/
theorem findSome?_cons_eq_or {α β : Type} (f : α → Option β) (a : α) (rest : List α) :
    (a :: rest).findSome? f = (f a).or (rest.findSome? f) := by
  rw [List.findSome?_cons]
  cases f a <;> rfl

/-- The first failing check of a row decides its failure. -/
theorem failure?_forM {α ε : Type} {check : α → Except ε Unit} {fault? : α → Option ε}
    {row : List α} (each : ∀ a ∈ row, failure? (check a) = fault? a) :
    failure? (row.forM check) = row.findSome? fault? := by
  induction row with
  | nil => rfl
  | cons a rest ih =>
    obtain ⟨first, others⟩ := List.forall_mem_cons.mp each
    show failure? (check a >>= fun _ => rest.forM check) = _
    rw [failure?_bind fun _ => ih others, first, findSome?_cons_eq_or]

/-- A row of parts fails as the first part that fails. -/
theorem failure?_row {α β γ ε : Type} {part : α → Except ε β} {row : List α → Except ε γ}
    (empty : failure? (row []) = none)
    (takes : ∀ a rest, failure? (row (a :: rest)) = (failure? (part a)).or (failure? (row rest)))
    (whole : List α) : failure? (row whole) = whole.findSome? fun a => failure? (part a) := by
  induction whole with
  | nil => exact empty
  | cons a rest ih => rw [takes, ih, findSome?_cons_eq_or]

/-- A conversion applied to a row of parts, some of which are left out, succeeds part by part. -/
theorem row_eq_ok {α β ε : Type} {p : α → Bool} {R : α → β → Prop}
    {row : List α → Except ε (List β)} (empty : row [] = .ok [])
    (skips : ∀ a rest, p a = false → row (a :: rest) = row rest)
    (takes : ∀ a rest parts, p a = true → (row (a :: rest) = .ok parts ↔
      ∃ part others, R a part ∧ row rest = .ok others ∧ parts = part :: others))
    {whole : List α} {parts : List β} :
    row whole = .ok parts ↔ List.Forall₂ R (whole.filter p) parts := by
  induction whole generalizing parts with
  | nil => simp [empty, eq_comm]
  | cons a rest ih =>
    cases kept : p a with
    -- A part that is left out changes neither side.
    | false => rw [skips a rest kept, ih, List.filter_cons_of_neg (by simp [kept])]
    -- A part that is kept heads both rows.
    | true =>
      rw [takes a rest parts kept, List.filter_cons_of_pos kept, List.forall₂_cons_left_iff]
      simp only [ih]

/-- A row without parts to leave out is converted part by part. -/
theorem full_row_eq_ok {α β ε : Type} {R : α → β → Prop} {row : List α → Except ε (List β)}
    (empty : row [] = .ok [])
    (takes : ∀ a rest parts, row (a :: rest) = .ok parts ↔
      ∃ part others, R a part ∧ row rest = .ok others ∧ parts = part :: others)
    {whole : List α} {parts : List β} : row whole = .ok parts ↔ List.Forall₂ R whole parts := by
  -- A row that passes over nothing filters nothing out.
  have all : whole.filter (fun _ => true) = whole := by simp
  rw [← all]
  simpa using row_eq_ok (p := fun _ => true) empty (by simp)
    fun a rest parts _ => takes a rest parts

/-- What follows from being converted from a part holds of every part of the result. -/
theorem forall_mem_converted {α β : Type} {R : α → β → Prop} {q : β → Prop} {whole : List α}
    {parts : List β} (row : List.Forall₂ R whole parts) (holds : ∀ a ∈ whole, ∀ b, R a b → q b) :
    ∀ b ∈ parts, q b := by
  -- Both rows are walked side by side.
  induction row with
  | nil => simp
  | cons same row ih =>
    obtain ⟨first, others⟩ := List.forall_mem_cons.mp holds
    exact List.forall_mem_cons.mpr ⟨first _ same, ih others⟩

end SyncStore
