import SyncStore.Proofs.Except
import SyncStore.Proofs.Store.Twins

/-! A run of a synced store is a row of moves: requests to the store, and edits outside of it. -/

namespace SyncStore

/--
A move of a run.

- `request`: something is asked of the store, from one side
- `edit`: somebody else replaces what is outside
-/
inductive Move (σ : Type) where
  | request (side : Side) (request : StoreRequest)
  | edit (outside : σ)

namespace SyncedStore

variable {σ : Type}

/-- A move changes the store by what is asked of it, or changes only what is outside. -/
def move (destination : Destination σ) (store : SyncedStore σ) : Move σ → SyncedStore σ
  | .request side request => (store.perform destination side request).2
  | .edit outside => { store with outside := outside }

/-- A run makes its moves one after the other. -/
def run (destination : Destination σ) (store : SyncedStore σ) (moves : List (Move σ)) :
    SyncedStore σ :=
  moves.foldl (move destination) store

variable (destination : Destination σ) (side : Side) (store : SyncedStore σ)

/-- A write of one key changes at most what is outside. -/
theorem writeDatum_store (key : String) (value : Value) :
    ∃ outside, (writeDatum destination side key value store).2 =
      { store with outside := outside } := by
  rw [writeDatum_eq]
  -- A restricted store is left as it is, and another one by the destination.
  split
  · exact ⟨store.outside, rfl⟩
  · exact ⟨(destination.writeOne side key value store.outside).2, rfl⟩

/-- A read of one key changes at most what is outside. -/
theorem readDatum_store (key : String) :
    ∃ outside, (readDatum destination side key store).2 = { store with outside := outside } := by
  rw [readDatum_eq]
  split
  · exact ⟨store.outside, rfl⟩
  · exact ⟨(destination.readOne side key store.outside).2, rfl⟩

/-- A value that is set stays in memory, whatever becomes of its write outside. -/
theorem set_store (key : String) (value : Value) (policy : WritePolicy) :
    ∃ outside, (set destination side key value policy store).2 =
      { store with cache := store.cache.insert key value, outside := outside } := by
  rw [set_eq]
  -- Nothing is written, or the whole data is, or the changed key alone.
  split
  · split
    · exact ⟨_, congrArg Prod.snd (writeData_eq ..)⟩
    · exact writeDatum_store destination side _ key value
  · exact ⟨store.outside, rfl⟩

/-- Data that was read replaces memory, and a failed read replaces nothing. -/
theorem readData_store :
    (readData destination side store).2 =
      { store with
        cache := match (destination.readAll side store.outside).1 with
          | .ok data => data
          | .error _ => store.cache
        outside := (destination.readAll side store.outside).2 } := by
  rw [readData_eq]
  cases destination.readAll side store.outside with
  | mk answer outside => cases answer <;> rfl

/-- The answer to a read of the whole data is that of the destination. -/
theorem readData_answer :
    (readData destination side store).1 = (destination.readAll side store.outside).1 := by
  rw [readData_eq]
  cases destination.readAll side store.outside with
  | mk answer outside => cases answer <;> rfl

variable {destination side store} {key : String}

section Restricted

variable (restricted : store.fullSyncOnly = true)
include restricted

/-- A restricted store answers from memory. -/
theorem get_of_restricted (fallback : Fallback) :
    get destination side key fallback store = (.ok (store.cache.get? key), store) := by
  rw [get_eq, if_pos restricted]

/-- A restricted store stays as it is when a default stands in for a missing key. -/
theorem getOr_of_restricted (default : Value) (fallback : Fallback) :
    (store.perform destination side (.backend (.getOr key default fallback))).2 = store := by
  rw [perform_getOr, get_of_restricted restricted]

/-- A restricted store writes all its data when it is to write a value. -/
theorem set_of_restricted {policy : WritePolicy}
    (writes : policy.resolve store.writesByDefault = true) (value : Value) :
    set destination side key value policy store =
      writeData destination side { store with cache := store.cache.insert key value } := by
  rw [set_eq, if_pos writes, if_pos restricted]

/-- A restricted store refuses to write a single key. -/
theorem writeDatum_of_restricted (value : Value) :
    writeDatum destination side key value store =
      refuseSingle destination "write_datum" store := by
  rw [writeDatum_eq, if_pos restricted]

/-- A restricted store refuses to read a single key. -/
theorem readDatum_of_restricted :
    readDatum destination side key store = refuseSingle destination "read_datum" store := by
  rw [readDatum_eq, if_pos restricted]

end Restricted

section Single

/-- A value found outside is answered and kept in memory. -/
theorem get_of_found (single : store.fullSyncOnly = false) {value : Value}
    (found : (destination.readOne side key store.outside).1 = .ok (some value))
    (fallback : Fallback) :
    get destination side key fallback store =
      (.ok (some value),
        { store with
          cache := store.cache.insert key value
          outside := (destination.readOne side key store.outside).2 }) := by
  -- The store is not restricted, so its destination is asked.
  rw [get_eq, readDatum_eq, if_neg (by simp [single]), if_neg (by simp [single])]
  cases called : destination.readOne side key store.outside with
  | mk answer outside =>
    rw [called] at found
    obtain rfl : answer = .ok (some value) := found
    rfl

/-- A key that is not found outside is answered as missing, and memory stays as it was. -/
theorem get_of_absent (single : store.fullSyncOnly = false)
    (absent : (destination.readOne side key store.outside).1 = .ok none) (fallback : Fallback) :
    get destination side key fallback store =
      (.ok none, { store with outside := (destination.readOne side key store.outside).2 }) := by
  rw [get_eq, readDatum_eq, if_neg (by simp [single]), if_neg (by simp [single])]
  cases called : destination.readOne side key store.outside with
  | mk answer outside =>
    rw [called] at absent
    obtain rfl : answer = .ok none := absent
    rfl

/-- A failed read outside is told, or answered from memory, and memory stays as it was. -/
theorem get_of_failed (single : store.fullSyncOnly = false) {error : StoreError}
    (failed : (destination.readOne side key store.outside).1 = .error error)
    (fallback : Fallback) :
    get destination side key fallback store =
      (match fallback with
        | .propagate => .error error
        | .cached => .ok (store.cache.get? key),
        { store with outside := (destination.readOne side key store.outside).2 }) := by
  rw [get_eq, readDatum_eq, if_neg (by simp [single]), if_neg (by simp [single])]
  cases called : destination.readOne side key store.outside with
  | mk answer outside =>
    rw [called] at failed
    obtain rfl : answer = .error error := failed
    -- Only the answer depends on the fallback.
    cases fallback <;> rfl

/-- A read outside that succeeds is the answer, and leaves behind what it left outside. -/
theorem get_of_read (single : store.fullSyncOnly = false) {found : Option Value}
    (read : (destination.readOne side key store.outside).1 = .ok found) (fallback : Fallback) :
    (get destination side key fallback store).1 = .ok found ∧
      (get destination side key fallback store).2.outside =
        (destination.readOne side key store.outside).2 := by
  cases found with
  | none =>
    rw [get_of_absent single read]
    exact ⟨rfl, rfl⟩
  | some value =>
    rw [get_of_found single read]
    exact ⟨rfl, rfl⟩

/-- A single read answers what the destination does, and leaves memory alone. -/
theorem readDatum_of_single (single : store.fullSyncOnly = false) :
    readDatum destination side key store =
      ((destination.readOne side key store.outside).1,
        { store with outside := (destination.readOne side key store.outside).2 }) := by
  rw [readDatum_eq, if_neg (by simp [single])]

/-- A value that is to be written is written alone, and memory has it already. -/
theorem set_of_single (single : store.fullSyncOnly = false) {policy : WritePolicy}
    (writes : policy.resolve store.writesByDefault = true) (value : Value) :
    set destination side key value policy store =
      ((destination.writeOne side key value store.outside).1,
        { store with
          cache := store.cache.insert key value
          outside := (destination.writeOne side key value store.outside).2 }) := by
  rw [set_eq, if_pos writes, if_neg (by simp [single]), writeDatum_eq, if_neg (by simp [single])]

end Single

/-- A value that is not to be written is set in memory alone. -/
theorem set_of_unwritten {policy : WritePolicy}
    (unwritten : policy.resolve store.writesByDefault = false) (value : Value) :
    set destination side key value policy store =
      (.ok (), { store with cache := store.cache.insert key value }) := by
  rw [set_eq, if_neg (by simp [unwritten])]

variable (destination side store)

/-- A read through leaves a store restricted or not, as it was. -/
theorem get_fullSyncOnly (key : String) (fallback : Fallback) :
    (get destination side key fallback store).2.fullSyncOnly = store.fullSyncOnly := by
  cases single : store.fullSyncOnly with
  | true =>
    rw [get_of_restricted single]
    exact single
  | false =>
    -- Whatever the read outside answers, at most memory and what is outside change.
    rcases answered : (destination.readOne side key store.outside).1 with error | _ | value
    · rw [get_of_failed single answered]
      exact single
    · rw [get_of_absent single answered]
      exact single
    · rw [get_of_found single answered]
      exact single

/-- No request changes whether a store is restricted to whole reads and writes. -/
theorem perform_fullSyncOnly (request : StoreRequest) :
    (store.perform destination side request).2.fullSyncOnly = store.fullSyncOnly := by
  -- Requests replace memory, what is outside and the write default, and nothing besides.
  cases request with
  | backend request =>
    cases request with
    | data => rfl
    | get key fallback => exact get_fullSyncOnly destination side store key fallback
    | getOr key default fallback =>
      rw [perform_getOr]
      exact get_fullSyncOnly destination side store key fallback
    | set key value policy =>
      obtain ⟨outside, same⟩ := set_store destination side store key value policy
      exact (congrArg fullSyncOnly same :)
    | overwrite data => rw [perform_overwrite, perform_writeData]
    | update overrides => rw [perform_update, perform_writeData]
    | readData => exact (congrArg fullSyncOnly (readData_store destination side store) :)
  | writeData => rw [perform_writeData]
  | writeDatum key value =>
    obtain ⟨outside, same⟩ := writeDatum_store destination side store key value
    exact (congrArg fullSyncOnly same :)
  | readDatum key =>
    obtain ⟨outside, same⟩ := readDatum_store destination side store key
    exact (congrArg fullSyncOnly same :)
  | setWriteDefault writes => rfl

/-- No run changes it either. -/
theorem run_fullSyncOnly (moves : List (Move σ)) :
    (store.run destination moves).fullSyncOnly = store.fullSyncOnly := by
  induction moves generalizing store with
  | nil => rfl
  | cons first rest ih =>
    -- The first move leaves it alone, and so do the others.
    refine (ih (store.move destination first)).trans ?_
    cases first with
    | request side request => exact perform_fullSyncOnly destination side store request
    | edit outside => rfl

end SyncedStore

end SyncStore
