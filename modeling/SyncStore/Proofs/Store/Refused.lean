import SyncStore.Proofs.OrderedMap
import SyncStore.Proofs.Store.Calls

/-! A store whose destination refuses every call keeps its changes in memory and fails. -/

namespace SyncStore

variable {σ : Type}

/--
A destination refuses every call from a side, with one error and without an effect that counts.

A write of no entries at all is no call, and succeeds.
-/
structure Destination.Refuses (destination : Destination σ) (side : Side) (error : StoreError)
    (untouched : σ → Prop) (outside : σ) : Prop where
  readAll : ∃ after, untouched after ∧ destination.readAll side outside = (.error error, after)
  writeAll : ∀ data, data ≠ [] →
    ∃ after, untouched after ∧ destination.writeAll side data outside = (.error error, after)
  readOne : ∀ key,
    ∃ after, untouched after ∧ destination.readOne side key outside = (.error error, after)
  writeOne : ∀ key value,
    ∃ after, untouched after ∧ destination.writeOne side key value outside = (.error error, after)

/-- A destination writes no entries without looking outside. -/
def Destination.SkipsEmpty (destination : Destination σ) : Prop :=
  ∀ side outside, destination.writeAll side [] outside = (.ok (), outside)

/--
A request sends commands, in the mode that a store is in and with the data that it has.

- single keys are read and written by a store without restrictions
- a value that is set is sent when its policy says so
- whole data is sent when there is any in the end
-/
def StoreRequest.Sends (store : SyncedStore σ) : StoreRequest → Prop
  | .backend (.get _ _) | .backend (.getOr _ _ _) | .readDatum _ | .writeDatum _ _ =>
    store.fullSyncOnly = false
  | .backend (.set _ _ policy) => policy.resolve store.writesByDefault = true
  | .backend (.overwrite data) => data ≠ []
  | .backend (.update overrides) => store.cache.merge overrides ≠ []
  | .writeData => store.cache ≠ []
  | .backend .readData => True
  | .backend .data | .setWriteDefault _ => False

/-- What a request leaves in memory when nothing is read from outside. -/
def StoreRequest.remembered (cache : Data) : StoreRequest → Data
  | .backend (.set key value _) => cache.insert key value
  | .backend (.overwrite data) => data
  | .backend (.update overrides) => cache.merge overrides
  | _ => cache

/-- Memory has an entry when a value was set in it. -/
theorem insert_ne_nil {key : String} {value : Value} {cache : Data} :
    cache.insert key value ≠ [] := by
  intro none
  have found := OrderedMap.get?_insert_self key value cache
  rw [none] at found
  cases found

/-- A request sends commands when it makes a call that is no write of no entries. -/
theorem StoreRequest.sends_iff_calls {store : SyncedStore σ} {request : StoreRequest} :
    request.Sends store ↔
      ∃ call ∈ request.calls store.fullSyncOnly store.writesByDefault store.cache,
        call ≠ .writeAll [] := by
  cases request with
  | backend request =>
    cases request with
    | data => simp [Sends, calls]
    | get key fallback => cases mode : store.fullSyncOnly <;> simp [Sends, calls, mode]
    | getOr key default fallback => cases mode : store.fullSyncOnly <;> simp [Sends, calls, mode]
    | set key value policy =>
      simp only [Sends, calls, WritePolicy.resolve_iff]
      -- The whole data that a restricted store writes has the new value in it.
      by_cases writes : policy.Writes store.writesByDefault
      · cases mode : store.fullSyncOnly <;> simp [writes, insert_ne_nil]
      · simp [writes]
    | overwrite data => simp [Sends, calls]
    | update overrides => simp [Sends, calls]
    | readData => simp [Sends, calls]
  | writeData => simp [Sends, calls]
  | writeDatum key value => cases mode : store.fullSyncOnly <;> simp [Sends, calls, mode]
  | readDatum key => cases mode : store.fullSyncOnly <;> simp [Sends, calls, mode]
  | setWriteDefault writes => simp [Sends, calls]

/-- The write default that a request leaves. -/
def StoreRequest.writeDefault (writesByDefault : Bool) : StoreRequest → Bool
  | .setWriteDefault writes => writes
  | _ => writesByDefault

/-- A request without commands is answered from memory, or it is refused as unsupported. -/
def StoreRequest.unsent (destination : String) (cache : Data) :
    StoreRequest → Except StoreError Reply
  | .backend .data => .ok (.data cache)
  | .backend (.get key _) => .ok (.value (cache.get? key))
  | .backend (.getOr key default _) => .ok (.value (some ((cache.get? key).getD default)))
  | .writeDatum _ _ => .error (.unsupported destination "write_datum")
  | .readDatum _ => .error (.unsupported destination "read_datum")
  | _ => .ok .done

/-- A refused request fails, unless it reads a key and falls back to memory. -/
def StoreRequest.refused (error : StoreError) (cache : Data) :
    StoreRequest → Except StoreError Reply
  | .backend (.get key .cached) => .ok (.value (cache.get? key))
  | .backend (.getOr key default .cached) => .ok (.value (some ((cache.get? key).getD default)))
  | _ => .error error

namespace SyncedStore

variable {destination : Destination σ} {side : Side} {store : SyncedStore σ}

section Refused

variable {error : StoreError} {untouched : σ → Prop}
  (refuses : destination.Refuses side error untouched store.outside)
include refuses

/-- Data with entries is refused, and memory has it all the same. -/
theorem writeData_of_refused {data : Data} (filled : data ≠ []) :
    ∃ outside, untouched outside ∧
      writeData destination side { store with cache := data } =
        (.error error, { store with cache := data, outside := outside }) := by
  obtain ⟨outside, after, wrote⟩ := refuses.writeAll data filled
  exact ⟨outside, after, by simp only [writeData_eq, wrote]⟩

/-- A write of one key is refused, and memory stays as it is. -/
theorem writeDatum_of_refused (single : store.fullSyncOnly = false) (key : String)
    (value : Value) :
    ∃ outside, untouched outside ∧
      writeDatum destination side key value store =
        (.error error, { store with outside := outside }) := by
  obtain ⟨outside, after, wrote⟩ := refuses.writeOne key value
  refine ⟨outside, after, ?_⟩
  rw [writeDatum_eq, if_neg (by simp [single]), wrote]

/-- A read of one key is refused, and memory stays as it is. -/
theorem readDatum_of_refused (single : store.fullSyncOnly = false) (key : String) :
    ∃ outside, untouched outside ∧
      readDatum destination side key store =
        (.error error, { store with outside := outside }) := by
  obtain ⟨outside, after, read⟩ := refuses.readOne key
  exact ⟨outside, after, by rw [readDatum_of_single single, read]⟩

/-- A read of the whole data is refused, and memory is not replaced. -/
theorem readData_of_refused :
    ∃ outside, untouched outside ∧
      readData destination side store = (.error error, { store with outside := outside }) := by
  obtain ⟨outside, after, read⟩ := refuses.readAll
  exact ⟨outside, after, by simp only [readData_eq, read]⟩

/-- A read through is refused or answered from memory, which stays as it is. -/
theorem get_of_refused (single : store.fullSyncOnly = false) (key : String)
    (fallback : Fallback) :
    ∃ outside, untouched outside ∧
      get destination side key fallback store =
        (match fallback with
          | .propagate => .error error
          | .cached => .ok (store.cache.get? key),
          { store with outside := outside }) := by
  obtain ⟨outside, after, read⟩ := refuses.readOne key
  have failed : (destination.readOne side key store.outside).1 = .error error := by rw [read]
  have answered := get_of_failed single failed fallback
  rw [read] at answered
  exact ⟨outside, after, answered⟩

/-- A write of a set value is refused in either mode, and memory has the value. -/
theorem set_of_refused {policy : WritePolicy}
    (writes : policy.resolve store.writesByDefault = true) (key : String) (value : Value) :
    ∃ outside, untouched outside ∧
      set destination side key value policy store =
        (.error error,
          { store with cache := store.cache.insert key value, outside := outside }) := by
  by_cases mode : store.fullSyncOnly = true
  · rw [set_of_restricted mode writes]
    exact writeData_of_refused refuses insert_ne_nil
  · obtain ⟨outside, after, wrote⟩ := refuses.writeOne key value
    exact ⟨outside, after, by rw [set_of_single (Bool.eq_false_iff.mpr mode) writes, wrote]⟩

/-- A refused request fails or falls back to memory, and its change stays in memory. -/
theorem perform_of_refused {request : StoreRequest} (sends : request.Sends store) :
    ∃ outside, untouched outside ∧
      store.perform destination side request =
        (request.refused error store.cache,
          { store with cache := request.remembered store.cache, outside := outside }) := by
  cases request with
  | backend request =>
    cases request with
    | data => cases sends
    | get key fallback =>
      obtain ⟨outside, after, got⟩ := get_of_refused refuses sends key fallback
      refine ⟨outside, after, ?_⟩
      simp only [perform, Backend.perform, Backend.synced, got]
      cases fallback <;> rfl
    | getOr key default fallback =>
      obtain ⟨outside, after, got⟩ := get_of_refused refuses sends key fallback
      refine ⟨outside, after, ?_⟩
      rw [perform_getOr, got]
      -- A default stands in for a value that memory does not have.
      cases fallback <;> rfl
    | set key value policy =>
      obtain ⟨outside, after, wrote⟩ := set_of_refused refuses sends key value
      refine ⟨outside, after, ?_⟩
      simp only [perform, Backend.perform, Backend.synced, wrote]
      rfl
    | overwrite data =>
      obtain ⟨outside, after, wrote⟩ := writeData_of_refused refuses sends
      refine ⟨outside, after, ?_⟩
      simp only [perform, Backend.perform, Backend.synced, overwrite_eq, wrote]
      rfl
    | update overrides =>
      obtain ⟨outside, after, wrote⟩ := writeData_of_refused refuses sends
      refine ⟨outside, after, ?_⟩
      simp only [perform, Backend.perform, Backend.synced, update_eq, wrote]
      rfl
    | readData =>
      obtain ⟨outside, after, read⟩ := readData_of_refused refuses
      refine ⟨outside, after, ?_⟩
      simp only [perform, Backend.perform, Backend.synced, read]
      rfl
  | writeData =>
    obtain ⟨outside, after, wrote⟩ := writeData_of_refused refuses sends
    refine ⟨outside, after, ?_⟩
    simp only [perform, wrote]
    rfl
  | writeDatum key value =>
    obtain ⟨outside, after, wrote⟩ := writeDatum_of_refused refuses sends key value
    refine ⟨outside, after, ?_⟩
    simp only [perform, wrote]
    rfl
  | readDatum key =>
    obtain ⟨outside, after, read⟩ := readDatum_of_refused refuses sends key
    refine ⟨outside, after, ?_⟩
    simp only [perform, read]
    rfl
  | setWriteDefault writes => cases sends

end Refused

/-- No entries are written without looking outside. -/
theorem writeData_of_empty (skips : destination.SkipsEmpty) (side : Side) (store : SyncedStore σ)
    {data : Data} (empty : data = []) :
    writeData destination side { store with cache := data } =
      (.ok (), { store with cache := data }) := by
  subst empty
  rw [writeData_eq, skips side store.outside]

/-- A request without commands neither changes what is outside nor looks at it. -/
theorem perform_of_silent (skips : destination.SkipsEmpty) {request : StoreRequest}
    (silent : ¬ request.Sends store) :
    store.perform destination side request =
      (request.unsent destination.name store.cache,
        { store with
          cache := request.remembered store.cache
          writesByDefault := request.writeDefault store.writesByDefault }) := by
  have restricted (single : ¬ store.fullSyncOnly = false) : store.fullSyncOnly = true :=
    Bool.of_not_eq_false single
  -- A single call is refused, and a whole write has nothing to send.
  cases request with
  | backend request =>
    cases request with
    | data => rfl
    | get key fallback =>
      simp only [perform, Backend.perform, Backend.synced, get_of_restricted (restricted silent)]
      rfl
    | getOr key default fallback =>
      rw [perform_getOr, get_of_restricted (restricted silent)]
      rfl
    | set key value policy =>
      have unwritten : policy.resolve store.writesByDefault = false := Bool.eq_false_iff.mpr silent
      simp only [perform, Backend.perform, Backend.synced, set_of_unwritten unwritten]
      rfl
    | overwrite data =>
      have wrote := writeData_of_empty skips side store (of_not_not silent)
      simp only [perform, Backend.perform, Backend.synced, overwrite_eq, wrote]
      rfl
    | update overrides =>
      have wrote := writeData_of_empty skips side store (of_not_not silent)
      simp only [perform, Backend.perform, Backend.synced, update_eq, wrote]
      rfl
    | readData => exact (silent trivial).elim
  | writeData =>
    have wrote := writeData_of_empty skips side store (of_not_not silent)
    simp only [perform, wrote]
    rfl
  | writeDatum key value =>
    simp only [perform, writeDatum_of_restricted (restricted silent)]
    rfl
  | readDatum key =>
    simp only [perform, readDatum_of_restricted (restricted silent)]
    rfl
  | setWriteDefault writes => rfl

end SyncedStore

end SyncStore
