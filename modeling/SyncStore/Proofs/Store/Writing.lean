import SyncStore.Proofs.Store.Restricted
import SyncStore.Store.Datastore

/-! A datastore whose writes all succeed leaves its whole data outside, with all changes made. -/

namespace SyncStore

variable {σ : Type} {destination : Destination σ}

/-- What a request makes of data that is held in memory alone. -/
def Request.applied (request : Request) (data : Data) : Data :=
  (Backend.memory.perform .sync request data).2

/-- What requests one after the other make of it. -/
def Request.appliedAll (requests : List Request) (data : Data) : Data :=
  requests.foldl (fun data request => request.applied data) data

/--
A datastore makes requests that all succeed, and each of them writes its whole data outside.

Nothing else changes what is outside in between.
-/
inductive Datastore.Writes (destination : Destination σ) :
    Datastore (SyncedStore σ) → List Request → Datastore (SyncedStore σ) → Prop where
  | none (datastore : Datastore (SyncedStore σ)) : Writes destination datastore [] datastore
  | next {before middle after : Datastore (SyncedStore σ)} {side : Side} {request : Request}
    {rest : List Request} {reply : Reply}
    (writes : (StoreRequest.backend request).writesWhole before.state.writesByDefault = true)
    (answered : Datastore.perform (.synced destination) side request before = (.ok reply, middle))
    (others : Writes destination middle rest after) :
    Writes destination before (request :: rest) after

/-- A restricted store changes its data as a memory would, and then writes the whole outside. -/
theorem SyncedStore.perform_writing {store : SyncedStore σ}
    (restricted : store.fullSyncOnly = true) {request : Request}
    (writes : (StoreRequest.backend request).writesWhole store.writesByDefault = true)
    (side : Side) :
    (Backend.synced destination).perform side request store =
      match destination.writeAll side (request.applied store.cache) store.outside with
      | (answer, outside) => (answer.map fun _ => .done,
          { store with cache := request.applied store.cache, outside := outside }) := by
  -- Only three requests write the whole data, and a set does so under its policy.
  cases request with
  | set key value policy =>
    have writes : policy.resolve store.writesByDefault = true := writes
    simp only [Backend.perform, Backend.synced, set_of_restricted restricted writes, writeData_eq]
    rfl
  | overwrite data =>
    simp only [Backend.perform, Backend.synced, overwrite_eq, writeData_eq]
    rfl
  | update overrides =>
    simp only [Backend.perform, Backend.synced, update_eq, writeData_eq]
    rfl
  | _ => cases writes

/-- What a request makes of the data in memory, before anything is written outside. -/
def StoreRequest.changed (data : Data) : StoreRequest → Data
  | .backend request => request.applied data
  | _ => data

/-- A request that writes the whole data writes it changed, and answers as the write does. -/
theorem SyncedStore.perform_writesWhole {store : SyncedStore σ}
    (restricted : store.fullSyncOnly = true) {request : StoreRequest}
    (writes : request.writesWhole store.writesByDefault = true) (side : Side) :
    store.perform destination side request =
      match destination.writeAll side (request.changed store.cache) store.outside with
      | (answer, outside) => (answer.map fun _ => .done,
          { store with cache := request.changed store.cache, outside := outside }) := by
  cases request with
  | backend request => exact perform_writing restricted writes side
  | writeData => exact perform_writeData destination side store
  | _ => cases writes

/-- A request that can be written is done, and leaves the changed data in memory and outside. -/
theorem Datastore.perform_of_written {before : Datastore (SyncedStore σ)}
    (restricted : before.state.fullSyncOnly = true) {request : Request} {side : Side}
    {changed : Data} {outside : σ}
    (writes : (StoreRequest.backend request).writesWhole before.state.writesByDefault = true)
    (applied : request.applied before.state.cache = changed)
    (written : destination.writeAll side changed before.state.outside = (.ok (), outside)) :
    Datastore.perform (.synced destination) side request before =
      (.ok .done,
        { before with state := { before.state with cache := changed, outside := outside } }) := by
  -- The answer of the write is the answer of the request.
  rw [Datastore.perform, SyncedStore.perform_writing restricted writes, applied, written]
  rfl

/-- A request that was written leaves the changed data in memory and outside. -/
theorem Datastore.perform_writing {before middle : Datastore (SyncedStore σ)}
    (restricted : before.state.fullSyncOnly = true) {request : Request} {side : Side}
    {reply : Reply}
    (writes : (StoreRequest.backend request).writesWhole before.state.writesByDefault = true)
    (answered : Datastore.perform (.synced destination) side request before =
      (.ok reply, middle)) :
    middle.state.fullSyncOnly = true ∧
      middle.state.cache = request.applied before.state.cache ∧
      destination.writeAll side middle.state.cache before.state.outside =
        (.ok (), middle.state.outside) := by
  rw [Datastore.perform, SyncedStore.perform_writing restricted writes] at answered
  -- The answer of the request is that of the write.
  cases written : destination.writeAll side (request.applied before.state.cache)
      before.state.outside with
  | mk answer outside =>
    rw [written] at answered
    obtain ⟨replied, rfl⟩ := Prod.mk.inj answered
    obtain ⟨done, rfl, -⟩ := map_eq_ok.mp replied
    exact ⟨restricted, rfl, written⟩

/-- After writes that succeed memory holds the data with all changes made in order. -/
theorem Datastore.Writes.cache {before after : Datastore (SyncedStore σ)} {requests : List Request}
    (run : Writes destination before requests after)
    (restricted : before.state.fullSyncOnly = true) :
    after.state.cache = Request.appliedAll requests before.state.cache := by
  induction run with
  | none datastore => rfl
  | next writes answered others ih =>
    -- The others start from the data that the first request left.
    obtain ⟨restricted, same, -⟩ := perform_writing restricted writes answered
    rw [ih restricted, same]
    rfl

/-- After writes that succeed the data in memory is what was written outside last. -/
theorem Datastore.Writes.written_last {before after : Datastore (SyncedStore σ)}
    {requests : List Request} (run : Writes destination before requests after)
    (restricted : before.state.fullSyncOnly = true) (nonempty : requests ≠ []) :
    ∃ side outside, destination.writeAll side after.state.cache outside =
      (.ok (), after.state.outside) := by
  -- The induction is on the run, and each write leaves a restricted store to the others.
  induction run with
  | none datastore => exact absurd rfl nonempty
  | @next before middle after side request rest reply writes answered others ih =>
    obtain ⟨restricted, -, written⟩ := perform_writing restricted writes answered
    -- The first write is the last one when no other follows it.
    cases rest with
    | nil =>
      cases others
      exact ⟨side, before.state.outside, written⟩
    | cons => exact ih restricted (by simp)

end SyncStore
