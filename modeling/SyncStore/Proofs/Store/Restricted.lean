import SyncStore.Proofs.Store.Run
import SyncStore.Store.Recorder

/-! A store restricted to whole reads and writes answers as a memory with the same changes does. -/

namespace SyncStore

variable {σ : Type}

/--
A destination holds the data that it is given.

A failed write and a read, failed or not, leave what it holds as it is.
-/
structure Destination.Holds (destination : Destination σ) (held : σ → Data) : Prop where
  writeAll_stores : ∀ side data outside, (destination.writeAll side data outside).1 = .ok () →
    held (destination.writeAll side data outside).2 = data
  writeAll_fails : ∀ side data outside error,
    (destination.writeAll side data outside).1 = .error error →
      held (destination.writeAll side data outside).2 = held outside
  readAll_keeps : ∀ side outside, held (destination.readAll side outside).2 = held outside

/-- A request asks for data that is held, and changes none of it. -/
def Request.IsQuery : Request → Prop
  | .data | .get _ _ | .getOr _ _ _ => True
  | _ => False

namespace StoreRequest

/--
What a memory is asked for when a store answers a request.

Data that was read overwrites memory, and what concerns the destination alone is not asked.
-/
def toMemory : StoreRequest → Except StoreError Reply → Option Request
  | .backend .readData, .ok (.data data) => some (.overwrite data)
  | .backend .readData, _ => none
  -- Every other request is the same, also when its write outside failed.
  | .backend request, _ => some request
  | _, _ => none

/-- A memory follows a store by what it is asked for. -/
def follow (side : Side) (request : StoreRequest) (answer : Except StoreError Reply)
    (memory : Data) : Data :=
  match request.toMemory answer with
  | some request => (Backend.memory.perform side request memory).2
  | none => memory

/-- A request that writes the whole data of a restricted store. -/
def writesWhole (writesByDefault : Bool) : StoreRequest → Bool
  | .backend (.set _ _ policy) => policy.resolve writesByDefault
  | .backend (.overwrite _) => true
  | .backend (.update _) => true
  | .writeData => true
  | _ => false

end StoreRequest

/--
A store beside a memory that follows it.

- `memory`: the data of a memory on which the same changes were made
- `written`: that data at the last successful write of the whole, unless an edit came after it
-/
structure Followed (σ : Type) where
  store : SyncedStore σ
  memory : Data
  written : Option Data

namespace Followed

/-- The memory starts with the data of the store, and nothing was edited yet. -/
def start (held : σ → Data) (store : SyncedStore σ) : Followed σ :=
  ⟨store, store.cache, some (held store.outside)⟩

/-- The memory follows each request, and an edit leaves open what is held outside. -/
def step (destination : Destination σ) (followed : Followed σ) (move : Move σ) : Followed σ where
  store := followed.store.move destination move
  memory := match move with
    | .request side request =>
      request.follow side (followed.store.perform destination side request).1 followed.memory
    | .edit _ => followed.memory
  written := match move with
    | .request side request =>
      let answer := (followed.store.perform destination side request).1
      if request.writesWhole followed.store.writesByDefault && answer.isOk then
        some (request.follow side answer followed.memory)
      else followed.written
    | .edit _ => none

/-- The memory follows the moves of a run one after the other. -/
def run (destination : Destination σ) (followed : Followed σ) (moves : List (Move σ)) :
    Followed σ :=
  moves.foldl (step destination) followed

/-- The followed store makes the same run as it would alone. -/
theorem run_store (destination : Destination σ) (followed : Followed σ) (moves : List (Move σ)) :
    (followed.run destination moves).store = followed.store.run destination moves := by
  -- The memory beside the store has no part in its moves.
  induction moves generalizing followed with
  | nil => rfl
  | cons first rest ih => exact ih (followed.step destination first)

/--
A memory is faithful to a restricted store when it has the same data.

What was written last and not edited since is what the destination holds.
-/
structure Faithful (held : σ → Data) (followed : Followed σ) : Prop where
  restricted : followed.store.fullSyncOnly = true
  same : followed.store.cache = followed.memory
  holds : ∀ data, followed.written = some data → held followed.store.outside = data

section Step

variable {destination : Destination σ} {held : σ → Data}

/-- A write of the whole data is held when it succeeds, and otherwise what was written before. -/
theorem writeData_holds (holds : destination.Holds held) (side : Side) (store : SyncedStore σ)
    {written : Option Data} (before : ∀ data, written = some data → held store.outside = data)
    (data : Data)
    (expected : (if (store.writeData destination side).1.isOk then some store.cache
      else written) = some data) :
    held (store.writeData destination side).2.outside = data := by
  rw [SyncedStore.writeData_eq] at expected ⊢
  cases answered : (destination.writeAll side store.cache store.outside).1 with
  | error error =>
    -- A failed write changed nothing outside.
    have kept := holds.writeAll_fails side store.cache store.outside error answered
    have expected : written = some data := by simpa [answered, Except.isOk, Except.toBool]
      using expected
    exact kept.trans (before data expected)
  | ok done =>
    have stored := holds.writeAll_stores side store.cache store.outside answered
    have expected : store.cache = data := by simpa [answered, Except.isOk, Except.toBool]
      using expected
    exact stored.trans expected

variable {followed : Followed σ}

/-- Data that is changed in memory and then written outside keeps the memory faithful. -/
theorem Faithful.write (faithful : followed.Faithful held) (holds : destination.Holds held)
    (side : Side) {request : StoreRequest} {changed : Data}
    (performs : followed.store.perform destination side request =
      match { followed.store with cache := changed }.writeData destination side with
      | (answer, store) => (answer.map fun _ => .done, store))
    (whole : request.writesWhole followed.store.writesByDefault = true)
    (follows : ∀ answer, request.follow side answer followed.memory = changed) :
    (followed.step destination (.request side request)).Faithful held := by
  -- The changed data is in memory whether or not it was written.
  refine ⟨?_, ?_, fun data expected => ?_⟩
  · exact (SyncedStore.perform_fullSyncOnly destination side followed.store request).trans
      faithful.restricted
  · change (followed.store.perform destination side request).2.cache =
      request.follow side (followed.store.perform destination side request).1 followed.memory
    rw [follows, performs, SyncedStore.writeData_eq]
  · have written := writeData_holds holds side { followed.store with cache := changed }
      faithful.holds data
    simp only [step, whole, follows, performs, Bool.true_and, isOk_map] at expected
    have reached : (followed.step destination (.request side request)).store =
        ({ followed.store with cache := changed }.writeData destination side).2 :=
      congrArg Prod.snd performs
    rw [reached]
    exact written expected

/-- A request that changes nothing outside keeps the memory faithful with the same change. -/
theorem Faithful.change (faithful : followed.Faithful held) (side : Side) {request : StoreRequest}
    (outside : held (followed.store.perform destination side request).2.outside =
      held followed.store.outside)
    (part : request.writesWhole followed.store.writesByDefault = false)
    (follows : (followed.store.perform destination side request).2.cache =
      request.follow side (followed.store.perform destination side request).1 followed.memory) :
    (followed.step destination (.request side request)).Faithful held := by
  refine ⟨?_, follows, fun data expected => ?_⟩
  · exact (SyncedStore.perform_fullSyncOnly destination side followed.store request).trans
      faithful.restricted
  · -- Nothing was written, so what is held is what was held before.
    simp only [step, part, Bool.false_and, Bool.false_eq_true, ↓reduceIte] at expected
    exact outside.trans (faithful.holds data expected)

/-- A request that leaves the store as it was, and asks nothing of the memory, changes neither. -/
theorem Faithful.unchanged (faithful : followed.Faithful held) (side : Side)
    {request : StoreRequest}
    (unchanged : (followed.store.perform destination side request).2 = followed.store)
    (part : request.writesWhole followed.store.writesByDefault = false)
    (unasked : request.follow side (followed.store.perform destination side request).1
      followed.memory = followed.memory) :
    (followed.step destination (.request side request)).Faithful held := by
  refine faithful.change side ?_ part ?_
  · rw [unchanged]
  · rw [unchanged, unasked, faithful.same]

/-- Setting a value writes the whole data or changes memory alone. -/
theorem Faithful.set (faithful : followed.Faithful held) (holds : destination.Holds held)
    (side : Side) (key : String) (value : Value) (policy : WritePolicy) :
    (followed.step destination (.request side (.backend (.set key value policy)))).Faithful
      held := by
  have restricted := faithful.restricted
  have same := faithful.same
  cases writes : policy.resolve followed.store.writesByDefault with
  | true =>
    refine @Faithful.write σ destination held followed faithful holds side _
      (followed.store.cache.insert key value) ?_ writes fun _ => ?_
    · simp only [SyncedStore.perform, Backend.perform, Backend.synced,
        SyncedStore.set_of_restricted restricted writes]
    · rw [same]
      rfl
  | false =>
    -- Nothing is written, and both memories take the value.
    refine faithful.change side ?_ writes ?_
    · simp [SyncedStore.perform, Backend.perform, Backend.synced,
        SyncedStore.set_of_unwritten writes]
    · simp [SyncedStore.perform, Backend.perform, Backend.synced,
        SyncedStore.set_of_unwritten writes, StoreRequest.follow, StoreRequest.toMemory,
        Backend.memory, same]

/-- Data that is read replaces the memory as well, and a failed read leaves both as they are. -/
theorem Faithful.readData (faithful : followed.Faithful held) (holds : destination.Holds held)
    (side : Side) :
    (followed.step destination (.request side (.backend .readData))).Faithful held := by
  have reached := SyncedStore.readData_store destination side followed.store
  have answer := SyncedStore.readData_answer destination side followed.store
  -- Whatever is read is left outside, and it is what both memories hold afterwards.
  refine faithful.change side ?_ rfl ?_
  · change held (followed.store.readData destination side).2.outside = _
    rw [reached]
    exact holds.readAll_keeps side followed.store.outside
  · change (followed.store.readData destination side).2.cache =
      StoreRequest.follow side (.backend .readData)
        ((followed.store.readData destination side).1.map .data) followed.memory
    rw [reached, answer]
    cases (destination.readAll side followed.store.outside).1 with
    | error error => exact faithful.same
    | ok data => rfl

/-- Every request to a restricted store keeps its memory faithful. -/
theorem Faithful.perform (faithful : followed.Faithful held) (holds : destination.Holds held)
    (side : Side) (request : StoreRequest) :
    (followed.step destination (.request side request)).Faithful held := by
  have restricted := faithful.restricted
  have same := faithful.same
  -- A request leaves the store as it was, changes memory alone, or writes the whole data outside.
  cases request with
  | backend request =>
    cases request with
    | data => exact faithful.unchanged side rfl rfl rfl
    -- Queries are answered from memory.
    | get key fallback =>
      have answers : followed.store.get destination side key fallback = _ :=
        SyncedStore.get_of_restricted restricted fallback
      exact faithful.unchanged side (congrArg Prod.snd answers :) rfl rfl
    | getOr key default fallback =>
      have memory := Backend.memory_getOr side key default fallback followed.memory
      exact faithful.unchanged side (SyncedStore.getOr_of_restricted restricted default fallback)
        rfl (congrArg Prod.snd memory :)
    | set key value policy => exact faithful.set holds side key value policy
    | overwrite data =>
      exact faithful.write holds side (SyncedStore.perform_overwrite ..) rfl fun _ => rfl
    | update overrides =>
      refine faithful.write holds side (SyncedStore.perform_update ..) rfl fun _ => ?_
      rw [same]
      rfl
    | readData => exact faithful.readData holds side
  | writeData =>
    exact @Faithful.write σ destination held followed faithful holds side _ followed.store.cache
      rfl rfl fun _ => same.symm
  -- A restricted store refuses single calls without asking its destination.
  | writeDatum key value =>
    have refused : followed.store.writeDatum destination side key value = _ :=
      SyncedStore.writeDatum_of_restricted restricted value
    exact faithful.unchanged side (congrArg Prod.snd refused :) rfl rfl
  | readDatum key =>
    have refused : followed.store.readDatum destination side key = _ :=
      SyncedStore.readDatum_of_restricted restricted
    exact faithful.unchanged side (congrArg Prod.snd refused :) rfl rfl
  | setWriteDefault writes => exact faithful.change side rfl rfl same

/-- Every run of a restricted store keeps its memory faithful. -/
theorem Faithful.run (faithful : followed.Faithful held) (holds : destination.Holds held)
    (moves : List (Move σ)) : (followed.run destination moves).Faithful held := by
  -- The induction is on the moves still to come, and each one hands faithfulness to the next.
  induction moves generalizing followed with
  | nil => exact faithful
  | cons first rest ih =>
    have stepped : (followed.step destination first).Faithful held := by
      cases first with
      | request side request => exact faithful.perform holds side request
      -- An edit changes nothing in memory, and nothing is known of what is outside then.
      | edit outside =>
        exact ⟨faithful.restricted, faithful.same, fun _ written => by cases written⟩
    exact ih stepped

end Step

end Followed

/--
A store restricted to whole reads and writes answers every query as its memory does.

Its destination holds the data of that memory at the last successful write, until it is edited.
-/
theorem SyncedStore.restricted_refines_memory {destination : Destination σ} {held : σ → Data}
    (holds : destination.Holds held) {store : SyncedStore σ}
    (restricted : store.fullSyncOnly = true) (moves : List (Move σ)) :
    let reached := (Followed.start held store).run destination moves
    reached.store = store.run destination moves ∧
      (∀ side query, query.IsQuery →
        (reached.store.perform destination side (.backend query)).1 =
          (Backend.memory.perform side query reached.memory).1) ∧
      ∀ data, reached.written = some data → held reached.store.outside = data := by
  intro reached
  have started : (Followed.start held store).Faithful held :=
    ⟨restricted, rfl, fun data same => Option.some.inj same⟩
  have faithful : reached.Faithful held := started.run holds moves
  refine ⟨Followed.run_store destination _ moves, fun side query isQuery => ?_, faithful.holds⟩
  -- A query is answered from memory, which is the same on both sides.
  have answers key fallback : reached.store.get destination side key fallback =
      (.ok (reached.memory.get? key), reached.store) := by
    rw [← faithful.same]
    exact SyncedStore.get_of_restricted faithful.restricted fallback
  cases query with
  | data => exact congrArg (fun cache => Except.ok (Reply.data cache)) faithful.same
  | get key fallback =>
    exact congrArg (fun outcome => outcome.1.map Reply.value) (answers key fallback)
  | getOr key default fallback =>
    rw [SyncedStore.perform_getOr, answers, Backend.memory_getOr]
    rfl
  | _ => exact isQuery.elim

/-- A recorder holds the data that it is given. -/
theorem Recorder.holds (perKey : Bool) : (Recorder.destination perKey).Holds Recorder.data where
  writeAll_stores side data recorder answered := by
    simp only [Recorder.destination] at answered ⊢
    split at answered <;> simp_all
  writeAll_fails side data recorder error answered := by
    simp only [Recorder.destination] at answered ⊢
    -- The data that could not be written is not kept, and only the call is recorded.
    split at answered <;> simp_all [Recorder.log]
  readAll_keeps side recorder := by
    simp only [Recorder.destination]
    split <;> rfl

/-- A value that was lost outside is answered from memory, and the next write brings it outside. -/
theorem SyncedStore.restricted_after_lost_write :
    let destination := Recorder.destination true
    let failing : Recorder := { Recorder.holding [] with writeFailure := some (.remote "lost") }
    let store := (SyncedStore.new destination (Recorder.holding [("old", .null)]) true).bulkOnly
    let moves : List (Move Recorder) :=
      [.request .sync (.backend .readData), .edit failing,
        .request .async (.backend (.set "new" (.bool true) .default)),
        .edit (Recorder.holding []), .request .sync .writeData]
    let reached := store.run destination moves
    ((store.run destination (moves.take 3)).perform destination .sync
        (.backend (.get "new" .propagate))).1 = .ok (.value (some (.bool true))) ∧
      (store.run destination (moves.take 3)).outside.data = [] ∧
      reached.outside.data = [("old", .null), ("new", .bool true)] := by
  intro destination failing store moves reached
  have restricted : store.fullSyncOnly = true := rfl
  -- The write of the third move fails, and the last move writes what memory kept.
  have lost := restricted_refines_memory (Recorder.holds true) restricted (moves.take 3)
  have written := restricted_refines_memory (Recorder.holds true) restricted moves
  refine ⟨?_, rfl, ?_⟩
  · rw [← lost.1]
    exact lost.2.1 .sync (.get "new" .propagate) trivial
  · have same := written.2.2 _ rfl
    rwa [written.1] at same

end SyncStore
