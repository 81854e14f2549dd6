import SyncStore.Proofs.Remote.Service
import SyncStore.Proofs.Store.Run

/-! The memory of a store is all that its run has told it, and serves while reads outside fail. -/

namespace SyncStore

/--
What a move of a run tells about the data outside or in memory.

- `one`: the value of one key was set, or found outside
- `several`: the values of several keys were set
- `all`: all data was replaced, or read from outside
-/
inductive News where
  | nothing
  | one (key : String) (value : Value)
  | several (overrides : Data)
  | all (data : Data)

namespace News

/-- What is known changes by what is told, and by nothing else. -/
def learn (known : Data) : News → Data
  | .nothing => known
  | .one key value => known.insert key value
  | .several overrides => known.merge overrides
  | .all data => data

/-- A read of one key tells the value that it found. -/
def ofFound (key : String) : Except StoreError (Option Value) → News
  | .ok (some value) => .one key value
  | _ => .nothing

/-- A read of the whole data tells it only when it came to its end. -/
def ofLoaded : Except StoreError Data → News
  | .ok data => .all data
  | .error _ => .nothing

end News

variable {σ : Type}

/--
What a move tells when the destination is in some outside state.

What is set counts whether or not it is written outside, and a write alone tells nothing.
-/
def Move.news (destination : Destination σ) (outside : σ) : Move σ → News
  | .request _ (.backend (.set key value _)) => .one key value
  | .request _ (.backend (.overwrite data)) => .all data
  | .request _ (.backend (.update overrides)) => .several overrides
  | .request side (.backend (.get key _)) =>
    .ofFound key (destination.readOne side key outside).1
  | .request side (.backend (.getOr key _ _)) =>
    .ofFound key (destination.readOne side key outside).1
  | .request side (.backend .readData) => .ofLoaded (destination.readAll side outside).1
  | _ => .nothing

namespace SyncedStore

/-- What the moves of a run tell, one after the other. -/
def news (destination : Destination σ) (store : SyncedStore σ) : List (Move σ) → List News
  | [] => []
  | first :: rest =>
    first.news destination store.outside :: (store.move destination first).news destination rest

/-- What is known after a run is what its moves told, from nothing on. -/
def lastKnown (destination : Destination σ) (store : SyncedStore σ) (moves : List (Move σ)) :
    Data :=
  (store.news destination moves).foldl News.learn []

variable (destination : Destination σ) {store : SyncedStore σ}

/-- A read through teaches memory the value that it finds. -/
theorem get_cache (side : Side) (key : String) (fallback : Fallback)
    (single : store.fullSyncOnly = false) :
    (get destination side key fallback store).2.cache =
      News.learn store.cache (.ofFound key (destination.readOne side key store.outside).1) := by
  -- A failed read and one that finds nothing leave memory as it was.
  rcases answered : (destination.readOne side key store.outside).1 with error | _ | value
  · rw [get_of_failed single answered]
    rfl
  · rw [get_of_absent single answered]
    rfl
  · rw [get_of_found single answered]
    rfl

/-- A read of the whole data teaches memory all of it when it succeeds. -/
theorem readData_cache (side : Side) :
    (readData destination side store).2.cache =
      News.learn store.cache (.ofLoaded (destination.readAll side store.outside).1) := by
  rw [readData_store]
  cases (destination.readAll side store.outside).1 with
  | error error => rfl
  | ok data => rfl

/-- Memory learns from each move what the move tells. -/
theorem move_cache (single : store.fullSyncOnly = false) (move : Move σ) :
    (store.move destination move).cache =
      News.learn store.cache (move.news destination store.outside) := by
  -- What a request tells depends on the destination only where something is read into memory.
  cases move with
  | edit outside => rfl
  | request side request =>
    cases request with
    | backend request =>
      cases request with
      | data => rfl
      | get key fallback => exact get_cache destination side key fallback single
      | getOr key default fallback =>
        rw [move, perform_getOr]
        exact get_cache destination side key fallback single
      -- A value is set in memory before it is written outside.
      | set key value policy =>
        obtain ⟨outside, same⟩ := set_store destination side store key value policy
        exact (congrArg cache same :)
      | overwrite data =>
        rw [move, perform_overwrite, perform_writeData]
        rfl
      | update overrides =>
        rw [move, perform_update, perform_writeData]
        rfl
      | readData => exact readData_cache destination side
    | writeData =>
      rw [move, perform_writeData]
      rfl
    | writeDatum key value =>
      obtain ⟨outside, same⟩ := writeDatum_store destination side store key value
      exact (congrArg cache same :)
    | readDatum key =>
      obtain ⟨outside, same⟩ := readDatum_store destination side store key
      exact (congrArg cache same :)
    | setWriteDefault writes => rfl

/-- A move leaves a store that reads single keys one that does. -/
theorem move_single (single : store.fullSyncOnly = false) (move : Move σ) :
    (store.move destination move).fullSyncOnly = false :=
  (run_fullSyncOnly destination store [move]).trans single

/-- Memory learns from a run what its moves tell, one after the other. -/
theorem run_cache (single : store.fullSyncOnly = false) (moves : List (Move σ)) :
    (store.run destination moves).cache =
      (store.news destination moves).foldl News.learn store.cache := by
  -- The induction is on the moves still to come, from whatever memory has learned so far.
  induction moves generalizing store with
  | nil => rfl
  | cons first rest ih =>
    have learned := move_cache destination single first
    have later := ih (move_single destination single first)
    rw [learned] at later
    exact later

/--
A store without restrictions knows in memory just what its run has told it.

A read that falls back never fails. While the read outside fails it answers from what is known, and
any other read tells the failure and leaves memory alone. When the read succeeds both answer alike.
-/
theorem cached_read_serves_last_known (empty : store.cache = [])
    (single : store.fullSyncOnly = false) (moves : List (Move σ)) :
    let reached := store.run destination moves
    let known := store.lastKnown destination moves
    reached.cache = known ∧
      ∀ side key,
        (∃ found, (reached.get destination side key .cached).1 = .ok found) ∧
        (∀ error, (destination.readOne side key reached.outside).1 = .error error →
          (reached.get destination side key .cached).1 = .ok (known.get? key) ∧
            (∀ default, ((Backend.synced destination).getOr side key default .cached reached).1 =
              .ok ((known.get? key).getD default)) ∧
            (reached.get destination side key .propagate).1 = .error error ∧
            (reached.get destination side key .propagate).2.cache = reached.cache) ∧
        ∀ found, (destination.readOne side key reached.outside).1 = .ok found →
          (reached.get destination side key .cached).1 = .ok found ∧
            reached.get destination side key .cached =
              reached.get destination side key .propagate := by
  intro reached known
  have same : reached.cache = known := by
    -- Memory learned from nothing on.
    have learned := run_cache destination single moves
    rwa [empty] at learned
  have single : reached.fullSyncOnly = false :=
    (run_fullSyncOnly destination store moves).trans single
  refine ⟨same, fun side key => ⟨?answers, fun error failed => ?stale, fun found read => ?fresh⟩⟩
  case answers =>
    -- Whatever the read outside answers, a read that falls back has an answer.
    rcases answered : (destination.readOne side key reached.outside).1 with error | _ | value
    · exact ⟨_, congrArg Prod.fst (get_of_failed single answered .cached)⟩
    · exact ⟨_, congrArg Prod.fst (get_of_absent single answered .cached)⟩
    · exact ⟨_, congrArg Prod.fst (get_of_found single answered .cached)⟩
  case stale =>
    have cached := get_of_failed single failed .cached
    have propagated := get_of_failed single failed .propagate
    rw [same] at cached
    refine ⟨congrArg Prod.fst cached, fun default => ?_, congrArg Prod.fst propagated,
      congrArg (fun outcome => outcome.2.cache) propagated⟩
    -- A default stands in for a key that is not known.
    rw [Backend.getOr_eq]
    exact congrArg (fun outcome => outcome.1.map (·.getD default)) cached
  case fresh =>
    -- A read that succeeds never comes to the fallback.
    cases found with
    | none =>
      have cached := get_of_absent single read .cached
      exact ⟨congrArg Prod.fst cached, cached.trans (get_of_absent single read .propagate).symm⟩
    | some value =>
      have cached := get_of_found single read .cached
      exact ⟨congrArg Prod.fst cached, cached.trans (get_of_found single read .propagate).symm⟩

/-- A value whose write was lost is served while a read of all data breaks off in its scan. -/
theorem cached_read_after_broken_scan :
    let clients side := (Service.client side).lossy
    let destination := Remote.destination clients ⟨1, by decide, by decide⟩
    let service := { Service.empty with
      contents := [("a", .text "true"), ("b", .text "null")],
      script := some [(1, ["a"]), (0, ["b"])] }
    let lost : Option StoreError := some (.remote "lost")
    let store : SyncedStore (List (Option StoreError) × Service) :=
      ⟨[], ([none, lost, none, none, none, lost, lost], service), true, false⟩
    let moves : List (Move (List (Option StoreError) × Service)) :=
      [.request .async (.backend (.get "b" .cached)),
        .request .sync (.backend (.set "a" (.bool false) .default)),
        .request .async (.backend .readData)]
    let reached := store.run destination moves
    (reached.get destination .sync "a" .cached).1 = .ok (some (.bool false)) ∧
      reached.cache = [("b", decodeValue "null"), ("a", .bool false)] := by
  intro clients destination service lost store moves reached
  have empty : store.cache = [] := rfl
  have single : store.fullSyncOnly = false := rfl
  -- The read of all data fails after its first page, and the last read fails at once.
  obtain ⟨same, reads⟩ := cached_read_serves_last_known destination empty single moves
  obtain ⟨stale, _⟩ := (reads .sync "a").2.1 (.remote "lost") rfl
  exact ⟨stale, same⟩

end SyncedStore

end SyncStore
