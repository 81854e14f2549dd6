import SyncStore.Proofs.Store.Event
import SyncStore.Store.Recorder

/-! A store calls its destination at most once for each request, and never beyond its mode. -/

namespace SyncStore

variable {σ : Type}

/-- The calls on a destination and the sides they come from, in order. -/
abbrev CallLog := List (Side × DestinationCall)

/-- Calls that all come from one side. -/
def CallLog.from (side : Side) (calls : List DestinationCall) : CallLog := calls.map (side, ·)

/-- A call is noted with its side before it is made. -/
def noted {α : Type} (side : Side) (call : DestinationCall) (made : σ → Outcome σ α)
    (state : σ × CallLog) : Outcome (σ × CallLog) α :=
  ((made state.1).1, (made state.1).2, state.2 ++ [(side, call)])

/-- A destination beside the log of all calls on it, which are made as they were before. -/
def Destination.noted (destination : Destination σ) : Destination (σ × CallLog) where
  name := destination.name
  perKey := destination.perKey
  readAll side := SyncStore.noted side .readAll (destination.readAll side)
  writeAll side data := SyncStore.noted side (.writeAll data) (destination.writeAll side data)
  readOne side key := SyncStore.noted side (.readOne key) (destination.readOne side key)
  writeOne side key value :=
    SyncStore.noted side (.writeOne key value) (destination.writeOne side key value)

/-- A call that reads or writes the whole data. -/
def DestinationCall.IsWhole : DestinationCall → Prop
  | .readAll | .writeAll _ => True
  | .readOne _ | .writeOne _ _ => False

/-- A policy writes when it says so itself, or leaves it to a default that writes. -/
def WritePolicy.Writes (policy : WritePolicy) (writesByDefault : Bool) : Prop :=
  policy = .always ∨ policy = .default ∧ writesByDefault = true

instance (policy : WritePolicy) (writesByDefault : Bool) :
    Decidable (policy.Writes writesByDefault) :=
  inferInstanceAs (Decidable (policy = .always ∨ policy = .default ∧ writesByDefault = true))

/-- A policy resolves to a write exactly when it writes. -/
theorem WritePolicy.resolve_iff (policy : WritePolicy) (writesByDefault : Bool) :
    policy.resolve writesByDefault = true ↔ policy.Writes writesByDefault := by
  cases policy <;> simp [resolve, Writes]

/--
The calls that a request makes on a destination, when some data is in memory before it.

What is written whole is that data with the change of the request in it: the value that is set,
the overriding entries, or the data that replaces it.
-/
def StoreRequest.calls (fullSyncOnly writesByDefault : Bool) (cache : Data) :
    StoreRequest → List DestinationCall
  | .backend (.set key value policy) =>
    if policy.Writes writesByDefault then
      if fullSyncOnly then [.writeAll (cache.insert key value)] else [.writeOne key value]
    else []
  | .backend (.overwrite data) => [.writeAll data]
  | .backend (.update overrides) => [.writeAll (cache.merge overrides)]
  | .writeData => [.writeAll cache]
  | .backend (.get key _) | .backend (.getOr key _ _) | .readDatum key =>
    if fullSyncOnly then [] else [.readOne key]
  | .backend .readData => [.readAll]
  | .writeDatum key value => if fullSyncOnly then [] else [.writeOne key value]
  | .backend .data | .setWriteDefault _ => []

/-- No request makes more than one call. -/
theorem StoreRequest.calls_length (fullSyncOnly writesByDefault : Bool) (cache : Data)
    (request : StoreRequest) :
    (request.calls fullSyncOnly writesByDefault cache).length ≤ 1 := by
  unfold calls
  -- Every branch is one call or none.
  split <;> (repeat' split) <;> simp

/-- No request to a restricted store makes a call about a single key. -/
theorem StoreRequest.calls_whole (writesByDefault : Bool) (cache : Data)
    (request : StoreRequest) :
    ∀ call ∈ request.calls true writesByDefault cache, call.IsWhole := by
  unfold calls
  intro call member
  -- What a restricted store still calls is about the whole data.
  split at member <;> (try split at member) <;> simp_all [DestinationCall.IsWhole]

/-- The calls that an event makes; a change from outside makes none. -/
def Event.calls (store : SyncedStore σ) : Event σ → CallLog
  | .request side asked =>
    .from side (asked.calls store.fullSyncOnly store.writesByDefault store.cache)
  | .change _ => []

/-- The same event beside a log, which nobody changes from outside. -/
def Event.noted : Event σ → Event (σ × CallLog)
  | .request side asked => .request side asked
  | .change changed => .change (Prod.map changed id)

namespace SyncedStore

/-- The calls that events make one after the other. -/
def calls (destination : Destination σ) (store : SyncedStore σ) : List (Event σ) → CallLog
  | [] => []
  | event :: rest =>
    event.calls store ++ (store.meet destination event).store.calls destination rest

/-- A store over the same outside beside a log. -/
def withLog (store : SyncedStore σ) (log : CallLog) : SyncedStore (σ × CallLog) :=
  ⟨store.cache, (store.outside, log), store.writesByDefault, store.fullSyncOnly⟩

/-- An outcome is noted when a log has grown by some calls, and nothing else is different. -/
def Noted {α : Type} (side : Side) (log : CallLog) (calls : List DestinationCall)
    (outcome : Outcome (SyncedStore σ) α) : Outcome (SyncedStore (σ × CallLog)) α :=
  (outcome.1, outcome.2.withLog (log ++ .from side calls))

variable (destination : Destination σ) (side : Side) (store : SyncedStore σ) (log : CallLog)

/-- A write of the whole data is one call, with all that is in memory. -/
theorem perform_writeData_withLog :
    (store.withLog log).perform destination.noted side .writeData =
      Noted side log [.writeAll store.cache] (store.perform destination side .writeData) := by
  rw [perform_writeData, perform_writeData]
  rfl

/-- A write of one key is one call, unless it is refused. -/
theorem writeDatum_withLog (key : String) (value : Value) :
    (store.withLog log).writeDatum destination.noted side key value =
      Noted side log (if store.fullSyncOnly then [] else [.writeOne key value])
        (store.writeDatum destination side key value) := by
  obtain ⟨cache, outside, writesByDefault, fullSyncOnly⟩ := store
  cases fullSyncOnly with
  -- A refusal leaves the log as it is.
  | true => simp [writeDatum_eq, refuseSingle, withLog, Destination.noted, Noted, CallLog.from]
  | false =>
    rw [writeDatum_eq, writeDatum_eq]
    rfl

/-- A read of one key is one call, unless it is refused. -/
theorem readDatum_withLog (key : String) :
    (store.withLog log).readDatum destination.noted side key =
      Noted side log (if store.fullSyncOnly then [] else [.readOne key])
        (store.readDatum destination side key) := by
  obtain ⟨cache, outside, writesByDefault, fullSyncOnly⟩ := store
  cases fullSyncOnly with
  | true => simp [readDatum_eq, refuseSingle, withLog, Destination.noted, Noted, CallLog.from]
  | false =>
    rw [readDatum_eq, readDatum_eq]
    rfl

/-- A read of the whole data is one call, whether or not it succeeds. -/
theorem readData_withLog :
    (store.withLog log).readData destination.noted side =
      Noted side log [.readAll] (store.readData destination side) := by
  simp only [readData_eq, Destination.noted, SyncStore.noted, withLog]
  cases destination.readAll side store.outside with
  | mk answer outside => cases answer <;> rfl

/-- A read through is one call of a store without restrictions, and none of a restricted one. -/
theorem get_withLog (key : String) (fallback : Fallback) :
    (store.withLog log).get destination.noted side key fallback =
      Noted side log (if store.fullSyncOnly then [] else [.readOne key])
        (store.get destination side key fallback) := by
  cases restricted : store.fullSyncOnly with
  | true =>
    have same : (store.withLog log).fullSyncOnly = true := restricted
    rw [get_of_restricted same, get_of_restricted restricted]
    simp [Noted, CallLog.from, withLog]
  | false =>
    -- The call is made once, and what it answers decides about memory and not about the log.
    rw [get_eq, get_eq, readDatum_withLog, restricted]
    simp only [withLog, restricted, Noted]
    rcases readDatum destination side key store with ⟨error | _ | value, after⟩
    · cases fallback <;> rfl
    · rfl
    · rfl

/-- A set is one call when its policy writes, of the whole data or of the key that is set. -/
theorem set_withLog (key : String) (value : Value) (policy : WritePolicy) :
    (store.withLog log).set destination.noted side key value policy =
      Noted side log
        (if policy.Writes store.writesByDefault then
          if store.fullSyncOnly then [.writeAll (store.cache.insert key value)]
          else [.writeOne key value]
        else [])
        (store.set destination side key value policy) := by
  by_cases writes : policy.Writes store.writesByDefault
  · have resolved := (policy.resolve_iff store.writesByDefault).mpr writes
    rw [if_pos writes]
    cases restricted : store.fullSyncOnly with
    | true =>
      have same : (store.withLog log).fullSyncOnly = true := restricted
      rw [set_of_restricted restricted resolved, set_of_restricted same resolved, writeData_eq,
        writeData_eq]
      rfl
    | false =>
      have same : (store.withLog log).fullSyncOnly = false := restricted
      rw [set_of_single restricted resolved, set_of_single same resolved]
      rfl
  · -- The value is set in memory, and the destination hears nothing of it.
    have resolved : policy.resolve store.writesByDefault = false :=
      Bool.eq_false_iff.mpr fun resolves => writes ((policy.resolve_iff _).mp resolves)
    have same : policy.resolve (store.withLog log).writesByDefault = false := resolved
    rw [if_neg writes, set_of_unwritten resolved, set_of_unwritten same]
    simp [Noted, CallLog.from, withLog]

/-- Every request makes the calls that it calls for, and no others. -/
theorem perform_withLog (request : StoreRequest) :
    (store.withLog log).perform destination.noted side request =
      Noted side log
        (request.calls store.fullSyncOnly store.writesByDefault store.cache)
        (store.perform destination side request) := by
  -- Each request makes the calls of the one operation that it runs.
  cases request with
  | backend request =>
    cases request with
    | data =>
      simp [perform, Backend.perform, Backend.synced, Noted, StoreRequest.calls, CallLog.from,
        withLog]
    | get key fallback =>
      have called := get_withLog destination side store log key fallback
      simp only [perform, Backend.perform, Backend.synced, called]
      rfl
    | getOr key default fallback =>
      rw [perform_getOr, perform_getOr, get_withLog]
      rfl
    | set key value policy =>
      have called := set_withLog destination side store log key value policy
      simp only [perform, Backend.perform, Backend.synced, called, StoreRequest.calls]
      rfl
    | overwrite data =>
      rw [perform_overwrite, perform_overwrite]
      exact perform_writeData_withLog destination side { store with cache := data } log
    | update overrides =>
      rw [perform_update, perform_update]
      exact perform_writeData_withLog destination side
        { store with cache := store.cache.merge overrides } log
    | readData =>
      have called := readData_withLog destination side store log
      simp only [perform, Backend.perform, Backend.synced, called]
      rfl
  | writeData => exact perform_writeData_withLog destination side store log
  | writeDatum key value =>
    have called := writeDatum_withLog destination side store log key value
    simp only [perform, called]
    rfl
  | readDatum key =>
    have called := readDatum_withLog destination side store log key
    simp only [perform, called]
    rfl
  | setWriteDefault writes => simp [perform, Noted, StoreRequest.calls, CallLog.from, withLog]

/-- Every event makes the calls that it calls for. -/
theorem meet_withLog (event : Event σ) :
    ((store.withLog log).meet destination.noted event.noted).store =
      (store.meet destination event).store.withLog
        (log ++ event.calls store) := by
  cases event with
  | request side request =>
    exact congrArg Prod.snd (perform_withLog destination side store log request)
  | change change => simp [meet, Event.noted, Event.calls, withLog]

/-- The log of a run grows by the calls of its events, one after the other. -/
theorem live_withLog (events : List (Event σ)) :
    (store.withLog log).live destination.noted (events.map Event.noted) =
      (store.live destination events).withLog (log ++ store.calls destination events) := by
  -- The induction is on the events still to come, from whatever is in the log by then.
  induction events generalizing store log with
  | nil => simp [live, calls]
  | cons first rest ih =>
    have met := meet_withLog destination store log first
    have later := ih (store.meet destination first).store (log ++ first.calls store)
    rw [← met, List.append_assoc] at later
    exact later

/-- A run of a restricted store makes only calls about the whole data. -/
theorem calls_whole (restricted : store.fullSyncOnly = true) (events : List (Event σ)) :
    ∀ call ∈ store.calls destination events, call.2.IsWhole := by
  induction events generalizing store with
  | nil => simp [calls]
  | cons first rest ih =>
    intro call member
    rw [calls, List.mem_append] at member
    rcases member with now | later
    · -- The first event is a request, since a change makes no calls.
      cases first with
      | request side request =>
        rw [Event.calls, restricted] at now
        obtain ⟨made, member, rfl⟩ := List.mem_map.mp now
        exact StoreRequest.calls_whole _ _ request made member
      | change change => cases now
    · exact ih _ ((meet_fullSyncOnly destination store first).trans restricted) call later

/-- No run changes whether a store is restricted. -/
theorem live_fullSyncOnly (events : List (Event σ)) :
    (store.live destination events).fullSyncOnly = store.fullSyncOnly := by
  induction events generalizing store with
  | nil => rfl
  | cons first rest ih => exact (ih _).trans (meet_fullSyncOnly destination store first)

/--
A run makes exactly the calls that its requests call for, whatever fails or changes meanwhile.

Each request makes at most one call, and it answers as it would without the log. A store that is
restricted to whole reads and writes never calls its destination about a single key: it refuses to
read or write one, and stays as it is. Over a destination without single keys a new store is
restricted, and over any destination it can be.
-/
theorem run_makes_exact_calls (events : List (Event σ)) :
    let reached := store.live destination events
    let log := store.calls destination events
    (store.withLog []).live destination.noted (events.map Event.noted) = reached.withLog log ∧
    (∀ side request,
      let after := reached.perform destination side request
      let calls := request.calls reached.fullSyncOnly reached.writesByDefault reached.cache
      calls.length ≤ 1 ∧
        (reached.withLog log).perform destination.noted side request =
          (after.1, after.2.withLog (log ++ calls.map (side, ·)))) ∧
    (store.fullSyncOnly = true →
      (∀ call ∈ log, call.2.IsWhole) ∧
      ∀ side key value,
        reached.perform destination side (.writeDatum key value) =
          (.error (.unsupported destination.name "write_datum"), reached) ∧
        reached.perform destination side (.readDatum key) =
          (.error (.unsupported destination.name "read_datum"), reached)) ∧
    ∀ outside writes,
      (destination.perKey = false → (new destination outside writes).fullSyncOnly = true) ∧
        (new destination outside writes).bulkOnly.fullSyncOnly = true := by
  intro reached log
  refine ⟨?_, fun side request => ⟨?_, ?_⟩, fun restricted => ⟨?_, fun side key value => ?_⟩,
    fun outside writes => ⟨fun whole => ?_, rfl⟩⟩
  · -- The log starts empty.
    have ran := live_withLog destination store [] events
    rwa [List.nil_append] at ran
  · exact StoreRequest.calls_length _ _ _ request
  · exact perform_withLog destination side reached log request
  · exact calls_whole destination store restricted events
  · have still : reached.fullSyncOnly = true :=
      (live_fullSyncOnly destination store events).trans restricted
    -- Both requests are refused before anything is called.
    simp only [perform, writeDatum_of_restricted still, readDatum_of_restricted still]
    exact ⟨rfl, rfl⟩
  · simp [new, whole]

/-- A forced store writes all its data when its changed default and a set, or an update, ask. -/
theorem run_makes_exact_calls_of_forced_store :
    let destination := Recorder.destination true
    let store := (new destination (Recorder.holding []) false).bulkOnly
    let events : List (Event Recorder) :=
      [.request .sync (.backend (.set "a" .null .default)),
        .request .async (.setWriteDefault true),
        .change fun recorder => { recorder with writeFailure := some (.remote "lost") },
        .request .async (.backend (.set "b" (.bool true) .default)),
        .request .sync (.backend (.set "c" .null .never)),
        .request .sync (.backend (.update [("b", .null), ("d", .null)])),
        .request .sync (.readDatum "a"),
        .request .sync (.backend (.get "a" .propagate))]
    ((store.withLog []).live destination.noted (events.map Event.noted)).outside.2 =
        [(.async, .writeAll [("a", .null), ("b", .bool true)]),
          (.sync, .writeAll [("a", .null), ("b", .null), ("c", .null), ("d", .null)])] ∧
      ∀ call ∈ store.calls destination events, call.2.IsWhole := by
  intro destination store events
  have restricted : store.fullSyncOnly = true := rfl
  obtain ⟨ran, -, whole, -⟩ := run_makes_exact_calls destination store events
  -- The first call fails and is not made again.
  exact ⟨congrArg (fun reached => reached.outside.2) ran, (whole restricted).1⟩

end SyncedStore

end SyncStore
