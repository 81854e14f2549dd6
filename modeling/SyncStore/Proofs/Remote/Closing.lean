import SyncStore.Proofs.Remote.Redis
import SyncStore.Proofs.Remote.Sides
import SyncStore.Proofs.Store.Refused

/-! A closed connection refuses its side for good, and the other side goes on as before. -/

namespace SyncStore

namespace Service

/-- A closed connection serves nothing, but what was asked is logged. -/
theorem serve_of_closed {α : Type} {service : Service} {side : Side}
    (closed : service.isOpen side = false) (command : ServiceCommand)
    (answer : Service → Outcome Service α) :
    service.serve side command answer =
      (.error (.connectionFailed closedReason), service.log side command) := by
  rw [serve, if_pos (by simp [closed])]

/-- The same service with other connections open. -/
def withOpen (isOpen : Side → Bool) (service : Service) : Service :=
  { service with isOpen := isOpen }

/-- The same service with the connection of one side closed. -/
def closedBy (side : Side) (service : Service) : Service :=
  service.withOpen fun other => service.isOpen other && other ≠ side

/-- Two services are the same but for which of their connections are open. -/
def OpenAs (before after : Side → Bool) (one other : Service) : Prop :=
  one.isOpen = before ∧ other = one.withOpen after

variable {before after : Side → Bool} {one other : Service}

/-- A command has alike outcomes when its side is as open in both services. -/
theorem OpenAs.serve_alike {α : Type} {answer : Service → Outcome Service α} {side : Side}
    (agree : before side = after side)
    (answers : ∀ one other, OpenAs before after one other →
      AlikeOutcomes (OpenAs before after) (answer one) (answer other))
    (command : ServiceCommand) (same : OpenAs before after one other) :
    AlikeOutcomes (OpenAs before after) (one.serve side command answer)
      (other.serve side command answer) := by
  obtain ⟨rfl, rfl⟩ := same
  have logged : OpenAs one.isOpen after (one.log side command)
      ((one.withOpen after).log side command) := ⟨rfl, rfl⟩
  have answered := answers _ _ logged
  have opened : (one.withOpen after).isOpen side = one.isOpen side := agree.symm
  have failing : (one.withOpen after).failure = one.failure := rfl
  unfold serve
  simp only [opened, failing]
  -- Both refuse the command, or both fail, or both answer.
  split
  · exact ⟨rfl, logged⟩
  · cases one.failure with
    | some error => exact ⟨rfl, logged⟩
    | none => exact answered

end Service

/-- The kinds of connections that a service is reached over. -/
inductive Connections where
  | inMemory
  | redis

namespace Connections

open Service (OpenAs)

/-- The connection of each side. -/
def client : Connections → Side → Client Service
  | .inMemory => Service.client
  | .redis => Redis.client

/-- The reason given over a closed connection. -/
def closedReason : Connections → String
  | .inMemory => Service.closedReason
  | .redis => Redis.closedReason

/-- The failure of everything that is asked over a closed connection. -/
def refusal (connections : Connections) : StoreError :=
  .connectionFailed connections.closedReason

/-- A command goes out over a connection of one kind. -/
def command {α : Type} (connections : Connections) (side : Side) (command : ServiceCommand)
    (answer : Service → Outcome Service α) : Service → Outcome Service α :=
  match connections with
  | .inMemory => Service.serve side command answer
  | .redis => Redis.sent side command answer

variable (connections : Connections) (side : Side)

theorem get_eq (key : String) :
    (connections.client side).get key =
      connections.command side (.get key) fun service => (service.lookup key, service) := by
  cases connections with
  | inMemory => rfl
  | redis => exact Redis.client_get side key

theorem set_eq (key raw : String) :
    (connections.client side).set key raw =
      connections.command side (.set key raw) fun service => (.ok (), service.store key raw) := by
  cases connections with
  | inMemory => rfl
  | redis => exact Redis.client_set side key raw

theorem scan_eq (cursor : Cursor) (pattern : String) (count : Nat) :
    (connections.client side).scan cursor pattern count =
      connections.command side (.scan cursor pattern count) fun service =>
        (.ok (service.scanStep cursor pattern count).1,
          (service.scanStep cursor pattern count).2) := by
  cases connections with
  | inMemory => rfl
  | redis => exact Redis.client_scan side cursor pattern count

theorem ping_eq :
    (connections.client side).ping =
      connections.command side .ping fun service => (.ok "PONG", service) := by
  cases connections with
  | inMemory => rfl
  | redis => exact Redis.client_ping side

theorem close_eq (service : Service) :
    (connections.client side).close service = (.ok (), service.closedBy side) := by
  cases connections with
  | inMemory => rfl
  | redis => exact congrFun (Redis.client_close side) service

/-- A read of several keys is a command, unless it is answered at once because there are none. -/
theorem getMany_cases (keys : List String) :
    ((connections.client side).getMany keys =
      connections.command side (.getMany keys) fun service =>
        ((keys.mapM service.lookup).map (Service.withSurplus service.surplus), service)) ∨
    (connections.client side).getMany keys = fun service => (.ok [], service) := by
  cases connections with
  | inMemory => exact .inl rfl
  | redis =>
    -- Only these connections leave out a command without keys.
    rw [client, Redis.client_getMany]
    by_cases empty : keys.isEmpty
    · exact .inr (if_pos empty)
    · exact .inl (if_neg empty)

/-- A write of some pairs is a command over either kind. -/
theorem setMany_eq {pairs : List (String × String)} (filled : pairs ≠ []) :
    (connections.client side).setMany pairs =
      connections.command side (.setMany pairs) fun service =>
        (.ok (), service.storeMany pairs) := by
  cases connections with
  | inMemory => rfl
  | redis =>
    rw [client, Redis.client_setMany]
    exact if_neg (by simpa using filled)

/-- A write of several pairs is a command, unless it is answered at once because there are none. -/
theorem setMany_cases (pairs : List (String × String)) :
    ((connections.client side).setMany pairs =
      connections.command side (.setMany pairs) fun service =>
        (.ok (), service.storeMany pairs)) ∨
    (connections.client side).setMany pairs = fun service => (.ok (), service) := by
  by_cases filled : pairs = []
  · subst filled
    cases connections with
    | inMemory => exact .inl rfl
    | redis => exact .inr (Redis.client_setMany side [])
  · exact .inl (connections.setMany_eq side filled)

variable {connections side} {service : Service}

/-- A command over a closed connection fails, and at most the log tells of it. -/
theorem command_of_closed {α : Type} (closed : service.isOpen side = false)
    (asked : ServiceCommand) (answer : Service → Outcome Service α) :
    ∃ calls, connections.command side asked answer service =
      (.error connections.refusal, service.withCalls calls) := by
  cases connections with
  | inMemory => exact ⟨_, Service.serve_of_closed closed asked answer⟩
  | redis => exact ⟨service.calls, if_neg (by simp [closed])⟩

/-- A closed connection refuses every call on a remote destination. -/
theorem refuses_of_closed (closed : service.isOpen side = false) (size : BatchSize) :
    (Remote.destination connections.client size).Refuses side connections.refusal
      (fun after => ∃ calls, after = service.withCalls calls) service where
  readAll := by
    have scan : ∃ calls, (connections.client side).scan 0 Remote.everyKey size.val service =
        (.error connections.refusal, service.withCalls calls) := by
      rw [scan_eq]
      exact command_of_closed closed _ _
    obtain ⟨calls, failed⟩ := scan
    refine ⟨_, ⟨calls, rfl⟩, ?_⟩
    -- A first step of the scan is always taken, and it fails.
    rw [Remote.destination_readAll, Remote.readAll, Remote.scanFrom, failed]
  writeAll data filled := by
    have pairs : Remote.encoded data ≠ [] := by simpa [Remote.encoded] using filled
    have setMany : ∃ calls, (connections.client side).setMany (Remote.encoded data) service =
        (.error connections.refusal, service.withCalls calls) := by
      rw [setMany_eq connections side pairs]
      exact command_of_closed closed _ _
    -- There are entries to write, so the write is no success without a command.
    obtain ⟨calls, failed⟩ := setMany
    refine ⟨_, ⟨calls, rfl⟩, ?_⟩
    rw [Remote.destination_writeAll, Remote.writeAll, if_neg (by simpa using filled)]
    exact failed
  readOne key := by
    have get : ∃ calls, (connections.client side).get key service =
        (.error connections.refusal, service.withCalls calls) := by
      rw [get_eq]
      exact command_of_closed closed _ _
    obtain ⟨calls, failed⟩ := get
    refine ⟨_, ⟨calls, rfl⟩, ?_⟩
    rw [Remote.destination_readOne, Remote.readOne, failed]
    rfl
  writeOne key value := by
    have set : ∃ calls, (connections.client side).set key (encodeValue value) service =
        (.error connections.refusal, service.withCalls calls) := by
      rw [set_eq]
      exact command_of_closed closed _ _
    obtain ⟨calls, failed⟩ := set
    refine ⟨_, ⟨calls, rfl⟩, ?_⟩
    rw [Remote.destination_writeOne, Remote.writeOne, failed]

/-- A write of no entries asks nothing of a connection. -/
theorem skipsEmpty (connections : Connections) (size : BatchSize) :
    (Remote.destination connections.client size).SkipsEmpty := by
  intro side service
  rw [Remote.destination_writeAll]
  rfl

/-- A ping over a closed connection fails like everything else. -/
theorem ping_of_closed (connections : Connections) (closed : service.isOpen side = false) :
    ∃ calls, (connections.client side).ping service =
      (.error connections.refusal, service.withCalls calls) := by
  rw [ping_eq]
  exact command_of_closed closed _ _

/-- A closed connection is closed again without further effect. -/
theorem closedBy_of_closed (closed : service.isOpen side = false) :
    service.closedBy side = service := by
  have same : (fun other => service.isOpen other && other ≠ side) = service.isOpen := by
    funext other
    -- The closed side was shut before, and every other side is as it was.
    by_cases closing : other = side
    · rw [closing, closed, Bool.false_and]
    · simp [closing]
  rw [Service.closedBy, same]
  rfl

section Openness

variable {before after : Side → Bool} {one other : Service}

/-- A command has alike outcomes over both kinds, when its side is as open in both services. -/
theorem command_alike {α : Type} {answer : Service → Outcome Service α}
    (agree : before side = after side)
    (answers : ∀ one other, OpenAs before after one other →
      AlikeOutcomes (OpenAs before after) (answer one) (answer other))
    (asked : ServiceCommand) (same : OpenAs before after one other) :
    AlikeOutcomes (OpenAs before after) (connections.command side asked answer one)
      (connections.command side asked answer other) := by
  have served := same.serve_alike agree answers asked
  cases connections with
  | inMemory => exact served
  | redis =>
    obtain ⟨rfl, rfl⟩ := same
    have opened : (one.withOpen after).isOpen side = one.isOpen side := agree.symm
    -- Both commands go out, or none does.
    simp only [command, Redis.sent, opened]
    split
    · exact served
    · exact ⟨rfl, rfl, rfl⟩

/-- A connection works alike whichever other connections are open. -/
theorem client_twins (agree : before side = after side) :
    (connections.client side).Twins (connections.client side) (OpenAs before after) where
  get key one other same := by
    rw [get_eq]
    refine command_alike agree ?_ _ same
    rintro one _ ⟨rfl, rfl⟩
    exact ⟨rfl, rfl, rfl⟩
  set key raw one other same := by
    rw [set_eq]
    refine command_alike agree ?_ _ same
    rintro one _ ⟨rfl, rfl⟩
    exact ⟨rfl, rfl, rfl⟩
  getMany keys one other same := by
    rcases connections.getMany_cases side keys with sent | skipped
    · rw [sent]
      refine command_alike agree ?_ _ same
      rintro one _ ⟨rfl, rfl⟩
      exact ⟨rfl, rfl, rfl⟩
    · rw [skipped]
      exact ⟨rfl, same⟩
  setMany pairs one other same := by
    rcases connections.setMany_cases side pairs with sent | skipped
    · rw [sent]
      refine command_alike agree ?_ _ same
      rintro one _ ⟨rfl, rfl⟩
      -- Stored pairs change nothing but the contents.
      rw [Service.storeMany_eq, Service.storeMany_eq]
      exact ⟨rfl, rfl, rfl⟩
    · rw [skipped]
      exact ⟨rfl, same⟩
  scan cursor pattern count one other same := by
    rw [scan_eq]
    refine command_alike agree ?_ _ same
    rintro one _ ⟨rfl, rfl⟩
    -- A scan step takes at most an answer from the script.
    unfold Service.scanStep
    rw [show (one.withOpen after).script = one.script from rfl]
    rcases one.script with _ | _ | ⟨answer, rest⟩ <;> exact ⟨rfl, rfl, rfl⟩
  stepsLeft one other same := by
    obtain ⟨rfl, rfl⟩ := same
    cases connections with
    | inMemory => rfl
    | redis =>
      rw [client, Redis.client_stepsLeft]
      rfl

/-- A ping has alike outcomes whichever other connections are open. -/
theorem ping_alike (agree : before side = after side) (same : OpenAs before after one other) :
    AlikeOutcomes (OpenAs before after) ((connections.client side).ping one)
      ((connections.client side).ping other) := by
  rw [ping_eq]
  refine command_alike agree ?_ _ same
  rintro one _ ⟨rfl, rfl⟩
  exact ⟨rfl, rfl, rfl⟩

end Openness

/-- What is asked from a side goes over the connection of that side alone. -/
theorem perform_oneSided (size : BatchSize) (store : SyncedStore Service)
    (request : StoreRequest) :
    store.perform (Remote.destination connections.client size) side request =
      store.perform (Remote.destination (fun _ => connections.client side) size) side request := by
  -- Each of the two texts calls its own side and no other.
  cases side <;>
  cases request with
  | backend request => cases request <;> rfl
  | _ => rfl

/-- A request keeps every connection as it is, and does not look at those of other sides. -/
theorem perform_withOpen (connections : Connections) (size : BatchSize)
    (store : SyncedStore Service) (request : StoreRequest) {isOpen : Side → Bool}
    (agree : isOpen side = store.outside.isOpen side) :
    let destination := Remote.destination connections.client size
    let after := store.perform destination side request
    after.2.outside.isOpen = store.outside.isOpen ∧
      { store with outside := store.outside.withOpen isOpen }.perform destination side request =
        (after.1, { after.2 with outside := after.2.outside.withOpen isOpen }) := by
  intro destination after
  have agrees : (Remote.destination (fun _ => connections.client side) size).SidesAgree
      (OpenAs store.outside.isOpen isOpen) :=
    Remote.sidesAgree (fun _ _ => client_twins agree.symm) size
  have same : store.Alike (OpenAs store.outside.isOpen isOpen)
      { store with outside := store.outside.withOpen isOpen } := ⟨rfl, ⟨rfl, rfl⟩, rfl, rfl⟩
  have performed := SyncedStore.perform_alike agrees same side side request
  rw [← perform_oneSided, ← perform_oneSided] at performed
  -- Both runs answer alike, and the connections of the first one are what they were.
  obtain ⟨answer, cache, ⟨kept, opened⟩, writesByDefault, fullSyncOnly⟩ := performed
  refine ⟨kept, Prod.ext answer.symm ?_⟩
  -- Both stores have the same parts, and the services outside differ in their connections alone.
  generalize SyncedStore.perform destination side request
    { store with outside := store.outside.withOpen isOpen } = other at *
  obtain ⟨_, cache', outside', writesByDefault', fullSyncOnly'⟩ := other
  simp only at *
  subst cache opened writesByDefault fullSyncOnly
  rfl

end Connections

/--
Something that happens to a store over two connections, or to the service behind them.

- `request`: something is asked of the store, from one side
- `ping`: the service is asked whether it can be reached
- `disconnect`: the connection of the side is closed
- `edit`: somebody else replaces what the service holds
-/
inductive Act where
  | request (side : Side) (request : StoreRequest)
  | ping (side : Side)
  | disconnect (side : Side)
  | edit (service : Service)

namespace Act

/-- The side that an act comes from, unless it comes from somebody else. -/
def side? : Act → Option Side
  | .request side _ | .ping side | .disconnect side => some side
  | .edit _ => none

/-- An act closes the connection of a side. -/
def closes (side : Side) : Act → Bool
  | .disconnect closed => closed = side
  | _ => false

/-- What an act is answered. -/
inductive Answer where
  | done
  | pong (word : String)
  | reply (reply : Reply)

end Act

namespace SyncedStore

open Service (OpenAs)

variable (connections : Connections) (size : BatchSize) (store : SyncedStore Service)

/-- The same store over a service with the connection of one side closed. -/
def closedBy (side : Side) (store : SyncedStore Service) : SyncedStore Service :=
  { store with outside := store.outside.closedBy side }

/-- An act is answered, and an edit replaces the service behind the same connections. -/
def act : Act → Outcome (SyncedStore Service) Act.Answer
  | .request side request =>
    match store.perform (Remote.destination connections.client size) side request with
    | (answer, after) => (answer.map .reply, after)
  | .ping side =>
    match (connections.client side).ping store.outside with
    | (answer, outside) => (answer.map .pong, { store with outside := outside })
  | .disconnect side =>
    match (connections.client side).close store.outside with
    | (answer, outside) => (answer.map fun _ => .done, { store with outside := outside })
  | .edit service =>
    (.ok .done, { store with outside := service.withOpen store.outside.isOpen })

/-- Acts happen one after the other, and each of them leaves its own outcome. -/
def outcomes (store : SyncedStore Service) :
    List Act → List (Outcome (SyncedStore Service) Act.Answer)
  | [] => []
  | first :: rest =>
    let outcome := store.act connections size first
    outcome :: outcome.2.outcomes rest

/-- The store that acts leave behind. -/
def afterActs (acts : List Act) : SyncedStore Service :=
  acts.foldl (fun store act => (store.act connections size act).2) store

/-- An act leaves open what was open, unless it closes it. -/
theorem act_isOpen (act : Act) (side : Side) :
    (store.act connections size act).2.outside.isOpen side =
      (store.outside.isOpen side && !act.closes side) := by
  cases act with
  | request asking request =>
    obtain ⟨kept, -⟩ := connections.perform_withOpen size store request
      (rfl : store.outside.isOpen asking = _)
    -- A request closes nothing, whatever it asks.
    simp only [Act.closes, Bool.not_false, Bool.and_true]
    exact congrFun kept side
  | ping asking =>
    have pinged : OpenAs store.outside.isOpen store.outside.isOpen
        ((connections.client asking).ping store.outside).2 _ :=
      (Connections.ping_alike rfl ⟨rfl, rfl⟩).2
    simp only [Act.closes, Bool.not_false, Bool.and_true]
    exact congrFun pinged.1 side
  | disconnect closed =>
    -- Only the connection that is closed is open no more.
    simp only [SyncedStore.act, Connections.close_eq, Service.closedBy, Service.withOpen,
      Act.closes]
    by_cases same : side = closed
    · simp [same]
    · have other : closed ≠ side := Ne.symm same
      simp [same, other]
  | edit service => simp [SyncedStore.act, Service.withOpen, Act.closes]

/-- What is open after some acts was open before, and no act closed it. -/
theorem afterActs_isOpen (acts : List Act) (side : Side) :
    (store.afterActs connections size acts).outside.isOpen side =
      (store.outside.isOpen side && !acts.any (·.closes side)) := by
  -- The induction is on the acts still to come, from whatever is open by then.
  induction acts generalizing store with
  | nil => simp [afterActs]
  | cons first rest ih =>
    have later := ih (store.act connections size first).2
    rw [act_isOpen] at later
    rw [List.any_cons, Bool.not_or, ← Bool.and_assoc]
    exact later

variable {side : Side}

/-- A service with the same connections open has the same ones open when a side is closed. -/
theorem closedBy_of_isOpen {service after : Service} (kept : after.isOpen = service.isOpen) :
    after.closedBy side = after.withOpen (service.closedBy side).isOpen := by
  rw [Service.closedBy, kept]
  rfl

/-- An act from another side has the same outcome when the connection of a side is closed. -/
theorem act_closedBy {act : Act} (elsewhere : act.side? ≠ some side) :
    (store.closedBy side).act connections size act =
      ((store.act connections size act).1, (store.act connections size act).2.closedBy side) := by
  -- The connection of another side is as open as before.
  have agree {asking : Side} (other : asking ≠ side) :
      (store.outside.closedBy side).isOpen asking = store.outside.isOpen asking := by
    simp [Service.closedBy, Service.withOpen, other]
  cases act with
  | request asking request =>
    have other : asking ≠ side := fun same => elsewhere (congrArg some same)
    obtain ⟨kept, performed⟩ := connections.perform_withOpen size store request (agree other)
    have closed : (store.closedBy side).perform (Remote.destination connections.client size)
        asking request = _ := performed
    rw [← closedBy_of_isOpen kept] at closed
    simp only [SyncedStore.act, closed]
    rfl
  | ping asking =>
    have other : asking ≠ side := fun same => elsewhere (congrArg some same)
    have pinged : AlikeOutcomes (OpenAs store.outside.isOpen (store.outside.closedBy side).isOpen)
        ((connections.client asking).ping store.outside)
        ((connections.client asking).ping (store.outside.closedBy side)) :=
      Connections.ping_alike (agree other).symm ⟨rfl, rfl⟩
    obtain ⟨answer, kept, left⟩ := pinged
    rw [← closedBy_of_isOpen kept] at left
    exact Prod.ext (congrArg (·.map Act.Answer.pong) answer.symm)
      (congrArg (fun outside => { store with outside := outside }) left)
  | disconnect closed =>
    -- It does not matter which of two connections is closed first.
    have swapped : (store.outside.closedBy side).closedBy closed =
        (store.outside.closedBy closed).closedBy side := by
      simp [Service.closedBy, Service.withOpen, Bool.and_right_comm]
    simp only [SyncedStore.act, Connections.close_eq, closedBy, swapped]
  | edit service => rfl

/-- Acts from elsewhere have the same outcomes when the connection of a side is closed. -/
theorem outcomes_closedBy {acts : List Act} (elsewhere : ∀ act ∈ acts, act.side? ≠ some side) :
    (store.closedBy side).outcomes connections size acts =
      (store.outcomes connections size acts).map
        fun outcome => (outcome.1, outcome.2.closedBy side) := by
  -- Each act leaves a store that differs as before, and the others start from that.
  induction acts generalizing store with
  | nil => rfl
  | cons first rest ih =>
    obtain ⟨now, later⟩ := List.forall_mem_cons.mp elsewhere
    rw [outcomes, outcomes, List.map_cons, act_closedBy connections size store now]
    exact congrArg _ (ih _ later)

/-- Nothing that comes from a side without an open connection changes the service. -/
theorem act_of_closed (closed : store.outside.isOpen side = false) {act : Act}
    (here : act.side? = some side) :
    ∃ calls, (store.act connections size act).2.outside = store.outside.withCalls calls := by
  cases act with
  | request asking request =>
    obtain rfl : asking = side := Option.some.inj here
    -- A request that sends commands has them refused, and any other one leaves the service alone.
    by_cases sends : request.Sends store
    · obtain ⟨_, ⟨calls, rfl⟩, performed⟩ :=
        perform_of_refused (Connections.refuses_of_closed closed size) sends
      exact ⟨calls, congrArg (fun outcome => outcome.2.outside) performed⟩
    · have performed : store.perform (Remote.destination connections.client size) asking request =
          _ := perform_of_silent (connections.skipsEmpty size) sends
      exact ⟨store.outside.calls, congrArg (fun outcome => outcome.2.outside) performed⟩
  | ping asking =>
    obtain rfl : asking = side := Option.some.inj here
    obtain ⟨calls, pinged⟩ := connections.ping_of_closed closed
    exact ⟨calls, congrArg Prod.snd pinged⟩
  | disconnect asking =>
    obtain rfl : asking = side := Option.some.inj here
    refine ⟨store.outside.calls, ?_⟩
    simp only [SyncedStore.act, Connections.close_eq, Connections.closedBy_of_closed closed]
    rfl
  | edit service => cases here

/--
A connection that was closed stays closed, and only on its side.

Whatever happens from then on, nothing from that side changes the service. A request that would send
commands fails, or falls back to memory where it reads a key, and leaves its change in memory. A
request without commands answers as over any service. A ping fails, and closing again succeeds. What
comes from elsewhere has the same outcomes as if the side were still open.
-/
theorem closed_side_stays_closed (acts : List Act) :
    let destination := Remote.destination connections.client size
    let reached := store.afterActs connections size acts
    (∀ side, reached.outside.isOpen side =
      (store.outside.isOpen side && !acts.any (·.closes side))) ∧
    (∀ side, acts.any (·.closes side) = true →
      (∀ act : Act, act.side? = some side →
        ∃ calls, (reached.act connections size act).2.outside =
          reached.outside.withCalls calls) ∧
      (∀ request : StoreRequest, request.Sends reached →
        ∃ calls, reached.perform destination side request =
          (request.refused (.connectionFailed connections.closedReason) reached.cache,
            { reached with
              cache := request.remembered reached.cache
              outside := reached.outside.withCalls calls })) ∧
      (∀ request : StoreRequest, ¬ request.Sends reached → ∀ service,
        { reached with outside := service }.perform destination side request =
          (request.unsent destination.name reached.cache,
            { reached with
              cache := request.remembered reached.cache
              outside := service
              writesByDefault := request.writeDefault reached.writesByDefault })) ∧
      ((connections.client side).ping reached.outside).1 =
        .error (.connectionFailed connections.closedReason) ∧
      (connections.client side).close reached.outside = (.ok (), reached.outside)) ∧
    (∀ request : StoreRequest, request.Sends reached ↔
      ∃ call ∈ request.calls reached.fullSyncOnly reached.writesByDefault reached.cache,
        call ≠ .writeAll []) ∧
    ∀ side others, (∀ act ∈ others, act.side? ≠ some side) →
      (reached.closedBy side).outcomes connections size others =
        (reached.outcomes connections size others).map
          fun outcome => (outcome.1, outcome.2.closedBy side) := by
  intro destination reached
  have openness := afterActs_isOpen connections size store acts
  refine ⟨openness, fun side closes => ?_, fun request => StoreRequest.sends_iff_calls,
    fun side others elsewhere => outcomes_closedBy connections size reached elsewhere⟩
  -- Some act has closed the side, and none opens it again.
  have closed : reached.outside.isOpen side = false := by
    rw [openness, closes, Bool.not_true, Bool.and_false]
  refine ⟨fun act here => act_of_closed connections size reached closed here,
    fun request sends => ?_, fun request silent service => ?_, ?_, ?_⟩
  · obtain ⟨_, ⟨calls, rfl⟩, performed⟩ :=
      perform_of_refused (Connections.refuses_of_closed closed size) sends
    exact ⟨calls, performed⟩
  · -- Whether commands are sent does not depend on the service.
    have still : ¬ request.Sends { reached with outside := service } := silent
    exact perform_of_silent (connections.skipsEmpty size) still
  · obtain ⟨calls, pinged⟩ := connections.ping_of_closed closed
    exact congrArg Prod.fst pinged
  · rw [Connections.close_eq, Connections.closedBy_of_closed closed]

/-- A set over a closed connection fails and stays in memory, and the other connection is open. -/
theorem closed_side_stays_closed_after_disconnect :
    let store : SyncedStore Service :=
      ⟨[("c", .null)], Service.holding [("a", "1")] [] none, true, false⟩
    let reached := store.afterActs .redis .default [.disconnect .async]
    (∃ calls, reached.perform (Redis.destination .default) .async
        (.backend (.set "b" .null .default)) =
      (.error (.connectionFailed "connection closed"),
        { reached with
          cache := [("c", .null), ("b", .null)]
          outside := reached.outside.withCalls calls })) ∧
      reached.outside.isOpen .sync = true := by
  intro store reached
  obtain ⟨openness, closed, -, -⟩ :=
    closed_side_stays_closed .redis .default store [.disconnect .async]
  obtain ⟨-, refused, -⟩ := closed .async rfl
  exact ⟨refused (.backend (.set "b" .null .default)) rfl, openness .sync⟩

end SyncedStore

end SyncStore
