import Mathlib.Logic.Function.Basic
import SyncStore.Proofs.Remote.Merging
import SyncStore.Proofs.Store.Run

/-! Stores that share a service lose no write of each other, in whatever order they take turns. -/

namespace SyncStore

/--
A client is reliable when none of its single calls fails while its service is sound.

- `serves`: answers are taken from the texts of the service, and writes change them
- `reads`: scans and fetches leave the service sound
-/
structure Client.Reliable {σ : Type} (client : Client σ) (texts : σ → Texts)
    (sound : σ → Prop) : Prop where
  serves : client.Serves texts
  reads : client.KeepsReading sound
  get : ∀ key state, sound state →
    (∃ found, (client.get key state).1 = .ok found) ∧ sound (client.get key state).2
  set : ∀ key raw state, sound state →
    (client.set key raw state).1 = .ok () ∧ sound (client.set key raw state).2
  setMany : ∀ pairs state, sound state →
    (client.setMany pairs state).1 = .ok () ∧ sound (client.setMany pairs state).2

/-- A service that serves both sides has reliable clients. -/
theorem Service.client_reliable (side : Side) :
    (client side).Reliable texts fun service => ∀ side, service.Serving side where
  serves := client_serves side
  reads := {
    getMany := fun keys service serving other => by
      rw [(serving side).getMany keys]
      exact (serving other).withCalls _
    scan := fun cursor pattern count service serving other => by
      have served := (serving side).serve (.scan cursor pattern count) fun service =>
        (.ok (service.scanStep cursor pattern count).1,
          (service.scanStep cursor pattern count).2)
      have logged := (serving other).withCalls
        (service.calls ++ [(side, .scan cursor pattern count)])
      rw [show (client side).scan cursor pattern count service = _ from served]
      -- Without a script a scan step changes nothing but the log.
      exact (Serving.scanStep_service logged.unscripted cursor pattern count).symm ▸ logged }
  get key service serving := by
    have served := (serving side).serve (.get key) fun service => (service.lookup key, service)
    rw [show (client side).get key service = _ from served]
    -- The key is looked up behind the log, where everything is still text.
    have logged := (serving side).withCalls (service.calls ++ [(side, .get key)])
    exact ⟨⟨_, logged.lookup key⟩, fun other => (serving other).withCalls _⟩
  set key raw service serving := by
    have served := (serving side).serve (.set key raw) fun service =>
      (.ok (), service.store key raw)
    rw [show (client side).set key raw service = _ from served]
    exact ⟨rfl, fun other => ((serving other).withCalls _).store key raw⟩
  setMany pairs service serving := by
    have served := (serving side).serve (.setMany pairs) fun service =>
      (.ok (), service.storeMany pairs)
    rw [show (client side).setMany pairs service = _ from served]
    exact ⟨rfl, fun other => ((serving other).withCalls _).storeMany pairs⟩

/-- A request about single keys or a read, whose value survives being stored if it has one. -/
def StoreRequest.IsShared : StoreRequest → Prop
  | .backend (.set _ value _) => value.Storable
  | .backend (.get _ _) | .backend (.getOr _ _ _) | .backend .readData | .readDatum _ => True
  | _ => False

/-- One of several owners asks its own store for something, from one side. -/
structure Turn (ι : Type) where
  owner : ι
  side : Side
  request : StoreRequest

/--
Several stores without restrictions share what is outside.

Each owner has data in memory and a write default of its own.
-/
structure Sharing (ι σ : Type) where
  outside : σ
  caches : ι → Data
  writesByDefault : ι → Bool

/-- The value that a turn writes under a key, if it is a set of that key that is to be written. -/
def Turn.writes? {ι : Type} (writesByDefault : ι → Bool) (key : String) (turn : Turn ι) :
    Option Value :=
  match turn.request with
  | .backend (.set changed value policy) =>
    if changed = key ∧ policy.resolve (writesByDefault turn.owner) = true then some value else none
  | _ => none

/-- The value that was written last under a key, whoever wrote it. -/
def Turn.lastWritten {ι : Type} (writesByDefault : ι → Bool) (key : String)
    (turns : List (Turn ι)) : Option Value :=
  turns.reverse.findSome? (writes? writesByDefault key)

namespace Sharing

variable {ι σ : Type}

/-- The store of an owner finds outside whatever the turn before it left there. -/
def store (sharing : Sharing ι σ) (owner : ι) : SyncedStore σ :=
  ⟨sharing.caches owner, sharing.outside, sharing.writesByDefault owner, false⟩

variable [DecidableEq ι]

/-- A turn changes the store of its owner and what is outside, and no other memory. -/
def step (destinations : ι → Destination σ) (sharing : Sharing ι σ) (turn : Turn ι) :
    Sharing ι σ :=
  let after := ((sharing.store turn.owner).perform (destinations turn.owner) turn.side
    turn.request).2
  { outside := after.outside
    caches := Function.update sharing.caches turn.owner after.cache
    writesByDefault :=
      Function.update sharing.writesByDefault turn.owner after.writesByDefault }

/-- Turns are taken one after the other. -/
def run (destinations : ι → Destination σ) (sharing : Sharing ι σ) (turns : List (Turn ι)) :
    Sharing ι σ :=
  turns.foldl (step destinations) sharing

end Sharing

/-- Each owner has clients and a batch size of its own. -/
def Remote.destinations {ι σ : Type} (clients : ι → Side → Client σ) (sizes : ι → BatchSize)
    (owner : ι) : Destination σ :=
  destination (clients owner) (sizes owner)

namespace Sharing

variable {ι σ : Type} {clients : ι → Side → Client σ} {texts : σ → Texts} {sound : σ → Prop}
  (reliable : ∀ owner side, (clients owner side).Reliable texts sound) (sizes : ι → BatchSize)
  {sharing : Sharing ι σ} (before : sound sharing.outside)

section Reads

include reliable before

/-- A read of one key answers its decoded text, and leaves all texts alone. -/
theorem readOne_answer (owner : ι) (side : Side) (key : String) :
    let read := (Remote.destinations clients sizes owner).readOne side key sharing.outside
    read.1 = .ok ((texts sharing.outside key).map decodeValue) ∧
      texts read.2 = texts sharing.outside ∧ sound read.2 := by
  intro read
  obtain ⟨keeps, answers⟩ := Remote.readOne_texts (reliable owner side).serves key sharing.outside
  obtain ⟨⟨found, answered⟩, after⟩ := (reliable owner side).get key sharing.outside before
  -- The client answers, and what it answers is the text of the key.
  have called : read = Remote.readOne (clients owner side) key sharing.outside := by
    simp only [read, Remote.destinations, Remote.destination_readOne]
  rw [← called] at keeps answers
  have still : sound read.2 := by
    rw [called]
    exact after
  have succeeds : read.1 = .ok (found.map decodeValue) := by
    rw [called, Remote.readOne]
    dsimp only
    rw [answered]
    rfl
  exact ⟨succeeds.trans (congrArg Except.ok (answers _ succeeds)), keeps, still⟩

/-- A read through answers the decoded text of its key, whatever its owner has in memory. -/
theorem get_answer (owner : ι) (side : Side) (key : String) (fallback : Fallback) :
    ((sharing.store owner).get (Remote.destinations clients sizes owner) side key
      fallback).1 = .ok ((texts sharing.outside key).map decodeValue) := by
  obtain ⟨answered, _⟩ := readOne_answer reliable sizes before owner side key
  exact (SyncedStore.get_of_read rfl answered fallback).1

/-- So does a single read. -/
theorem readDatum_answer (owner : ι) (side : Side) (key : String) :
    ((sharing.store owner).readDatum (Remote.destinations clients sizes owner) side
      key).1 = .ok ((texts sharing.outside key).map decodeValue) := by
  rw [SyncedStore.readDatum_of_single rfl]
  exact (readOne_answer reliable sizes before owner side key).1

end Reads

/--
What a request to a store leaves of the service and of its write default.

- `texts`: at most the text of the key that is to be written changes
-/
structure Leaves (texts : σ → Texts) (sound : σ → Prop) (before after : SyncedStore σ)
    (written : String → Option Value) : Prop where
  sound : sound after.outside
  writesByDefault : after.writesByDefault = before.writesByDefault
  texts : ∀ key, texts after.outside key =
    ((written key).map encodeValue).or (texts before.outside key)

include reliable before

/-- A read through writes nothing. -/
theorem get_leaves (owner : ι) (side : Side) (key : String) (fallback : Fallback) :
    Leaves texts sound (sharing.store owner)
      ((sharing.store owner).get (Remote.destinations clients sizes owner) side key
        fallback).2 fun _ => none := by
  obtain ⟨answered, keeps, after⟩ := readOne_answer reliable sizes before owner side key
  have unwritten := fun other => congrFun keeps other
  -- The read succeeds, and only what it finds decides whether memory changes.
  cases found : (texts sharing.outside key).map decodeValue with
  | none =>
    rw [SyncedStore.get_of_absent rfl (found ▸ answered)]
    exact ⟨after, rfl, unwritten⟩
  | some value =>
    rw [SyncedStore.get_of_found rfl (found ▸ answered)]
    exact ⟨after, rfl, unwritten⟩

/-- A single read writes nothing. -/
theorem readDatum_leaves (owner : ι) (side : Side) (key : String) :
    Leaves texts sound (sharing.store owner)
      ((sharing.store owner).readDatum (Remote.destinations clients sizes owner) side
        key).2 fun _ => none := by
  obtain ⟨_, keeps, after⟩ := readOne_answer reliable sizes before owner side key
  rw [SyncedStore.readDatum_of_single rfl]
  exact ⟨after, rfl, fun other => congrFun keeps other⟩

/-- A read of the whole data writes nothing, whether or not its scan comes to an end. -/
theorem readData_leaves (owner : ι) (side : Side) :
    Leaves texts sound (sharing.store owner)
      ((sharing.store owner).readData (Remote.destinations clients sizes owner) side).2
      fun _ => none := by
  have keeps := (Remote.readAll_mirrors (reliable owner side).serves (sizes owner)
    sharing.outside).1
  rw [SyncedStore.readData_store, Remote.destinations, Remote.destination_readAll]
  exact ⟨Remote.readAll_keeps (reliable owner side).reads (sizes owner) before, rfl,
    fun key => congrFun keeps key⟩

/-- A set answers, and writes its key when it is to be written. -/
theorem set_leaves (owner : ι) (side : Side) (key : String) (value : Value)
    (policy : WritePolicy) :
    ((sharing.store owner).set (Remote.destinations clients sizes owner) side key value
        policy).1 = .ok () ∧
      Leaves texts sound (sharing.store owner)
        ((sharing.store owner).set (Remote.destinations clients sizes owner) side key
          value policy).2
        (Turn.writes? sharing.writesByDefault ·
          ⟨owner, side, .backend (.set key value policy)⟩) := by
  cases writes : policy.resolve (sharing.writesByDefault owner) with
  | false =>
    rw [SyncedStore.set_of_unwritten writes]
    exact ⟨rfl, before, rfl, fun other => by simp [Turn.writes?, writes, store]⟩
  | true =>
    obtain ⟨answered, after⟩ :=
      (reliable owner side).set key (encodeValue value) sharing.outside before
    have stored := (reliable owner side).serves.set_stores key _ _ answered
    rw [SyncedStore.set_of_single rfl writes, Remote.destinations, Remote.destination_writeOne]
    refine ⟨answered, after, rfl, fun other => (congrFun stored other).trans ?_⟩
    -- The written key has the new text, and every other key its old one.
    by_cases same : other = key
    · subst same
      simp [Turn.writes?, writes, Texts.store_self]
    · simp [Turn.writes?, Texts.store_of_ne _ same, Ne.symm same, store]

/-- Every request that may be shared writes at most the key that it is to write. -/
theorem perform_leaves {turn : Turn ι} (shared : turn.request.IsShared) :
    Leaves texts sound (sharing.store turn.owner)
      ((sharing.store turn.owner).perform
        (Remote.destinations clients sizes turn.owner) turn.side turn.request).2
      (Turn.writes? sharing.writesByDefault · turn) := by
  obtain ⟨owner, side, request⟩ := turn
  -- Requests for the whole data may not be shared.
  cases request with
  | backend request =>
    cases request with
    | get key fallback => exact get_leaves reliable sizes before owner side key fallback
    | getOr key default fallback =>
      rw [SyncedStore.perform_getOr]
      exact get_leaves reliable sizes before owner side key fallback
    | set key value policy => exact (set_leaves reliable sizes before owner side key value policy).2
    | readData => exact readData_leaves reliable sizes before owner side
    | data | overwrite | update => exact shared.elim
  | readDatum key => exact readDatum_leaves reliable sizes before owner side key
  | writeData | writeDatum | setWriteDefault => exact shared.elim

omit reliable before

/-- What was written last before some turns counts only for keys that they do not write. -/
theorem lastWritten_cons (writesByDefault : ι → Bool) (key : String) (turn : Turn ι)
    (turns : List (Turn ι)) :
    Turn.lastWritten writesByDefault key (turn :: turns) =
      (Turn.lastWritten writesByDefault key turns).or (turn.writes? writesByDefault key) := by
  simp [Turn.lastWritten, List.findSome?_append]

variable [DecidableEq ι]

/-- No turn of a shared run changes a write default. -/
theorem step_writesByDefault {destinations : ι → Destination σ} {turn : Turn ι}
    (kept : ((sharing.store turn.owner).perform (destinations turn.owner) turn.side
      turn.request).2.writesByDefault = sharing.writesByDefault turn.owner) :
    (sharing.step destinations turn).writesByDefault = sharing.writesByDefault := by
  -- The default of the owner is replaced by itself, and no other is touched.
  rw [step, kept]
  exact Function.update_eq_self turn.owner sharing.writesByDefault

/--
A run of turns leaves each key with the text that was written last under it.

- `sound`: the service is as reliable as before
- `texts`: a key that nobody wrote has its old text, if it had one
-/
structure Outlives (texts : σ → Texts) (sound : σ → Prop) (before after : Sharing ι σ)
    (turns : List (Turn ι)) : Prop where
  sound : sound after.outside
  writesByDefault : after.writesByDefault = before.writesByDefault
  texts : ∀ key, texts after.outside key =
    ((Turn.lastWritten before.writesByDefault key turns).map encodeValue).or
      (texts before.outside key)

include reliable in
/-- Turns are taken in any order, and each finds the texts that the ones before it left. -/
theorem run_outlives (before : sound sharing.outside) {turns : List (Turn ι)}
    (shared : ∀ turn ∈ turns, turn.request.IsShared) :
    Outlives texts sound sharing
      (sharing.run (Remote.destinations clients sizes) turns)
      turns := by
  induction turns generalizing sharing with
  | nil => exact ⟨before, rfl, fun key => rfl⟩
  | cons turn rest ih =>
    have first := perform_leaves reliable sizes before (shared turn List.mem_cons_self)
    have sound : sound (sharing.step (Remote.destinations clients sizes) turn).outside :=
      first.sound
    have defaults := step_writesByDefault first.writesByDefault
    have later := ih sound fun other member => shared other (List.mem_cons_of_mem turn member)
    refine ⟨later.sound, later.writesByDefault.trans defaults, fun key => ?_⟩
    have written := later.texts key
    rw [defaults] at written
    -- The later turns write over what the first one left.
    refine written.trans ((congrArg (Option.or _) (first.texts key)).trans ?_)
    rw [lastWritten_cons, Option.map_or, Option.or_assoc]
    rfl

omit [DecidableEq ι] in
/-- What was written last under a key decodes to itself, because every written value does. -/
theorem decode_lastWritten {turns : List (Turn ι)}
    (shared : ∀ turn ∈ turns, turn.request.IsShared) (writesByDefault : ι → Bool) (key : String) :
    ((Turn.lastWritten writesByDefault key turns).map encodeValue).map decodeValue =
      Turn.lastWritten writesByDefault key turns := by
  cases last : Turn.lastWritten writesByDefault key turns with
  | none => rfl
  | some value =>
    obtain ⟨turn, member, writes⟩ := List.exists_of_findSome?_eq_some last
    have allowed := shared turn (List.mem_reverse.mp member)
    unfold Turn.writes? at writes
    split at writes
    · -- Only a set writes, and it may be shared because its value is read back.
      rename_i request
      rw [request] at allowed
      obtain ⟨_, same⟩ := Option.ite_none_right_eq_some.mp writes
      obtain rfl := Option.some.inj same
      exact congrArg some allowed
    · cases writes

/--
Stores that share a reliable service lose no update of each other, in whatever order they act.

After every run of turns each text is that of the value set last under its key with a policy to
write, whoever set it, or the text from before. Every read answers the decoded text of that
moment, and never what its own store has in memory.
A set that is not to be written is seen by nobody but the store that made it.
-/
theorem run_loses_no_update
    (reliable : ∀ owner side, (clients owner side).Reliable texts sound)
    (before : sound sharing.outside) {turns : List (Turn ι)}
    (shared : ∀ turn ∈ turns, turn.request.IsShared) :
    let destinations := Remote.destinations clients sizes
    let after := sharing.run destinations turns
    let last := fun key => Turn.lastWritten sharing.writesByDefault key turns
    let value := fun key => (last key).or ((texts sharing.outside key).map decodeValue)
    (∀ key, texts after.outside key = ((last key).map encodeValue).or (texts sharing.outside key)) ∧
    ∀ owner side key,
      (∀ fallback, ((after.store owner).get (destinations owner) side key fallback).1 =
        .ok (value key)) ∧
      (∀ default fallback,
        ((Backend.synced (destinations owner)).getOr side key default fallback
          (after.store owner)).1 = .ok ((value key).getD default)) ∧
      ((after.store owner).readDatum (destinations owner) side key).1 = .ok (value key) ∧
      ∀ new policy,
        ((after.store owner).set (destinations owner) side key new policy).1 = .ok () ∧
        (policy.resolve (sharing.writesByDefault owner) = false →
          let unseen := after.step destinations ⟨owner, side, .backend (.set key new policy)⟩
          unseen.outside = after.outside ∧
            ∀ other, other ≠ owner → unseen.store other = after.store other) := by
  intro destinations after last value
  have ran := run_outlives reliable sizes before shared
  -- What is read is what the texts of this moment decode to.
  have decoded : ∀ key, (texts after.outside key).map decodeValue = value key := fun key => by
    rw [ran.texts key, Option.map_or, decode_lastWritten shared]
  refine ⟨ran.texts, fun owner side key => ⟨fun fallback => ?_, fun default fallback => ?_, ?_,
    fun new policy => ⟨(set_leaves reliable sizes ran.sound owner side key new policy).1,
      fun unwritten => ?_⟩⟩⟩
  · rw [← decoded key]
    exact get_answer reliable sizes ran.sound owner side key fallback
  · have answered := get_answer reliable sizes ran.sound owner side key fallback
    rw [decoded key] at answered
    rw [Backend.getOr_eq]
    exact congrArg (Except.map (·.getD default)) answered
  · rw [← decoded key]
    exact readDatum_answer reliable sizes ran.sound owner side key
  · intro unseen
    -- Only the memory of the owner changes.
    have same : policy.resolve (after.store owner).writesByDefault = false :=
      (congrFun ran.writesByDefault owner ▸ unwritten :)
    have kept : (SyncedStore.set (destinations owner) side key new policy (after.store owner)).2 =
        { after.store owner with cache := (after.caches owner).insert key new } :=
      congrArg Prod.snd (SyncedStore.set_of_unwritten same new)
    refine ⟨congrArg SyncedStore.outside kept, fun other differ => ?_⟩
    have memory : unseen.caches other = after.caches other := Function.update_of_ne differ _ _
    have default : unseen.writesByDefault other = after.writesByDefault other :=
      Function.update_of_ne differ _ _
    rw [store, store, memory, default]
    exact congrArg (fun outside => SyncedStore.mk _ outside _ false)
      (congrArg SyncedStore.outside kept)

/-- Two stores take turns over one service, and each reads what the other one wrote. -/
theorem run_loses_no_update_of_two :
    let sharing : Sharing Bool Service :=
      ⟨Service.holding [("count", "1"), ("name", "old")] [] none, fun _ => [("count", .bool false)],
        fun _ => true⟩
    let turns : List (Turn Bool) :=
      [⟨true, .sync, .backend (.set "count" (.bool true) .default)⟩,
        ⟨false, .async, .backend (.get "count" .propagate)⟩,
        ⟨false, .sync, .backend (.set "name" .null .always)⟩,
        ⟨true, .async, .backend (.set "count" .null .never)⟩]
    let destinations := Remote.destinations (fun _ : Bool => Service.client) fun _ => .default
    let after := sharing.run destinations turns
    after.outside.texts "count" = some (encodeValue (.bool true)) ∧
      after.outside.texts "name" = some (encodeValue .null) ∧
      after.outside.texts "other" = none ∧
      ((after.store true).get (destinations true) .sync "name" .propagate).1 = .ok (some .null) ∧
      ((after.store true).get (destinations true) .sync "count" .cached).1 =
        .ok (some (.bool true)) := by
  intro sharing turns destinations after
  have scalar : ∀ value : Value, value.nesting = 0 → value.FloatSatisfies Binary64.ReadsBack →
      value.Storable := fun value flat floats =>
    decodeValue_encodeValue (Value.exact_scalar flat floats) (flat ▸ Nat.zero_le _)
  have shared : ∀ turn ∈ turns, turn.request.IsShared := by
    simp only [turns, List.forall_mem_cons, StoreRequest.IsShared]
    exact ⟨scalar _ rfl trivial, trivial, scalar _ rfl trivial, scalar _ rfl trivial, by simp⟩
  have before : ∀ side, sharing.outside.Serving side := fun side =>
    Service.serving_holding side _ [] nofun
  obtain ⟨texts, answers⟩ := run_loses_no_update (fun _ => .default)
    (fun _ side => Service.client_reliable side) before shared
  have single := answers true .sync
  exact ⟨texts "count", texts "name", texts "other", (single "name").1 .propagate,
    (single "count").1 .cached⟩

end Sharing

end SyncStore
