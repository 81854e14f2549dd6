import SyncStore.Proofs.Store.Sharing
import SyncStore.Store.Datastore
import SyncStore.Store.Recorder

/-! A migration carries over what is in memory, and a new backend reads it back. -/

namespace SyncStore

/--
How a backend is seen by those who read single keys.

- `shown`: what is read under each key
- `leftover`: what is still read under a key after other data was written over everything
- `keeps`: values that are read as they were written
-/
structure View where
  shown : String → Option Value
  leftover : String → Option Value
  keeps : Value → Prop

/--
A destination of single keys answers for what it holds while none of its calls fails.

A write of everything changes the keys of the data, and may leave others behind.
-/
structure Destination.Answers {σ : Type} (destination : Destination σ) (view : σ → View)
    (sound : σ → Prop) : Prop where
  readOne : ∀ side key state, sound state →
    (destination.readOne side key state).1 = .ok ((view state).shown key)
  writeAll : ∀ side data state, sound state → data.Distinct →
    (∀ entry ∈ data, (view state).keeps entry.2) →
    (destination.writeAll side data state).1 = .ok () ∧
      sound (destination.writeAll side data state).2 ∧
      ∀ key, (view (destination.writeAll side data state).2).shown key =
        (data.get? key).or ((view state).leftover key)

/-- Everything that a service holds is still there after other data was written. -/
def Texts.view (texts : Texts) : View where
  shown key := (texts key).map decodeValue
  leftover key := (texts key).map decodeValue
  keeps := Value.Storable

/-- Data that is replaced as a whole leaves nothing behind. -/
def Data.view (data : Data) : View where
  shown key := data.get? key
  leftover _ := none
  keeps _ := True

/-- A remote destination over reliable clients answers for the texts of its service. -/
theorem Remote.destination_answers {σ : Type} {clients : Side → Client σ} {texts : σ → Texts}
    {sound : σ → Prop} (reliable : ∀ side, (clients side).Reliable texts sound)
    (size : BatchSize) :
    (destination clients size).Answers (fun state => (texts state).view) sound where
  readOne side key state before := by
    obtain ⟨⟨found, answered⟩, _⟩ := (reliable side).get key state before
    have read : (readOne (clients side) key state).1 = .ok (found.map decodeValue) := by
      change ((clients side).get key state).1.map (·.map decodeValue) = _
      rw [answered]
      rfl
    -- What the client answers is the text of the key.
    have same := (readOne_texts (reliable side).serves key state).2 _ read
    rw [destination_readOne]
    exact read.trans (congrArg Except.ok same)
  writeAll side data state before distinct storable := by
    have writes : (writeAll (clients side) data state).1 = .ok () ∧
        sound (writeAll (clients side) data state).2 := by
      unfold writeAll
      -- No data is written without a call.
      split
      · exact ⟨rfl, before⟩
      · exact (reliable side).setMany _ state before
    have stored := (writeAll_texts (reliable side).serves data state).1 writes.1
    rw [destination_writeAll]
    refine ⟨writes.1, writes.2, fun key => ?_⟩
    change (texts (writeAll (clients side) data state).2 key).map decodeValue = _
    rw [stored]
    exact Texts.decode_storeMany_encoded distinct storable key

/-- A recorder that takes single keys answers for its data, which a write replaces. -/
theorem Recorder.destination_answers :
    (destination true).Answers (fun recorder => Data.view recorder.data)
      fun recorder => recorder.readFailure = none ∧ recorder.writeFailure = none where
  readOne side key recorder working := by
    simp [destination, log, working.1, Data.view]
  writeAll side data recorder working distinct _ := by
    simp [destination, log, working.1, working.2, Data.view]

/--
The backends, each over a destination that answers if it is ever asked for single keys.

- `memory`: what is in memory is all there is
- `restricted`: reads come from memory, whatever is outside
- `single`: reads come from outside, whatever is in memory
-/
inductive Backend.Working : {σ : Type} → Backend σ → σ → View → Prop
  | memory (data : Data) : Working memory data (Data.view data)
  | restricted {σ : Type} (destination : Destination σ) (store : SyncedStore σ)
    (restricted : store.fullSyncOnly = true) :
    Working (synced destination) store (Data.view store.cache)
  | single {σ : Type} (destination : Destination σ) {view : σ → View} {sound : σ → Prop}
    (answers : destination.Answers view sound) (store : SyncedStore σ)
    (single : store.fullSyncOnly = false) (before : sound store.outside) :
    Working (synced destination) store (view store.outside)

/-- Replaced data is in memory, and outside is what its write left there. -/
theorem SyncedStore.overwrite_store {σ : Type} (destination : Destination σ) (side : Side)
    (data : Data) (store : SyncedStore σ) :
    (overwrite destination side data store).2 =
      { store with
        cache := data
        outside := (destination.writeAll side data store.outside).2 } := by
  rw [overwrite_eq, writeData_eq]

namespace Backend.Working

variable {σ : Type} {backend : Backend σ} {state : σ} {view : View}

/-- A read answers what the view shows. -/
theorem get_answer (working : backend.Working state view) (side : Side) (key : String) :
    (backend.get side key .propagate state).1 = .ok (view.shown key) := by
  cases working with
  | memory data => rfl
  | restricted destination store restricted =>
    exact congrArg Prod.fst (SyncedStore.get_of_restricted restricted .propagate)
  | single destination answers store single before =>
    exact (SyncedStore.get_of_read single (answers.readOne side key _ before) .propagate).1

/-- Data written over everything is read back, beside what is left of the data before. -/
theorem overwrite_answer (working : backend.Working state view) (side : Side) {data : Data}
    (distinct : data.Distinct) (kept : ∀ entry ∈ data, view.keeps entry.2) (reader : Side)
    (key : String) :
    (backend.get reader key .propagate (backend.overwrite side data state).2).1 =
      .ok ((data.get? key).or (view.leftover key)) := by
  cases working with
  | memory _ => exact congrArg Except.ok (Option.or_none).symm
  | restricted destination store restricted =>
    -- The store answers from memory, even if the write outside failed.
    show (SyncedStore.get destination reader key .propagate
      (SyncedStore.overwrite destination side data store).2).1 = _
    rw [SyncedStore.overwrite_store]
    refine (congrArg Prod.fst (SyncedStore.get_of_restricted ?_ .propagate)).trans ?_
    · exact restricted
    exact congrArg Except.ok (Option.or_none).symm
  | single destination answers store single before =>
    obtain ⟨_, after, shown⟩ := answers.writeAll side data store.outside before distinct kept
    have read := answers.readOne reader key _ after
    show (SyncedStore.get destination reader key .propagate
      (SyncedStore.overwrite destination side data store).2).1 = _
    rw [SyncedStore.overwrite_store]
    refine (SyncedStore.get_of_read ?_ read .propagate).1.trans (congrArg Except.ok (shown key))
    exact single

end Backend.Working

namespace Datastore

variable {σ τ : Type} {old : Backend σ} {new : Backend τ} {datastore : Datastore σ} {state : τ}
  {source target : View}

/-- A datastore answers a read as its backend does. -/
theorem perform_get {backend : Backend σ} {found : Option Value} {side : Side} {key : String}
    (answered : (backend.get side key .propagate datastore.state).1 = .ok found) :
    (datastore.perform backend side (.get key .propagate)).1 = .ok (.value found) :=
  congrArg (Except.map Reply.value) answered

/-- A migrated datastore shows the data that was in memory, beside what is left of the target. -/
theorem migrate_shows (accepting : new.Working state target)
    (distinct : (old.data datastore.state).Distinct)
    (kept : ∀ entry ∈ old.data datastore.state, target.keeps entry.2) (version : UInt32)
    (side : Side) (key : String) :
    ((datastore.migrate old new version state).2.perform new side (.get key .propagate)).1 =
      .ok (.value (((old.data datastore.state).get? key).or (target.leftover key))) :=
  perform_get (accepting.overwrite_answer .sync distinct kept side key)

/--
A migration carries over what the old backend has in memory.

Every key of that data is read with its value afterwards, and a key outside of it is not found
unless the new backend holds it itself and keeps it.
A key is read as before exactly when memory agrees with what was read before the migration.
-/
theorem migrate_carries_memory (working : old.Working datastore.state source)
    (accepting : new.Working state target) (distinct : (old.data datastore.state).Distinct)
    (kept : ∀ entry ∈ old.data datastore.state, target.keeps entry.2) (version : UInt32) :
    let memory := old.data datastore.state
    let migrated := (datastore.migrate old new version state).2
    migrated.version = version ∧ ∀ side key,
      (memory.get? key ≠ none ∨ target.leftover key = none) →
        (migrated.perform new side (.get key .propagate)).1 = .ok (.value (memory.get? key)) ∧
        ((migrated.perform new side (.get key .propagate)).1 =
          (datastore.perform old side (.get key .propagate)).1 ↔
            source.shown key = memory.get? key) := by
  intro memory migrated
  refine ⟨rfl, fun side key covered => ?_⟩
  have before := perform_get (working.get_answer side key)
  have shown := migrate_shows accepting distinct kept version side key
  -- Nothing of the target shows under this key.
  have alone : (memory.get? key).or (target.leftover key) = memory.get? key := by
    rcases covered with present | nothing
    · obtain ⟨value, found⟩ := Option.ne_none_iff_exists'.mp present
      rw [found, Option.some_or]
    · rw [nothing, Option.or_none]
  rw [show (old.data datastore.state).get? key = memory.get? key from rfl, alone] at shown
  refine ⟨shown, ?_⟩
  rw [shown, before]
  simp [eq_comm]

/-- A store that read one of its keys is migrated to a service with a key of its own. -/
theorem migrate_carries_read_key :
    let backend := Backend.synced (Remote.destination Service.client .default)
    let outside := Service.holding [("count", "true"), ("name", "old")] [] none
    let datastore : Datastore (SyncedStore Service) :=
      ⟨1, ⟨[("count", .bool true)], outside, true, false⟩⟩
    let target : SyncedStore Service :=
      ⟨[], Service.holding [("stale", "1")] [] none, false, false⟩
    let migrated := (datastore.migrate backend backend 2 target).2
    migrated.version = 2 ∧
      (migrated.perform backend .async (.get "count" .propagate)).1 =
        .ok (.value (some (.bool true))) ∧
      (migrated.perform backend .async (.get "name" .propagate)).1 = .ok (.value none) := by
  intro backend outside datastore target migrated
  have answers := Remote.destination_answers Service.client_reliable .default
  have working : backend.Working datastore.state outside.texts.view :=
    .single _ answers datastore.state rfl fun side => Service.serving_holding side _ _ nofun
  have accepting : backend.Working target target.outside.texts.view :=
    .single _ answers target rfl fun side => Service.serving_holding side _ _ nofun
  have distinct : (backend.data datastore.state).Distinct := List.nodup_cons.mpr ⟨nofun, .nil⟩
  have storable : ∀ entry ∈ backend.data datastore.state, entry.2.Storable :=
    List.forall_mem_singleton.mpr
      (decodeValue_encodeValue (Value.exact_scalar rfl trivial) (Nat.zero_le _))
  obtain ⟨version, reads⟩ := migrate_carries_memory working accepting distinct storable 2
  exact ⟨version, (reads .async "count" (.inl nofun)).1, (reads .async "name" (.inr rfl)).1⟩

/-- A key that was never read is lost, because only what is in memory is migrated. -/
theorem migrate_loses_unread_key :
    let destination := Remote.destination Service.client .default
    let backend := Backend.synced destination
    let outside := Service.holding [("k", "true")] [] none
    let datastore : Datastore (SyncedStore Service) := ⟨1, .new destination outside true⟩
    let migrated := datastore.migrate backend .memory 2 []
    migrated.1 = .ok () ∧
      (datastore.perform backend .sync (.get "k" .propagate)).1 =
        .ok (.value (some (.bool true))) ∧
      (migrated.2.perform .memory .sync (.get "k" .propagate)).1 = .ok (.value none) := by
  intro destination backend outside datastore migrated
  have answers := Remote.destination_answers Service.client_reliable .default
  have working : backend.Working datastore.state outside.texts.view :=
    .single _ answers datastore.state rfl fun side => Service.serving_holding side _ _ nofun
  have read := perform_get (working.get_answer .sync "k")
  have decoded : decodeValue "true" = .bool true := by cbv
  -- Before the migration the key is read from the service, and afterwards from memory.
  exact ⟨rfl, read.trans (congrArg (Except.ok ∘ Reply.value ∘ some) decoded), rfl⟩

end Datastore

end SyncStore
