import SyncStore.Proofs.CommandLine.Answers
import SyncStore.Proofs.Remote.Redis

/-! A command over a service asks for single keys or for all, and writes no key but its own. -/

namespace SyncStore

namespace Service

/-- A new process has connections of its own to the service. -/
def reconnected (service : Service) : Service := { service with isOpen := fun _ => true }

/--
A service stores a map.

- `serving`: it serves the connections of every new process
- `distinct`: the map repeats no key at any depth
- `found`: each text is that of a value of the map in some order, and each value has a text
-/
structure Stores (map : Data) (service : Service) : Prop where
  serving : ∀ side, service.reconnected.Serving side
  distinct : (Value.object map).Throughout Value.DistinctKeys
  found : ∀ key, Option.Rel Value.Reordered ((service.texts key).map decodeValue) (map.get? key)

variable {service after : Service} {map : Data}

/-- It does not matter to what is stored which connections are open. -/
theorem Stores.of_reconnected (stores : service.Stores map)
    (same : after.reconnected = service.reconnected) : after.Stores map where
  serving := same ▸ stores.serving
  distinct := stores.distinct
  found := by
    have texts : after.texts = service.texts := (congrArg Service.texts same :)
    exact texts ▸ stores.found

/-- A service that serves new connections stores what its listing is loaded as. -/
theorem stores_load (serving : ∀ side, service.reconnected.Serving side) :
    service.Stores (service.texts.load [] service.listing) where
  serving := serving
  distinct := by
    have distinct := Texts.distinct_load service.texts service.listing
    refine Value.throughout_object.mpr ⟨distinct, fun entry inside => ?_⟩
    -- Every value was decoded from the text of its key.
    have found := OrderedMap.get?_of_mem distinct inside
    rw [get?_load_listing] at found
    obtain ⟨raw, -, decoded⟩ := Option.map_eq_some_iff.mp found
    exact decoded ▸ (decodeValue_sound raw).distinct
  found key := by
    rw [get?_load_listing]
    cases (service.texts key).map decodeValue with
    | none => exact .none
    | some value => exact .some (.same value)

/-- A map in another order is stored as well. -/
theorem Stores.reordered (stores : service.Stores map) {other : Data}
    (order : (Value.object map).Reordered (.object other)) : service.Stores other where
  serving := stores.serving
  distinct := order.symm.throughout Value.Reordered.distinctKeys stores.distinct
  found key :=
    Value.reordered_rel_trans (stores.found key) (order.get? stores.distinct.here key)

/-- The listing of a service is loaded as the map that it stores, in some order. -/
theorem Stores.load (stores : service.Stores map) :
    (Value.object (service.texts.load [] service.listing)).Reordered (.object map) :=
  Value.reordered_of_get? (Texts.distinct_load _ _) stores.distinct.here fun key => by
    rw [get?_load_listing]
    exact stores.found key

/-- Values that are stored over a map are found with everything else that was in it. -/
theorem Stores.storeMany (stores : service.Stores map) {overrides : Data}
    (distinct : (Value.object (map.merge overrides)).Throughout Value.DistinctKeys)
    (keys : overrides.Distinct) (storable : ∀ entry ∈ overrides, entry.2.Storable) :
    (service.storeMany (Remote.encoded overrides)).Stores (map.merge overrides) where
  serving side := by
    -- Texts that are stored close no connection and bring no fault.
    have serving := (stores.serving side).storeMany (Remote.encoded overrides)
    rw [storeMany_eq] at serving ⊢
    exact serving
  distinct := distinct
  found key := by
    rw [texts_storeMany, Texts.decode_storeMany_encoded keys storable, OrderedMap.get?_merge keys]
    -- An overriding value is the same on both sides.
    cases overrides.get? key with
    | none => exact stores.found key
    | some value => exact .some (.same value)

end Service

namespace Command

variable {service : Service} {map : Data} {command : Command} (size : BatchSize)

/-- A command that writes to a service merges what it writes into the map. -/
theorem applied_redis {overrides : Data} (writes : command.overrides? = some overrides) :
    command.applied .redis map = map.merge overrides := by
  rw [applied, writes]
  rfl

/-- What a command writes to a service is read back from its texts when its floats are. -/
theorem storable_of_fits {overrides : Data} (writes : command.overrides? = some overrides)
    (fits : command.Fits .redis map) : ∀ entry ∈ overrides, entry.2.Storable := by
  intro entry inside
  obtain ⟨distinct, nested⟩ := overrides_sound writes
  have floats : (Value.object overrides).Throughout (Value.FloatSatisfies Binary64.ReadsBack) :=
    fits overrides writes rfl
  exact decodeValue_encodeValue ⟨(Value.throughout_object.mp distinct).2 entry inside,
    (Value.throughout_object.mp floats).2 entry inside⟩ (nested entry inside)

/-- The connections of a command are closed when it ends, and nothing else changes. -/
theorem onService_closes (store : SyncedStore Service) :
    (command.onService Redis.client size store).1 =
        (command.overService Redis.client size store).1 ∧
      (command.onService Redis.client size store).2.outside.reconnected =
        (command.overService Redis.client size store).2.outside.reconnected :=
  ⟨rfl, rfl⟩

section Opened

variable (stores : service.Stores map)
include stores

/-- Calls change nothing about what a service stores. -/
theorem stores_withCalls (calls : List (Side × ServiceCommand)) :
    (service.withCalls calls).Stores map where
  serving side := (stores.serving side).withCalls calls
  distinct := stores.distinct
  found := stores.found

/-- A service stores the merged map once the texts of all overriding values are in it. -/
theorem stores_applied {overrides : Data} (writes : command.overrides? = some overrides)
    (fits : command.Fits .redis map) (calls : List (Side × ServiceCommand)) :
    ((service.withCalls calls).storeMany (Remote.encoded overrides)).Stores
      (command.applied .redis map) := by
  rw [applied_redis writes]
  exact (stores_withCalls stores calls).storeMany (distinct_merge stores.distinct writes)
    (overrides_sound writes).1.here (storable_of_fits writes fits)

/-- A command is performed over open connections to a service that stores a map. -/
theorem overService_performs (opened : ∀ side, service.Serving side) (command : Command) :
    command.Performs .redis Service.Stores map
      (command.overService Redis.client size ⟨[], service, true, false⟩) := by
  have serving := opened .async
  have single : (⟨[], service, true, false⟩ : SyncedStore Service).fullSyncOnly = false := rfl
  cases command with
  | get key default fallback =>
    have read := serving.redis_readOne key
    rw [← Remote.destination_readOne Redis.client size] at read
    -- Only the key itself is asked for, and the service keeps its texts.
    obtain ⟨answered, left⟩ := SyncedStore.get_of_read single (congrArg Prod.fst read) fallback
    have report : ((Command.get key default fallback).overService Redis.client size
        ⟨[], service, true, false⟩).1 = reportFound key default _ :=
      congrArg (Report.ofAnswer (reportFound key default)) answered
    refine ⟨?_, fun _ => ?_⟩
    · rw [report]
      exact reportFound_finds stores.distinct key default (stores.found key)
    · exact (left.trans (congrArg Prod.snd read)) ▸ stores_withCalls stores _
  | set key raw policy =>
    rw [overService, execute]
    · cases writes : policy.resolve true with
      | true =>
        have overrides : (Command.set key raw policy).overrides? = some [(key, decodeValue raw)] :=
          if_pos writes
        have wrote : (Remote.destination Redis.client size).writeOne .async key (decodeValue raw)
          service = _ := serving.redis_writeOne key (decodeValue raw)
        rw [SyncedStore.set_of_single single writes, wrote]
        refine ⟨?_, fun fits => stores_applied stores overrides fits _⟩
        rw [Answers, overrides]
        rfl
      | false =>
        have overrides : (Command.set key raw policy).overrides? = none := if_neg (by simp [writes])
        rw [SyncedStore.set_of_unwritten writes]
        refine ⟨?_, fun _ => (applied_of_none overrides .redis map).symm ▸ stores⟩
        rw [Answers, overrides]
        rfl
    · simp
  | dump =>
    -- All keys are listed and fetched in batches.
    obtain ⟨calls, read⟩ := serving.redis_readAll size
    rw [overService, execute, SyncedStore.readData_eq, Remote.destination_readAll, read]
    · exact ⟨Report.prints_of_reordered stores.load stores.distinct,
        fun _ => stores_withCalls stores calls⟩
    · simp
  | importObject raw =>
    rw [overService]
    · rcases import_cases (Remote.destination Redis.client size) raw ⟨[], service, true, false⟩ with
        ⟨overrides, writes, executed⟩ | ⟨unwritten, error, executed⟩
      · -- Nothing is in memory yet, so the object is written as it is.
        have fresh : OrderedMap.merge [] overrides = overrides :=
          OrderedMap.ofEntries_of_distinct (overrides_sound writes).1.here
        obtain ⟨calls, wrote⟩ := serving.redis_writeAll overrides
        rw [← Remote.destination_writeAll Redis.client size] at wrote
        rw [executed, SyncedStore.update_eq, SyncedStore.writeData_eq, fresh, wrote]
        refine ⟨?_, fun fits => stores_applied stores writes fits calls⟩
        rw [Answers, writes]
        rfl
      · rw [executed]
        refine ⟨?_, fun _ => (applied_of_none unwritten .redis map).symm ▸ stores⟩
        rw [Answers, unwritten]
        exact ⟨error, rfl⟩
    · simp
  | ping =>
    rw [overService, serving.redis_ping]
    exact ⟨rfl, fun _ => stores_withCalls stores _⟩
  | harden mode => exact ⟨rfl, fun _ => stores⟩

end Opened

/-- A new process performs every command over a service that stores a map. -/
theorem onService_performs (stores : service.Stores map) (command : Command) :
    command.Performs .redis Service.Stores map
      (command.onService Redis.client size ⟨[], service.reconnected, true, false⟩) := by
  -- New connections see the same texts, and closing them at the end changes none.
  have reconnected : service.reconnected.Stores map := stores.of_reconnected rfl
  have performed := overService_performs size reconnected stores.serving command
  obtain ⟨same, closed⟩ :=
    @onService_closes command size ⟨[], service.reconnected, true, false⟩
  exact ⟨same ▸ performed.answers, fun fits => (performed.keeps fits).of_reconnected closed⟩

end Command

end SyncStore
