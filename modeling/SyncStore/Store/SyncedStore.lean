import SyncStore.Store.Destination

/-! A synced store keeps its data in memory and in step with a destination. -/

namespace SyncStore

/--
A synced store and the outside state of its destination.

- `cache`: the data in memory
- `writesByDefault`: single changes are written outside unless a call says otherwise
- `fullSyncOnly`: only the whole data is ever read or written outside
-/
structure SyncedStore (σ : Type) where
  cache : Data
  outside : σ
  writesByDefault : Bool
  fullSyncOnly : Bool

namespace SyncedStore

variable {σ : Type} (destination : Destination σ)

/-- A new store is empty, and a destination without single keys restricts it to whole writes. -/
def new (outside : σ) (writesByDefault : Bool) : SyncedStore σ :=
  ⟨[], outside, writesByDefault, !destination.perKey⟩

/-- A store may be restricted to whole reads and writes over any destination. -/
def bulkOnly (store : SyncedStore σ) : SyncedStore σ := { store with fullSyncOnly := true }

/-- Single calls on a store restricted to whole reads and writes are refused. -/
def refuseSingle {α : Type} (operation : String) (store : SyncedStore σ) :
    Outcome (SyncedStore σ) α :=
  (.error (.unsupported destination.name operation), store)

/-- A failed read is told, or the key is answered from memory. -/
def fallBack (key : String) (fallback : Fallback) (error : StoreError) (store : SyncedStore σ) :
    Except StoreError (Option Value) :=
  match fallback with
  | .propagate => .error error
  | .cached => .ok (store.cache.get? key)

/-! Each operation is written out twice: it blocks its caller, or suspends it. -/

namespace Blocking

/-- The whole data is written outside. -/
def writeData (store : SyncedStore σ) : Outcome (SyncedStore σ) Unit :=
  match destination.writeAll .sync store.cache store.outside with
  | (answer, outside) => (answer, { store with outside := outside })

/-- One key and value are written outside, whatever is in memory. -/
def writeDatum (key : String) (value : Value) (store : SyncedStore σ) :
    Outcome (SyncedStore σ) Unit :=
  if store.fullSyncOnly then refuseSingle destination "write_datum" store
  else
    match destination.writeOne .sync key value store.outside with
    | (answer, outside) => (answer, { store with outside := outside })

/-- The whole data is read from outside and replaces the data in memory; a
failure replaces nothing. -/
def readData (store : SyncedStore σ) : Outcome (SyncedStore σ) Data :=
  match destination.readAll .sync store.outside with
  | (.ok data, outside) => (.ok data, { store with cache := data, outside := outside })
  -- Memory is kept, and only what is outside may have changed.
  | (.error error, outside) => (.error error, { store with outside := outside })

/-- One key is read from outside, and memory stays as it is. -/
def readDatum (key : String) (store : SyncedStore σ) : Outcome (SyncedStore σ) (Option Value) :=
  if store.fullSyncOnly then refuseSingle destination "read_datum" store
  else
    match destination.readOne .sync key store.outside with
    | (answer, outside) => (answer, { store with outside := outside })

/-- A change in memory is written outside, alone or with the whole data. -/
def syncChange (key : String) (value : Value) (store : SyncedStore σ) :
    Outcome (SyncedStore σ) Unit :=
  if store.fullSyncOnly then writeData destination store
  else writeDatum destination key value store

/--
The value of a key is read through from outside and kept in memory when it is found.

A store restricted to whole reads answers from memory, and so does a failed read that falls back.
-/
def get (key : String) (fallback : Fallback) (store : SyncedStore σ) :
    Outcome (SyncedStore σ) (Option Value) :=
  if store.fullSyncOnly then (.ok (store.cache.get? key), store)
  else
    match readDatum destination key store with
    | (.ok (some value), store) =>
      (.ok (some value), { store with cache := store.cache.insert key value })
    -- A key that is not found outside stays in memory if it was there.
    | (.ok none, store) => (.ok none, store)
    | (.error error, store) => (store.fallBack key fallback error, store)

/-- A value is set in memory first, and then written outside when the policy says so. -/
def set (key : String) (value : Value) (policy : WritePolicy) (store : SyncedStore σ) :
    Outcome (SyncedStore σ) Unit :=
  -- Memory keeps the value even if the write outside fails.
  let changed := { store with cache := store.cache.insert key value }
  if policy.resolve store.writesByDefault then syncChange destination key value changed
  else (.ok (), changed)

/-- The data in memory is replaced, and the whole is written outside. -/
def overwrite (data : Data) (store : SyncedStore σ) : Outcome (SyncedStore σ) Unit :=
  writeData destination { store with cache := data }

/-- Overriding entries are merged into memory, and the whole is written outside. -/
def update (overrides : Data) (store : SyncedStore σ) : Outcome (SyncedStore σ) Unit :=
  writeData destination { store with cache := store.cache.merge overrides }

end Blocking

namespace Suspending

/-- The whole data is written outside. -/
def writeData (store : SyncedStore σ) : Outcome (SyncedStore σ) Unit :=
  match destination.writeAll .async store.cache store.outside with
  | (.error error, outside) => (.error error, { store with outside := outside })
  | (.ok (), outside) => (.ok (), { store with outside := outside })

/-- One key and value are written outside, whatever is in memory. -/
def writeDatum (key : String) (value : Value) (store : SyncedStore σ) :
    Outcome (SyncedStore σ) Unit :=
  if store.fullSyncOnly then refuseSingle destination "write_datum" store
  else
    match destination.writeOne .async key value store.outside with
    | (.error error, outside) => (.error error, { store with outside := outside })
    | (.ok (), outside) => (.ok (), { store with outside := outside })

/-- The whole data is read from outside and replaces the data in memory; a
failure replaces nothing. -/
def readData (store : SyncedStore σ) : Outcome (SyncedStore σ) Data :=
  match destination.readAll .async store.outside with
  | (.error error, outside) => (.error error, { store with outside := outside })
  | (.ok data, outside) => (.ok data, { store with cache := data, outside := outside })

/-- One key is read from outside, and memory stays as it is. -/
def readDatum (key : String) (store : SyncedStore σ) : Outcome (SyncedStore σ) (Option Value) :=
  if store.fullSyncOnly then refuseSingle destination "read_datum" store
  else
    match destination.readOne .async key store.outside with
    | (answer, outside) => (answer, { store with outside := outside })

/-- A change in memory is written outside, alone or with the whole data. -/
def syncChange (key : String) (value : Value) (store : SyncedStore σ) :
    Outcome (SyncedStore σ) Unit :=
  if store.fullSyncOnly then writeData destination store
  else writeDatum destination key value store

/-- The value of a key is read through from outside and kept in memory when it is found. -/
def get (key : String) (fallback : Fallback) (store : SyncedStore σ) :
    Outcome (SyncedStore σ) (Option Value) :=
  if store.fullSyncOnly then (.ok (store.cache.get? key), store)
  else
    match readDatum destination key store with
    | (.ok (some value), store) =>
      (.ok (some value), { store with cache := store.cache.insert key value })
    | (.ok none, store) => (.ok none, store)
    | (.error error, store) => (store.fallBack key fallback error, store)

/-- A value is set in memory first, and then written outside when the policy says so. -/
def set (key : String) (value : Value) (policy : WritePolicy) (store : SyncedStore σ) :
    Outcome (SyncedStore σ) Unit :=
  let changed := { store with cache := store.cache.insert key value }
  if policy.resolve store.writesByDefault then syncChange destination key value changed
  else (.ok (), changed)

/-- The data in memory is replaced, and the whole is written outside. -/
def overwrite (data : Data) (store : SyncedStore σ) : Outcome (SyncedStore σ) Unit :=
  writeData destination { store with cache := data }

/-- Overriding entries are merged into memory, and the whole is written outside. -/
def update (overrides : Data) (store : SyncedStore σ) : Outcome (SyncedStore σ) Unit :=
  writeData destination { store with cache := store.cache.merge overrides }

end Suspending

/-! From either side a store runs the operation that is written out for it. -/

/-- The whole data is written outside. -/
def writeData (side : Side) (store : SyncedStore σ) : Outcome (SyncedStore σ) Unit :=
  match side with
  | .sync => Blocking.writeData destination store
  | .async => Suspending.writeData destination store

/-- One key and value are written outside. -/
def writeDatum (side : Side) (key : String) (value : Value) (store : SyncedStore σ) :
    Outcome (SyncedStore σ) Unit :=
  match side with
  | .sync => Blocking.writeDatum destination key value store
  | .async => Suspending.writeDatum destination key value store

/-- The whole data is read from outside. -/
def readData (side : Side) (store : SyncedStore σ) : Outcome (SyncedStore σ) Data :=
  match side with
  | .sync => Blocking.readData destination store
  | .async => Suspending.readData destination store

/-- One key is read from outside. -/
def readDatum (side : Side) (key : String) (store : SyncedStore σ) :
    Outcome (SyncedStore σ) (Option Value) :=
  match side with
  | .sync => Blocking.readDatum destination key store
  | .async => Suspending.readDatum destination key store

/-- The value of a key is read through. -/
def get (side : Side) (key : String) (fallback : Fallback) (store : SyncedStore σ) :
    Outcome (SyncedStore σ) (Option Value) :=
  match side with
  | .sync => Blocking.get destination key fallback store
  | .async => Suspending.get destination key fallback store

/-- A value is set. -/
def set (side : Side) (key : String) (value : Value) (policy : WritePolicy)
    (store : SyncedStore σ) : Outcome (SyncedStore σ) Unit :=
  match side with
  | .sync => Blocking.set destination key value policy store
  | .async => Suspending.set destination key value policy store

/-- The data is replaced. -/
def overwrite (side : Side) (data : Data) (store : SyncedStore σ) :
    Outcome (SyncedStore σ) Unit :=
  match side with
  | .sync => Blocking.overwrite destination data store
  | .async => Suspending.overwrite destination data store

/-- Overriding entries are merged in. -/
def update (side : Side) (overrides : Data) (store : SyncedStore σ) :
    Outcome (SyncedStore σ) Unit :=
  match side with
  | .sync => Blocking.update destination overrides store
  | .async => Suspending.update destination overrides store

end SyncedStore

end SyncStore
