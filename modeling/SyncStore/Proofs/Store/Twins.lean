import SyncStore.Store.Backend

/-! A suspending operation does on its side of a destination what the blocking one does on its
own. -/

namespace SyncStore

variable {σ : Type}

namespace SyncedStore

variable (destination : Destination σ) (side : Side) (store : SyncedStore σ)

/-- A write of the whole data changes only what is outside, as the destination does. -/
theorem writeData_eq :
    writeData destination side store =
      ((destination.writeAll side store.cache store.outside).1,
        { store with outside := (destination.writeAll side store.cache store.outside).2 }) := by
  cases side with
  | sync => rfl
  | async =>
    simp only [writeData, Suspending.writeData]
    -- The suspending text looks at the answer and passes it on.
    rcases destination.writeAll .async store.cache store.outside with ⟨_ | _, _⟩ <;> rfl

/-- A write of one key is refused, or changes only what is outside, as the destination does. -/
theorem writeDatum_eq (key : String) (value : Value) :
    writeDatum destination side key value store =
      if store.fullSyncOnly then refuseSingle destination "write_datum" store
      else
        ((destination.writeOne side key value store.outside).1,
          { store with
            outside := (destination.writeOne side key value store.outside).2 }) := by
  cases side with
  | sync => rfl
  | async =>
    simp only [writeDatum, Suspending.writeDatum]
    rcases destination.writeOne .async key value store.outside with ⟨_ | _, _⟩ <;> rfl

/-- A read of the whole data replaces memory when it succeeds. -/
theorem readData_eq :
    readData destination side store =
      match destination.readAll side store.outside with
      | (.ok data, outside) => (.ok data, { store with cache := data, outside := outside })
      | (.error error, outside) => (.error error, { store with outside := outside }) := by
  cases side with
  | sync => rfl
  | async =>
    simp only [readData, Suspending.readData]
    rcases destination.readAll .async store.outside with ⟨_ | _, _⟩ <;> rfl

/-- A read of one key is refused, or changes only what is outside, as the destination does. -/
theorem readDatum_eq (key : String) :
    readDatum destination side key store =
      if store.fullSyncOnly then refuseSingle destination "read_datum" store
      else
        ((destination.readOne side key store.outside).1,
          { store with outside := (destination.readOne side key store.outside).2 }) := by
  cases side <;> rfl

/-- A read through answers from memory, or keeps what is found outside in memory. -/
theorem get_eq (key : String) (fallback : Fallback) :
    get destination side key fallback store =
      if store.fullSyncOnly then (.ok (store.cache.get? key), store)
      else
        match readDatum destination side key store with
        | (.ok (some value), store) =>
          (.ok (some value), { store with cache := store.cache.insert key value })
        | (.ok none, store) => (.ok none, store)
        | (.error error, store) => (store.fallBack key fallback error, store) := by
  cases side <;> rfl

/-- A set changes memory, and writes the whole data or the key alone when its policy says so. -/
theorem set_eq (key : String) (value : Value) (policy : WritePolicy) :
    set destination side key value policy store =
      if policy.resolve store.writesByDefault then
        if store.fullSyncOnly then
          writeData destination side { store with cache := store.cache.insert key value }
        else
          writeDatum destination side key value
            { store with cache := store.cache.insert key value }
      else (.ok (), { store with cache := store.cache.insert key value }) := by
  cases side <;> rfl

/-- Replaced data is written as a whole. -/
theorem overwrite_eq (data : Data) :
    overwrite destination side data store =
      writeData destination side { store with cache := data } := by
  cases side <;> rfl

/-- Merged data is written as a whole. -/
theorem update_eq (overrides : Data) :
    update destination side overrides store =
      writeData destination side { store with cache := store.cache.merge overrides } := by
  cases side <;> rfl

end SyncedStore

/-- A missing key answers the default on either side. -/
theorem Backend.getOr_eq (backend : Backend σ) (side : Side) (key : String) (default : Value)
    (fallback : Fallback) (state : σ) :
    backend.getOr side key default fallback state =
      ((backend.get side key fallback state).1.map (·.getD default),
        (backend.get side key fallback state).2) := by
  cases side with
  | sync =>
    simp only [getOr]
    rcases backend.get .sync key fallback state with ⟨_ | _, _⟩ <;> rfl
  | async =>
    simp only [getOr]
    rcases backend.get .async key fallback state with ⟨_ | _, _⟩ <;> rfl

/-- Memory answers a default in place of a missing key, and stays as it is. -/
theorem Backend.memory_getOr (side : Side) (key : String) (default : Value)
    (fallback : Fallback) (data : Data) :
    memory.perform side (.getOr key default fallback) data =
      (.ok (.value (some ((data.get? key).getD default))), data) := by
  cases side <;> rfl

namespace SyncedStore

variable (destination : Destination σ) (side : Side) (store : SyncedStore σ)

/-- A default is answered in place of a missing key, and otherwise what the read through finds. -/
theorem perform_getOr (key : String) (default : Value) (fallback : Fallback) :
    store.perform destination side (.backend (.getOr key default fallback)) =
      ((get destination side key fallback store).1.map fun found =>
          .value (some (found.getD default)),
        (get destination side key fallback store).2) := by
  simp only [perform, Backend.perform, Backend.getOr_eq]
  simp only [Backend.synced]
  rcases get destination side key fallback store with ⟨_ | _, _⟩ <;> rfl

/-- Data that was written by a request is all that is in memory. -/
theorem perform_writeData :
    store.perform destination side .writeData =
      ((destination.writeAll side store.cache store.outside).1.map fun _ => .done,
        { store with outside := (destination.writeAll side store.cache store.outside).2 }) := by
  simp only [perform, writeData_eq]

/-- Data that replaces the data in memory is written as a whole. -/
theorem perform_overwrite (data : Data) :
    store.perform destination side (.backend (.overwrite data)) =
      { store with cache := data }.perform destination side .writeData := by
  simp only [perform, Backend.perform, Backend.synced, overwrite_eq]

/-- Data that is merged into the data in memory is written with it as a whole. -/
theorem perform_update (overrides : Data) :
    store.perform destination side (.backend (.update overrides)) =
      { store with cache := store.cache.merge overrides }.perform destination side .writeData := by
  simp only [perform, Backend.perform, Backend.synced, update_eq]

end SyncedStore

end SyncStore
