import SyncStore.Store.SyncedStore

/-! A backend holds the data of a datastore, in memory alone or in step with a destination. -/

namespace SyncStore

/-- The operations of a backend over states of some type. -/
structure Backend (σ : Type) where
  data : σ → Data
  get : Side → String → Fallback → σ → Outcome σ (Option Value)
  set : Side → String → Value → WritePolicy → σ → Outcome σ Unit
  overwrite : Side → Data → σ → Outcome σ Unit
  update : Side → Data → σ → Outcome σ Unit
  readData : Side → σ → Outcome σ Data

namespace Backend

variable {σ : Type}

/-- A missing key answers a default; this too is written out for each side. -/
def getOr (backend : Backend σ) (side : Side) (key : String) (default : Value)
    (fallback : Fallback) (state : σ) : Outcome σ Value :=
  match side with
  | .sync =>
    match backend.get .sync key fallback state with
    | (.error error, state) => (.error error, state)
    | (.ok found, state) => (.ok (found.getD default), state)
  | .async =>
    match backend.get .async key fallback state with
    | (.error error, state) => (.error error, state)
    | (.ok found, state) => (.ok (found.getD default), state)

/-- Memory alone never fails and ignores every policy, and it has nothing to suspend for. -/
def memory : Backend Data where
  data := id
  get _ key _ data := (.ok (data.get? key), data)
  set _ key value _ data := (.ok (), data.insert key value)
  overwrite _ data _ := (.ok (), data)
  update _ overrides data := (.ok (), data.merge overrides)
  readData _ data := (.ok data, data)

/-- A synced store is a backend over any destination. -/
def synced (destination : Destination σ) : Backend (SyncedStore σ) where
  data store := store.cache
  get := SyncedStore.get destination
  set := SyncedStore.set destination
  overwrite := SyncedStore.overwrite destination
  update := SyncedStore.update destination
  readData := SyncedStore.readData destination

end Backend

/-- What a caller asks of a backend. -/
inductive Request where
  | data
  | get (key : String) (fallback : Fallback)
  | getOr (key : String) (default : Value) (fallback : Fallback)
  | set (key : String) (value : Value) (policy : WritePolicy)
  | overwrite (data : Data)
  | update (overrides : Data)
  | readData

/-- What a backend answers. -/
inductive Reply where
  | done
  | value (found : Option Value)
  | data (data : Data)

namespace Backend

variable {σ : Type}

/-- A request runs the operation it names. -/
def perform (backend : Backend σ) (side : Side) (request : Request) (state : σ) :
    Outcome σ Reply :=
  match request with
  | .data => (.ok (.data (backend.data state)), state)
  | .get key fallback =>
    match backend.get side key fallback state with
    | (answer, state) => (answer.map .value, state)
  | .getOr key default fallback =>
    match backend.getOr side key default fallback state with
    | (answer, state) => (answer.map (.value ∘ some), state)
  | .set key value policy =>
    match backend.set side key value policy state with
    | (answer, state) => (answer.map fun _ => .done, state)
  | .overwrite data =>
    match backend.overwrite side data state with
    | (answer, state) => (answer.map fun _ => .done, state)
  | .update overrides =>
    match backend.update side overrides state with
    | (answer, state) => (answer.map fun _ => .done, state)
  | .readData =>
    match backend.readData side state with
    | (answer, state) => (answer.map .data, state)

end Backend

/-- What a caller asks of a synced store beyond the requests of any backend. -/
inductive StoreRequest where
  | backend (request : Request)
  | writeData
  | writeDatum (key : String) (value : Value)
  | readDatum (key : String)
  | setWriteDefault (writes : Bool)

/-- A request to a synced store runs the operation it names. -/
def SyncedStore.perform {σ : Type} (destination : Destination σ) (side : Side)
    (request : StoreRequest) (store : SyncedStore σ) : Outcome (SyncedStore σ) Reply :=
  match request with
  | .backend request => (Backend.synced destination).perform side request store
  | .writeData =>
    match writeData destination side store with
    | (answer, store) => (answer.map fun _ => .done, store)
  | .writeDatum key value =>
    match writeDatum destination side key value store with
    | (answer, store) => (answer.map fun _ => .done, store)
  | .readDatum key =>
    match readDatum destination side key store with
    | (answer, store) => (answer.map .value, store)
  | .setWriteDefault writes => (.ok .done, { store with writesByDefault := writes })

end SyncStore
