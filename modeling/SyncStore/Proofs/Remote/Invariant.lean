import SyncStore.Proofs.OrderedMap
import SyncStore.Proofs.Remote.Twins
import SyncStore.Remote.Service

/-! What every call of a client keeps is kept by every operation of a remote destination. -/

namespace SyncStore

variable {σ : Type}

/-- A client keeps a property when each of its calls does, whatever it answers. -/
structure Client.Keeps (client : Client σ) (holds : σ → Prop) : Prop where
  get : ∀ key state, holds state → holds (client.get key state).2
  set : ∀ key raw state, holds state → holds (client.set key raw state).2
  getMany : ∀ keys state, holds state → holds (client.getMany keys state).2
  setMany : ∀ pairs state, holds state → holds (client.setMany pairs state).2
  scan : ∀ cursor pattern count state, holds state →
    holds (client.scan cursor pattern count state).2
  ping : ∀ state, holds state → holds (client.ping state).2
  close : ∀ state, holds state → holds (client.close state).2

/-- A client keeps a property while it is read as a whole when its scans and fetches do. -/
structure Client.KeepsReading (client : Client σ) (holds : σ → Prop) : Prop where
  getMany : ∀ keys state, holds state → holds (client.getMany keys state).2
  scan : ∀ cursor pattern count state, holds state →
    holds (client.scan cursor pattern count state).2

/-- What a client keeps in all its calls it keeps while it is read as a whole. -/
theorem Client.Keeps.reading {client : Client σ} {holds : σ → Prop} (keeps : client.Keeps holds) :
    client.KeepsReading holds :=
  ⟨keeps.getMany, keeps.scan⟩

namespace Remote

/--
An operation of a remote destination.

- `ping`: the service is asked whether it can be reached
- `disconnect`: the connection of the side is closed
-/
inductive Operation where
  | readAll
  | writeAll (data : Data)
  | readOne (key : String)
  | writeOne (key : String) (value : Value)
  | ping
  | disconnect

/-- What an operation leaves behind, whether or not it succeeds. -/
def Operation.after (clients : Side → Client σ) (size : BatchSize) (side : Side) (state : σ) :
    Operation → σ
  | .readAll => ((destination clients size).readAll side state).2
  | .writeAll data => ((destination clients size).writeAll side data state).2
  | .readOne key => ((destination clients size).readOne side key state).2
  | .writeOne key value => ((destination clients size).writeOne side key value state).2
  | .ping => ((clients side).ping state).2
  | .disconnect => ((clients side).close state).2

/-- What a row of operations leaves behind, each made from its side. -/
def Operation.afterAll (clients : Side → Client σ) (size : BatchSize)
    (operations : List (Side × Operation)) (state : σ) : σ :=
  operations.foldl (fun state entry => entry.2.after clients size entry.1 state) state

section Keeps

variable {client : Client σ} {holds : σ → Prop}

/-- Fetching a batch keeps what the client keeps. -/
theorem fetch_keeps (keeps : client.KeepsReading holds) (batch : List String) (data : Data)
    {state : σ}
    (before : holds state) : holds (fetch client batch data state).2 := by
  have kept := keeps.getMany batch state before
  unfold fetch
  cases called : client.getMany batch state with
  | mk answer after =>
    rw [called] at kept
    -- The answer decides about the data, and not about what is left behind.
    cases answer with
    | error error => exact kept
    | ok slots =>
      dsimp only
      split <;> exact kept

/-- Taking keys into batches keeps what the client keeps. -/
theorem takeKeys_keeps (keeps : client.KeepsReading holds) (size : Nat) (keys pending : List String)
    (data : Data) {state : σ} (before : holds state) :
    holds (takeKeys client size keys pending data state).2 := by
  -- Each key is put to the pending ones, and a call is made only for a full batch.
  induction keys generalizing pending data state with
  | nil => exact before
  | cons key rest ih =>
    rw [takeKeys]
    split
    · -- The batch is full, so it is fetched before the next key is taken.
      have kept := fetch_keeps keeps (pending ++ [key]) data before
      cases fetched : fetch client (pending ++ [key]) data state with
      | mk answer after =>
        rw [fetched] at kept
        cases answer with
        | error error => exact kept
        | ok fresh => exact ih [] fresh kept
    · exact ih (pending ++ [key]) data before

/-- Scanning on from a cursor keeps what the client keeps. -/
theorem scanFrom_keeps (keeps : client.KeepsReading holds) (size steps : Nat) (cursor : Cursor)
    (pending : List String) (data : Data) {state : σ} (before : holds state) :
    holds (scanFrom client size steps cursor pending data state).2 := by
  induction steps generalizing cursor pending data state with
  | zero => exact before
  | succ steps ih =>
    have scanned := keeps.scan cursor everyKey size state before
    rw [scanFrom]
    cases called : client.scan cursor everyKey size state with
    | mk answer after =>
      rw [called] at scanned
      cases answer with
      | error error => exact scanned
      | ok page =>
        -- The keys of the page are taken before anything else is asked.
        obtain ⟨next, keys⟩ := page
        have kept := takeKeys_keeps keeps size keys pending data scanned
        dsimp only
        cases taken : takeKeys client size keys pending data after with
        | mk answer after =>
          rw [taken] at kept
          cases answer with
          | error error => exact kept
          | ok filled =>
            dsimp only
            -- The scan goes on, or ends with nothing pending, or with one more batch.
            split
            · exact ih next filled.1 filled.2 kept
            · split
              · exact kept
              · exact fetch_keeps keeps filled.1 filled.2 kept

/-- A whole read keeps what the client keeps. -/
theorem readAll_keeps (keeps : client.KeepsReading holds) (size : BatchSize) {state : σ}
    (before : holds state) : holds (readAll client size state).2 :=
  scanFrom_keeps keeps size.val _ 0 [] [] before

/-- A write of the whole data keeps what the client keeps. -/
theorem writeAll_keeps (keeps : client.Keeps holds) (data : Data) {state : σ}
    (before : holds state) : holds (writeAll client data state).2 := by
  unfold writeAll
  -- Empty data is written without a call.
  split
  · exact before
  · exact keeps.setMany _ state before

end Keeps

/-- Every operation keeps what both clients keep. -/
theorem Operation.after_keeps {clients : Side → Client σ} {holds : σ → Prop}
    (keeps : ∀ side, (clients side).Keeps holds) (size : BatchSize) (side : Side)
    (operation : Operation) {state : σ} (before : holds state) :
    holds (operation.after clients size side state) := by
  -- Every operation but the two on all data is one call.
  cases operation with
  | readAll =>
    rw [after, destination_readAll]
    exact readAll_keeps (keeps side).reading size before
  | writeAll data =>
    rw [after, destination_writeAll]
    exact writeAll_keeps (keeps side) data before
  | readOne key =>
    rw [after, destination_readOne]
    exact (keeps side).get key state before
  | writeOne key value =>
    rw [after, destination_writeOne]
    exact (keeps side).set key (encodeValue value) state before
  | ping => exact (keeps side).ping state before
  | disconnect => exact (keeps side).close state before

/-- Every row of operations keeps it as well. -/
theorem Operation.afterAll_keeps {clients : Side → Client σ} {holds : σ → Prop}
    (keeps : ∀ side, (clients side).Keeps holds) (size : BatchSize)
    (operations : List (Side × Operation)) {state : σ} (before : holds state) :
    holds (afterAll clients size operations state) := by
  -- Each operation starts from what the ones before it left.
  induction operations generalizing state with
  | nil => exact before
  | cons entry rest ih => exact ih (after_keeps keeps size entry.1 entry.2 before)

end Remote

namespace Service

/-- A served command keeps what its answer keeps, unless that looks at the log. -/
theorem serve_holds {α : Type} {holds : Service → Prop} {side : Side} {command : ServiceCommand}
    {answer : Service → Outcome Service α}
    (unlogged : ∀ service, holds service → holds (service.log side command))
    (answers : ∀ service, holds service → holds (answer service).2) (service : Service)
    (before : holds service) : holds (serve side command answer service).2 := by
  have logged := unlogged service before
  unfold serve
  -- A refused command is logged, and nothing else happens.
  dsimp only
  split
  · exact logged
  · cases service.failure with
    | some error => exact logged
    | none => exact answers _ logged

/-- A service has a key when there is content under it, whether or not that is text. -/
def HasKey (key : String) (service : Service) : Prop := key ∈ service.contents.keys

/-- No key is lost where a key is stored. -/
theorem HasKey.store {service : Service} {kept : String} (before : service.HasKey kept)
    (key raw : String) : (service.store key raw).HasKey kept :=
  OrderedMap.mem_keys_insert.mpr (Or.inr before)

/-- No key is lost where several keys are stored. -/
theorem HasKey.storeMany {service : Service} {kept : String} (before : service.HasKey kept)
    (pairs : List (String × String)) : (service.storeMany pairs).HasKey kept := by
  induction pairs generalizing service with
  | nil => exact before
  | cons pair rest ih => exact ih (before.store pair.1 pair.2)

/-- Each client of the service in memory keeps every key that has content. -/
theorem client_keeps_key (side : Side) (kept : String) : (client side).Keeps (HasKey kept) where
  get key state before := serve_holds (fun _ => id) (fun _ => id) state before
  set key raw state before :=
    serve_holds (fun _ => id) (fun _ held => held.store key raw) state before
  getMany keys state before := serve_holds (fun _ => id) (fun _ => id) state before
  setMany pairs state before :=
    serve_holds (fun _ => id) (fun _ held => held.storeMany pairs) state before
  scan cursor pattern count state before := by
    refine serve_holds (fun _ => id) (fun service held => ?_) state before
    -- A scan step takes at most an answer from the script.
    dsimp only [scanStep]
    split <;> exact held
  ping state before := serve_holds (fun _ => id) (fun _ => id) state before
  close state before := before

end Service

end SyncStore
