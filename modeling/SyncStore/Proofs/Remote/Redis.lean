import SyncStore.Proofs.Remote.Merging
import SyncStore.Remote.Redis.Connection

/-! Over open connections a Redis client works on the service like the client in memory. -/

namespace SyncStore

/--
A client reads like another one when their scans and fetches agree where a property holds.

Batches without keys are never fetched, so nothing is asked about them.
-/
structure Client.ReadsLike {σ : Type} (client other : Client σ) (holds : σ → Prop) : Prop where
  getMany : ∀ keys state, keys ≠ [] → holds state →
    client.getMany keys state = other.getMany keys state
  scan : ∀ cursor pattern count state, holds state →
    client.scan cursor pattern count state = other.scan cursor pattern count state
  stepsLeft : ∀ state, client.stepsLeft state = other.stepsLeft state

namespace Remote

variable {σ : Type} {client other : Client σ} {holds : σ → Prop}
  (like : client.ReadsLike other holds)
include like

/-- A batch with keys is fetched alike. -/
theorem fetch_congr {batch : List String} (filled : batch ≠ []) (data : Data) {state : σ}
    (before : holds state) : fetch client batch data state = fetch other batch data state := by
  rw [fetch, fetch, like.getMany batch state filled before]

/-- Keys are taken into batches alike, because each batch that is fetched ends in a key. -/
theorem takeKeys_congr (keeps : other.KeepsReading holds) (size : Nat)
    (keys pending : List String) (data : Data) {state : σ} (before : holds state) :
    takeKeys client size keys pending data state =
      takeKeys other size keys pending data state := by
  induction keys generalizing pending data state with
  | nil => rfl
  | cons key rest ih =>
    rw [takeKeys, takeKeys]
    split
    · rw [fetch_congr like (by simp) data before]
      have kept := fetch_keeps keeps (pending ++ [key]) data before
      -- The next keys are taken where the batch was fetched.
      cases fetched : fetch other (pending ++ [key]) data state with
      | mk answer after =>
        rw [fetched] at kept
        cases answer with
        | error error => rfl
        | ok fresh => exact ih [] fresh kept
    · exact ih (pending ++ [key]) data before

/-- A scan goes on alike from every cursor. -/
theorem scanFrom_congr (keeps : other.KeepsReading holds) (size steps : Nat) (cursor : Cursor)
    (pending : List String) (data : Data) {state : σ} (before : holds state) :
    scanFrom client size steps cursor pending data state =
      scanFrom other size steps cursor pending data state := by
  induction steps generalizing cursor pending data state with
  | zero => rfl
  | succ steps ih =>
    rw [scanFrom, scanFrom, like.scan cursor everyKey size state before]
    have scanned := keeps.scan cursor everyKey size state before
    cases called : other.scan cursor everyKey size state with
    | mk answer after =>
      rw [called] at scanned
      cases answer with
      | error error => rfl
      | ok page =>
        obtain ⟨next, keys⟩ := page
        dsimp only
        rw [takeKeys_congr like keeps size keys pending data scanned]
        have kept := takeKeys_keeps keeps size keys pending data scanned
        cases taken : takeKeys other size keys pending data after with
        | mk answer after =>
          rw [taken] at kept
          cases answer with
          | error error => rfl
          | ok filled =>
            obtain ⟨waiting, loaded⟩ := filled
            dsimp only
            -- The last batch is fetched only when there are keys in it.
            split
            · exact ih next waiting loaded kept
            · split
              · rfl
              · rename_i left
                exact fetch_congr like (by simpa using left) loaded kept

/-- The whole service is read alike. -/
theorem readAll_congr (keeps : other.KeepsReading holds) (size : BatchSize) {state : σ}
    (before : holds state) : readAll client size state = readAll other size state := by
  rw [readAll, readAll, like.stepsLeft]
  exact scanFrom_congr like keeps size.val _ 0 [] [] before

end Remote

namespace Service

/-- The side has an open connection. -/
def Opened (side : Side) (service : Service) : Prop := service.isOpen side = true

/-- No read closes a connection. -/
theorem client_keeps_opened (side : Side) : (client side).KeepsReading (Opened side) where
  getMany keys state before := serve_holds (fun _ => id) (fun _ => id) state before
  scan cursor pattern count state before := by
    refine serve_holds (fun _ => id) (fun service held => ?_) state before
    -- A scan step takes at most an answer from the script.
    dsimp only [scanStep]
    split <;> exact held

end Service

namespace Redis

/-- A command goes out over the connection of its side as long as that is open. -/
def sent {α : Type} (side : Side) (command : ServiceCommand)
    (answer : Service → Outcome Service α) (service : Service) : Outcome Service α :=
  if service.isOpen side then service.serve side command answer
  else (.error (.connectionFailed closedReason), service)

/-- The managed connection sends a command as the blocking one does. -/
theorem query_eq {α : Type} (command : ServiceCommand) (answer : Service → Outcome Service α) :
    query command answer = sent .async command answer := by
  funext service
  unfold query sent managed
  split <;> rename_i opened <;> split at opened <;> simp_all

variable (side : Side)

theorem client_get (key : String) :
    (client side).get key = sent side (.get key) fun service => (service.lookup key, service) := by
  cases side with
  | sync => rfl
  | async => exact query_eq ..

theorem client_set (key value : String) :
    (client side).set key value =
      sent side (.set key value) fun service => (.ok (), service.store key value) := by
  cases side with
  | sync => rfl
  | async => exact query_eq ..

/-- No keys are asked for without a command. -/
theorem client_getMany (keys : List String) :
    (client side).getMany keys =
      if keys.isEmpty then fun service => (.ok [], service)
      else sent side (.getMany keys) fun service =>
        ((keys.mapM service.lookup).map (Service.withSurplus service.surplus), service) := by
  cases side with
  | sync => rfl
  | async =>
    rw [← query_eq]
    rfl

/-- No pairs are stored without a command. -/
theorem client_setMany (pairs : List (String × String)) :
    (client side).setMany pairs =
      if pairs.isEmpty then fun service => (.ok (), service)
      else sent side (.setMany pairs) fun service => (.ok (), service.storeMany pairs) := by
  cases side with
  | sync => rfl
  | async =>
    rw [← query_eq]
    rfl

theorem client_scan (cursor : Cursor) (pattern : String) (count : Nat) :
    (client side).scan cursor pattern count =
      sent side (.scan cursor pattern count) fun service =>
        (.ok (service.scanStep cursor pattern count).1,
          (service.scanStep cursor pattern count).2) := by
  cases side with
  | sync => rfl
  | async => exact query_eq ..

theorem client_ping :
    (client side).ping = sent side .ping fun service => (.ok "PONG", service) := by
  cases side with
  | sync => rfl
  | async => exact query_eq ..

/-- A connection is closed like that of a service in memory. -/
theorem client_close : (client side).close = (Service.client side).close := by
  cases side <;> rfl

theorem client_stepsLeft : (client side).stepsLeft = (Service.client side).stepsLeft := by
  cases side <;> rfl

variable {side} {service : Service}

/-- A command goes out over an open connection. -/
theorem sent_of_opened {α : Type} (opened : service.Opened side) (command : ServiceCommand)
    (answer : Service → Outcome Service α) :
    sent side command answer service = service.serve side command answer :=
  if_pos opened

/-- An open connection reads like that of the service in memory. -/
theorem client_readsLike (side : Side) :
    (client side).ReadsLike (Service.client side) (Service.Opened side) where
  getMany keys service filled opened := by
    rw [client_getMany, if_neg (by simpa using filled)]
    exact sent_of_opened opened _ _
  scan cursor pattern count service opened := by
    rw [client_scan]
    exact sent_of_opened opened _ _
  stepsLeft service := congrFun (client_stepsLeft side) service

end Redis

namespace Service

variable {service : Service} {side : Side} (serving : service.Serving side)
include serving

/-- The whole service is read over a Redis connection by loading its listing. -/
theorem Serving.redis_readAll (size : BatchSize) :
    ∃ calls, Remote.readAll (Redis.client side) size service =
      (.ok (service.texts.load [] service.listing), service.withCalls calls) := by
  rw [Remote.readAll_congr (Redis.client_readsLike side) (client_keeps_opened side) size
    serving.opened]
  exact serving.readAll size

/-- A key is read over a Redis connection as the value that its text decodes to. -/
theorem Serving.redis_readOne (key : String) :
    Remote.readOne (Redis.client side) key service =
      (.ok ((service.texts key).map decodeValue), service.log side (.get key)) := by
  have sent : (Redis.client side).get key service = _ :=
    (congrFun (Redis.client_get side key) service).trans
      (Redis.sent_of_opened serving.opened _ _)
  rw [serving.serve] at sent
  -- The key is looked up behind the log, where everything is still text.
  have logged := serving.withCalls (service.calls ++ [(side, .get key)])
  have found : (service.log side (.get key)).lookup key = _ := logged.lookup key
  rw [found] at sent
  rw [Remote.readOne, sent]
  rfl

/-- A value is stored over a Redis connection as its text. -/
theorem Serving.redis_writeOne (key : String) (value : Value) :
    Remote.writeOne (Redis.client side) key value service =
      (.ok (), (service.log side (.set key (encodeValue value))).store key
        (encodeValue value)) := by
  have sent : (Redis.client side).set key (encodeValue value) service = _ :=
    (congrFun (Redis.client_set side key (encodeValue value)) service).trans
      (Redis.sent_of_opened serving.opened _ _)
  rw [serving.serve] at sent
  exact sent

/-- All data is stored over a Redis connection at once. -/
theorem Serving.redis_writeAll (data : Data) :
    ∃ calls, Remote.writeAll (Redis.client side) data service =
      (.ok (), (service.withCalls calls).storeMany (Remote.encoded data)) := by
  cases data with
  | nil => exact ⟨service.calls, rfl⟩
  | cons entry rest =>
    -- There are pairs, so a command is sent.
    let pairs := Remote.encoded (entry :: rest)
    have sent : (Redis.client side).setMany pairs service =
        service.serve side (.setMany pairs) fun service => (.ok (), service.storeMany pairs) := by
      rw [Redis.client_setMany, if_neg (by simp [pairs, Remote.encoded])]
      exact Redis.sent_of_opened serving.opened _ _
    rw [serving.serve] at sent
    exact ⟨_, sent⟩

/-- A ping is answered over a Redis connection. -/
theorem Serving.redis_ping :
    (Redis.client side).ping service = (.ok "PONG", service.log side .ping) := by
  have sent : (Redis.client side).ping service = _ :=
    (congrFun (Redis.client_ping side) service).trans (Redis.sent_of_opened serving.opened _ _)
  rw [serving.serve] at sent
  exact sent

end Service

end SyncStore
