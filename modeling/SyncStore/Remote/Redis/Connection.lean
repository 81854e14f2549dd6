import SyncStore.Remote.Redis.Address
import SyncStore.Remote.RemoteDestination
import SyncStore.Remote.Service

/-! A Redis connection sends commands to a server, and sends nothing once it is closed. -/

namespace SyncStore

/-- Whether the servers of a network can be reached at all. -/
inductive Network where
  | unreachable
  | reachable
  deriving DecidableEq

namespace Redis

/-- The failure of a call into a network that cannot be reached. -/
def unreachableFailure : Failure := .io .other "Network is unreachable (os error 101)"

/-- The failure of a call to a socket that does not exist. -/
def missingSocket : Failure := .io .notFound "No such file or directory (os error 2)"

/-- A connection is opened to the address that a URL names. -/
def connect (network : Network) (url : String) : Except StoreError Unit :=
  match Address.read url, network with
  | .error fault, _ => .error fault.toFailure.toStoreError
  | .ok (.socket _), _ => .error missingSocket.toStoreError
  | .ok (.host _ _), .unreachable => .error unreachableFailure.toStoreError
  | .ok (.host _ _), .reachable => .ok ()

/-- Both connections are opened before the batch size is looked at. -/
def open? (network : Network) (url : String) (batchSize : Nat) : Except StoreError BatchSize := do
  connect network url
  BatchSize.ofNat batchSize

/-- The reason given over a closed connection. -/
def closedReason : String := "connection closed"

/-- A command is sent only over an open connection. -/
def send {α : Type} (command : ServiceCommand) (answer : Service → Outcome Service α)
    (service : Service) : Outcome Service α :=
  if service.isOpen .sync then service.serve .sync command answer
  else (.error (.connectionFailed closedReason), service)

/-- The blocking connection; commands about no keys at all are answered without being sent. -/
def blockingClient : Client Service where
  get key := send (.get key) fun service => (service.lookup key, service)
  set key value := send (.set key value) fun service => (.ok (), service.store key value)
  getMany keys :=
    if keys.isEmpty then fun service => (.ok [], service)
    else send (.getMany keys) fun service =>
      ((keys.mapM service.lookup).map (Service.withSurplus service.surplus), service)
  setMany pairs :=
    if pairs.isEmpty then fun service => (.ok (), service)
    else send (.setMany pairs) fun service => (.ok (), service.storeMany pairs)
  scan cursor pattern count := send (.scan cursor pattern count) fun service =>
    match service.scanStep cursor pattern count with
    | (answer, service) => (.ok answer, service)
  ping := send .ping fun service => (.ok "PONG", service)
  close service :=
    (.ok (), { service with isOpen := fun other => service.isOpen other && other ≠ .sync })
  stepsLeft := (Service.client .sync).stepsLeft

/-- An open connection that is managed is there for every command. -/
def managed (service : Service) : Except StoreError Unit :=
  if service.isOpen .async then .ok () else .error (.connectionFailed closedReason)

/--
The managed connection first takes hold of itself, and then sends the command and waits.

A service never drops its connections, so the manager has none to make again.
-/
def query {α : Type} (command : ServiceCommand) (answer : Service → Outcome Service α)
    (service : Service) : Outcome Service α :=
  match managed service with
  | .error error => (.error error, service)
  | .ok () => service.serve .async command answer

/-- The managed connection; commands about no keys at all are answered without being sent. -/
def managedClient : Client Service where
  get key := query (.get key) fun service => (service.lookup key, service)
  set key value := query (.set key value) fun service => (.ok (), service.store key value)
  getMany keys :=
    if keys.isEmpty then fun service => (.ok [], service)
    else query (.getMany keys) fun service =>
      ((keys.mapM service.lookup).map (Service.withSurplus service.surplus), service)
  setMany pairs :=
    if pairs.isEmpty then fun service => (.ok (), service)
    else query (.setMany pairs) fun service => (.ok (), service.storeMany pairs)
  scan cursor pattern count := query (.scan cursor pattern count) fun service =>
    match service.scanStep cursor pattern count with
    | (answer, service) => (.ok answer, service)
  ping := query .ping fun service => (.ok "PONG", service)
  close service :=
    (.ok (), { service with isOpen := fun other => service.isOpen other && other ≠ .async })
  stepsLeft := (Service.client .async).stepsLeft

/-- The connection of one side. -/
def client : Side → Client Service
  | .sync => blockingClient
  | .async => managedClient

/-- A Redis destination goes over a connection for each side. -/
def destination (size : BatchSize) : Destination Service := Remote.destination client size

end Redis

end SyncStore
