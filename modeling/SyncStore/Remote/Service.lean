import SyncStore.Remote.Client
import SyncStore.Text.Content

/-! A service in memory answers the commands of its connections and logs them. -/

namespace SyncStore

/-- A command of a connection. -/
inductive ServiceCommand where
  | get (key : String)
  | set (key value : String)
  | getMany (keys : List String)
  | setMany (pairs : List (String × String))
  | scan (cursor : Cursor) (pattern : String) (count : Nat)
  | ping

/--
The state of a service with a connection for each side.

- `contents`: the raw value of each key
- `ghosts`: keys that a scan lists although they have no value
- `pageSize`: the keys of a scan step, when it is not the count asked for
- `surplus`: slots added to every answer about many keys, or cut from its end when negative
- `script`: the answers of the coming scan steps, when they do not come from the keys
- `failure`: the failure of every command, when there is one
- `isOpen`: the sides whose connection is open
- `calls`: the commands sent so far
-/
structure Service where
  contents : OrderedMap Content
  ghosts : List String
  pageSize : Option Nat
  surplus : Int
  script : Option (List (Cursor × List String))
  failure : Option StoreError
  isOpen : Side → Bool
  calls : List (Side × ServiceCommand)

namespace Service

/-- A service without keys, with both connections open. -/
def empty : Service := ⟨[], [], none, 0, none, none, fun _ => true, []⟩

/-- A sorted list without repetitions. -/
def dropRepeats : List String → List String
  | a :: b :: rest => if a = b then dropRepeats (b :: rest) else a :: dropRepeats (b :: rest)
  | rest => rest

/-- A scan lists keys and ghosts in ascending order, each once. -/
def listing (service : Service) : List String :=
  dropRepeats ((service.contents.keys ++ service.ghosts).mergeSort fun a b => decide (a ≤ b))

/-- A pattern asks for the keys that start with what stands before its last stars. -/
def matching (service : Service) (pattern : String) : List String :=
  let start := (pattern.toList.reverse.dropWhile (· = '*')).reverse
  service.listing.filter fun key => start.isPrefixOf key.toList

/-- A step of a scan takes a page of the keys asked for from its cursor on, and zero ends the
scan. -/
def scanStep (service : Service) (cursor : Cursor) (pattern : String) (count : Nat) :
    (Cursor × List String) × Service :=
  match service.script with
  -- A script that is used up ends the scan.
  | some [] => ((0, []), service)
  | some (answer :: rest) => (answer, { service with script := some rest })
  | none =>
    let keys := service.matching pattern
    let stop := min (cursor + service.pageSize.getD count) keys.length
    -- The cursor is a place among the keys, so zero is left to say that nothing follows.
    let next := if keys.length ≤ stop then 0 else stop
    ((next, (keys.take stop).drop cursor), service)

/-- Only text is answered as a value. -/
def textOf : Content → Except StoreError String
  | .text s => .ok s
  | .binary _ => .error (.remote "Cannot convert from UTF-8- TypeError")

/-- The text of a key, if it has a value. -/
def lookup (service : Service) (key : String) : Except StoreError (Option String) :=
  match service.contents.get? key with
  | none => .ok none
  | some content => (textOf content).map some

/-- An answer about many keys is cut or filled up by the surplus. -/
def withSurplus (surplus : Int) (slots : List (Option String)) : List (Option String) :=
  if surplus < 0 then slots.take (slots.length - surplus.natAbs)
  else slots ++ List.replicate surplus.toNat none

/-- A key is stored in its place. -/
def store (service : Service) (key value : String) : Service :=
  { service with contents := service.contents.insert key (.text value) }

/-- Several keys are stored in turn. -/
def storeMany (service : Service) (pairs : List (String × String)) : Service :=
  pairs.foldl (fun service pair => service.store pair.1 pair.2) service

/-- A command is put last into the log. -/
def log (side : Side) (command : ServiceCommand) (service : Service) : Service :=
  { service with calls := service.calls ++ [(side, command)] }

/-- The reason given over a closed connection. -/
def closedReason : String := "client closed"

/-- A command is logged, and served only by an open connection of a service that does not fail. -/
def serve {α : Type} (side : Side) (command : ServiceCommand) (answer : Service → Outcome Service α)
    (service : Service) : Outcome Service α :=
  -- A refused command was sent all the same, so it is in the log.
  let logged := service.log side command
  if !service.isOpen side then (.error (.connectionFailed closedReason), logged)
  else
    match service.failure with
    | some error => (.error error, logged)
    | none => answer logged

/-- The connection of one side; a suspended call is the blocking one. -/
def client (side : Side) : Client Service where
  get key := serve side (.get key) fun service => (service.lookup key, service)
  set key value := serve side (.set key value) fun service => (.ok (), service.store key value)
  getMany keys := serve side (.getMany keys) fun service =>
    ((keys.mapM service.lookup).map (withSurplus service.surplus), service)
  setMany pairs := serve side (.setMany pairs) fun service => (.ok (), service.storeMany pairs)
  scan cursor pattern count := serve side (.scan cursor pattern count) fun service =>
    match service.scanStep cursor pattern count with
    | (answer, service) => (.ok answer, service)
  ping := serve side .ping fun service => (.ok "PONG", service)
  close service :=
    (.ok (), { service with isOpen := fun other => service.isOpen other && other ≠ side })
  stepsLeft service :=
    service.contents.length + service.ghosts.length + ((service.script.map List.length).getD 0)

end Service

end SyncStore
