import SyncStore.Codec
import SyncStore.Remote.Client

/-! A remote destination reads a whole service in batches over one of two connections. -/

namespace SyncStore

/-- The number of keys fetched at a time is a machine word, and never zero. -/
structure BatchSize where
  val : Nat
  positive : 0 < val
  bounded : val < UInt64.size

namespace BatchSize

/-- A number is taken as a machine word, and a batch size of zero is refused. -/
def ofNat (n : Nat) : Except StoreError BatchSize :=
  let word := UInt64.ofNat n
  if positive : 0 < word.toNat then .ok ⟨word.toNat, positive, word.toNat_lt⟩
  else .error (.invalidData none .zeroBatchSize)

/-- The batch size when none is asked for. -/
def default : BatchSize := ⟨1000, by decide, by decide⟩

/-- The bytes that one key takes in the buffer of a batch. -/
def keyBytes : Nat := 24

/-- The most bytes of any buffer, which a signed machine word still counts. -/
def maxBufferBytes : Nat := 2 ^ 63 - 1

/-- The buffer of a whole batch is allocated when some bytes of memory are free. -/
def Allocates (size : BatchSize) (free : Nat) : Prop :=
  size.val * keyBytes ≤ maxBufferBytes ∧ size.val * keyBytes ≤ free

instance (size : BatchSize) (free : Nat) : Decidable (size.Allocates free) :=
  inferInstanceAs (Decidable (_ ∧ _))

end BatchSize

namespace Remote

variable {σ : Type}

/-- Every key matches this pattern. -/
def everyKey : String := "*"

/-- Fetched texts enter the data in the order of their keys, and a key without
a value enters nothing. -/
def collect (data : Data) : List (String × Option String) → Data
  | [] => data
  | (key, some raw) :: rest => collect (data.insert key (decodeValue raw)) rest
  | (_, none) :: rest => collect data rest

/-- One batch of keys is fetched, and an answer of another length is refused. -/
def fetch (client : Client σ) (batch : List String) (data : Data) (state : σ) : Outcome σ Data :=
  match client.getMany batch state with
  | (.error error, state) => (.error error, state)
  -- The slots are matched with their keys by place alone, so the lengths must agree.
  | (.ok values, state) =>
    if values.length = batch.length then (.ok (collect data (batch.zip values)), state)
    else (.error (.unevenAnswer values.length batch.length), state)

/-- Keys fill the pending batch, and each full batch is fetched before the next key is taken. -/
def takeKeys (client : Client σ) (size : Nat) :
    (keys pending : List String) → Data → σ → Outcome σ (List String × Data)
  | [], pending, data, state => (.ok (pending, data), state)
  | key :: keys, pending, data, state =>
    let batch := pending ++ [key]
    -- A batch is never longer than its size, so this is where it is full.
    if size ≤ batch.length then
      match fetch client batch data state with
      | (.error error, state) => (.error error, state)
      | (.ok data, state) => takeKeys client size keys [] data state
    else takeKeys client size keys batch data state

/-- The scan goes on from a cursor until it comes back to zero; the rest of the last batch is
fetched then. -/
def scanFrom (client : Client σ) (size : Nat) :
    (steps : Nat) → Cursor → (pending : List String) → Data → σ → Outcome σ Data
  -- A client never takes more steps than it allows.
  | 0, _, _, _, state => (.error (.remote "the scan does not end"), state)
  | steps + 1, cursor, pending, data, state =>
    match client.scan cursor everyKey size state with
    | (.error error, state) => (.error error, state)
    -- Keys of the page that fill no batch wait for those of the next page.
    | (.ok (next, keys), state) =>
      match takeKeys client size keys pending data state with
      | (.error error, state) => (.error error, state)
      | (.ok (pending, data), state) =>
        -- Zero ends the scan, and what still waits is the last and shorter batch.
        if next ≠ 0 then scanFrom client size steps next pending data state
        else if pending.isEmpty then (.ok data, state)
        else fetch client pending data state

/-- The whole service is read by a scan that starts at zero, once there is a buffer to fill. -/
def readAll (client : Client σ) (size : BatchSize) (state : σ) : Outcome σ Data :=
  scanFrom client size.val (client.stepsLeft state + 1) 0 [] [] state

/-- All entries are written with one call, and no entries with none. -/
def writeAll (client : Client σ) (data : Data) (state : σ) : Outcome σ Unit :=
  -- The command takes at least one pair.
  if data.isEmpty then (.ok (), state)
  else client.setMany (data.map fun (key, value) => (key, encodeValue value)) state

/-- The stored text of a key is decoded. -/
def readOne (client : Client σ) (key : String) (state : σ) : Outcome σ (Option Value) :=
  match client.get key state with
  | (answer, state) => (answer.map (·.map decodeValue), state)

/-- A value is encoded and stored under its key. -/
def writeOne (client : Client σ) (key : String) (value : Value) (state : σ) : Outcome σ Unit :=
  client.set key (encodeValue value) state

namespace Suspending

/-- One batch of keys is fetched, and an answer of another length is refused. -/
def fetch (client : Client σ) (batch : List String) (data : Data) (state : σ) : Outcome σ Data :=
  match client.getMany batch state with
  | (.error error, state) => (.error error, state)
  | (.ok values, state) =>
    if values.length = batch.length then (.ok (collect data (batch.zip values)), state)
    else (.error (.unevenAnswer values.length batch.length), state)

/-- Keys fill the pending batch, and each full batch is fetched before the next key is taken. -/
def takeKeys (client : Client σ) (size : Nat) :
    (keys pending : List String) → Data → σ → Outcome σ (List String × Data)
  | [], pending, data, state => (.ok (pending, data), state)
  | key :: keys, pending, data, state =>
    let batch := pending ++ [key]
    if size ≤ batch.length then
      match fetch client batch data state with
      | (.error error, state) => (.error error, state)
      | (.ok data, state) => takeKeys client size keys [] data state
    else takeKeys client size keys batch data state

/-- The scan goes on from a cursor until it comes back to zero; the rest of the last batch is
fetched then. -/
def scanFrom (client : Client σ) (size : Nat) :
    (steps : Nat) → Cursor → (pending : List String) → Data → σ → Outcome σ Data
  | 0, _, _, _, state => (.error (.remote "the scan does not end"), state)
  | steps + 1, cursor, pending, data, state =>
    match client.scan cursor everyKey size state with
    | (.error error, state) => (.error error, state)
    | (.ok (next, keys), state) =>
      match takeKeys client size keys pending data state with
      | (.error error, state) => (.error error, state)
      | (.ok (pending, data), state) =>
        if next = 0 then
          if pending.isEmpty then (.ok data, state) else fetch client pending data state
        else scanFrom client size steps next pending data state

/-- The whole service is read by a scan that starts at zero, once there is a buffer to fill. -/
def readAll (client : Client σ) (size : BatchSize) (state : σ) : Outcome σ Data :=
  scanFrom client size.val (client.stepsLeft state + 1) 0 [] [] state

/-- All entries are written with one call, and no entries with none. -/
def writeAll (client : Client σ) (data : Data) (state : σ) : Outcome σ Unit :=
  if data.isEmpty then (.ok (), state)
  else
    -- The pairs are made before the call that is waited for.
    let pairs := data.map fun (key, value) => (key, encodeValue value)
    client.setMany pairs state

/-- The stored text of a key is decoded. -/
def readOne (client : Client σ) (key : String) (state : σ) : Outcome σ (Option Value) :=
  match client.get key state with
  | (.error error, state) => (.error error, state)
  | (.ok raw, state) => (.ok (raw.map decodeValue), state)

/-- A value is encoded and stored under its key. -/
def writeOne (client : Client σ) (key : String) (value : Value) (state : σ) : Outcome σ Unit :=
  let encoded := encodeValue value
  client.set key encoded state

end Suspending

/-- The name of a remote destination. -/
def name : String := "remote kv"

/-- Each side of a remote destination goes over a connection of its own, blocking or suspending. -/
def destination (clients : Side → Client σ) (size : BatchSize) : Destination σ where
  name := name
  perKey := true
  readAll
    | .sync => readAll (clients .sync) size
    | .async => Suspending.readAll (clients .async) size
  writeAll
    | .sync => writeAll (clients .sync)
    | .async => Suspending.writeAll (clients .async)
  readOne
    | .sync => readOne (clients .sync)
    | .async => Suspending.readOne (clients .async)
  writeOne
    | .sync => writeOne (clients .sync)
    | .async => Suspending.writeOne (clients .async)

/--
A whole read as the program runs it, with some bytes of memory free.

Its first step allocates the buffer of a batch. Where that fails the program ends, with nothing
asked of the service.
-/
def readAll? (clients : Side → Client σ) (size : BatchSize) (free : Nat) (side : Side)
    (state : σ) : Option (Outcome σ Data) :=
  if size.Allocates free then some ((destination clients size).readAll side state) else none

end Remote

end SyncStore
