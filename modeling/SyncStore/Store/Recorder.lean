import SyncStore.Store.Destination

/-! A recorder is a destination that holds its data, logs every call, and fails on demand. -/

namespace SyncStore

/-- A call on a destination, with the data it carries. -/
inductive DestinationCall where
  | readAll
  | writeAll (data : Data)
  | readOne (key : String)
  | writeOne (key : String) (value : Value)

/-- The state of a recorder; its calls are logged in order, before anything can fail. -/
structure Recorder where
  data : Data
  readFailure : Option StoreError
  writeFailure : Option StoreError
  calls : List DestinationCall

namespace Recorder

/-- A recorder that has seen no call yet and does not fail. -/
def holding (data : Data) : Recorder := ⟨data, none, none, []⟩

/-- A call is put last into the log. -/
def log (call : DestinationCall) (recorder : Recorder) : Recorder :=
  { recorder with calls := recorder.calls ++ [call] }

/-- The name of a recorder. -/
def name : String := "recording"

/-- A suspended call is the blocking one; without single keys, single calls are refused
after they are logged. -/
def destination (perKey : Bool) : Destination Recorder where
  name := name
  perKey := perKey
  readAll _ recorder :=
    let logged := recorder.log .readAll
    match recorder.readFailure with
    | some error => (.error error, logged)
    | none => (.ok recorder.data, logged)
  writeAll _ data recorder :=
    let logged := recorder.log (.writeAll data)
    match recorder.writeFailure with
    | some error => (.error error, logged)
    | none => (.ok (), { logged with data := data })
  readOne _ key recorder :=
    let logged := recorder.log (.readOne key)
    if !perKey then (.error (.unsupported name "read_one"), logged)
    else
      match recorder.readFailure with
      | some error => (.error error, logged)
      | none => (.ok (recorder.data.get? key), logged)
  writeOne _ key value recorder :=
    let logged := recorder.log (.writeOne key value)
    if !perKey then (.error (.unsupported name "write_one"), logged)
    else
      match recorder.writeFailure with
      | some error => (.error error, logged)
      | none => (.ok (), { logged with data := recorder.data.insert key value })

end Recorder

end SyncStore
