import SyncStore.Store.StoreError

/-! Redis failures come from the connection or from the server, and each has one display text. -/

namespace SyncStore.Redis

/-- What kind of failure the operating system saw on a connection. -/
inductive IoKind where
  | connectionRefused
  | notFound
  | timedOut
  | wouldBlock
  | brokenPipe
  | connectionReset
  | unexpectedEnd
  | other
  deriving DecidableEq

/-- What kind of failure the protocol knows; the kinds that nothing depends on go by their name. -/
inductive FailureKind where
  | response
  | busyLoading
  | readOnly
  | type
  | clientConfig
  | clusterConnectionNotFound
  | named (name : String)
  deriving DecidableEq

/-- The name of a failure kind. -/
def FailureKind.name : FailureKind → String
  | .response => "ResponseError"
  | .busyLoading => "BusyLoadingError"
  | .readOnly => "ReadOnly"
  | .type => "TypeError"
  | .clientConfig => "InvalidClientConfig"
  | .clusterConnectionNotFound => "ClusterConnectionNotFound"
  | .named name => name

/-- A failure of the connection, of a known kind, or of a code that only the server knows. -/
inductive Failure where
  | io (kind : IoKind) (text : String)
  | known (kind : FailureKind) (text : String) (detail : Option String)
  | extension (code : String) (detail : Option String)

namespace Failure

/-- The words for a failure name its kind behind its text. -/
def message : Failure → String
  | .io _ text => text
  | .known kind text none => s!"{text}- {kind.name}"
  | .known kind text (some detail) => s!"{text} - {kind.name}: {detail}"
  | .extension code none => s!"{code}: Unknown extension error encountered"
  | .extension code (some detail) => s!"{code}: {detail}"

/-- The connection is lost when it was refused, timed out or dropped. -/
def losesConnection : Failure → Bool
  | .io .other _ => false
  | .io _ _ => true
  | .known kind _ _ => kind = .clusterConnectionNotFound
  | .extension _ _ => false

/-- A lost connection is told apart from every other remote failure. -/
def toStoreError (failure : Failure) : StoreError :=
  if failure.losesConnection then .connectionFailed failure.message else .remote failure.message

/-- The text of every failure that the server signals with a code the protocol knows. -/
def signalled : String := "An error was signalled by the server"

/-- The kinds of the codes that the protocol knows. -/
def kindOfCode? (code : String) : Option FailureKind :=
  match code with
  | "ERR" => some .response
  | "LOADING" => some .busyLoading
  | "READONLY" => some .readOnly
  | "EXECABORT" => some (.named "ExecAbortError")
  | "NOSCRIPT" => some (.named "NoScriptError")
  | "MOVED" => some (.named "Moved")
  | "ASK" => some (.named "Ask")
  | "TRYAGAIN" => some (.named "TryAgain")
  | "CLUSTERDOWN" => some (.named "ClusterDown")
  | "CROSSSLOT" => some (.named "CrossSlot")
  | "MASTERDOWN" => some (.named "MasterDown")
  | "NOTBUSY" => some (.named "NotBusy")
  | _ => none

/-- An error line of the server is a code, and behind the first blank a detail. -/
def ofLine (line : String) : Failure :=
  let code := String.ofList (line.toList.takeWhile (· ≠ ' '))
  let detail := match line.toList.dropWhile (· ≠ ' ') with
    | [] => none
    | _ :: detail => some (String.ofList detail)
  match kindOfCode? code with
  | some kind => .known kind signalled detail
  | none => .extension code detail

end Failure

end SyncStore.Redis
