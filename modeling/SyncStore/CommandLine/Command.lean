import SyncStore.Codec
import SyncStore.Files.FileDestination
import SyncStore.Remote.RemoteDestination
import SyncStore.Store.SyncedStore

/-! A command reads or changes one store, and prints what it finds as JSON text. -/

namespace SyncStore

/-- What a command asks for; a value comes as text that is decoded when the
command is carried out. -/
inductive Command where
  | get (key : String) (default : Option String) (fallback : Fallback)
  | set (key raw : String) (policy : WritePolicy)
  | dump
  | importObject (raw : String)
  | ping
  | harden (mode : Mode)

/-- Why a command fails. -/
inductive CommandError where
  | store (error : StoreError)
  | keyNotFound (key : String)
  | notObject
  | notJson (error : Json.SyntaxError)
  | needsService
  | needsFile

/-- The words for a failed command. -/
def CommandError.message : CommandError → String
  | .store error => error.message
  | .keyNotFound key => s!"key '{key}' not found"
  | .notObject => "Import expects a JSON object"
  | .notJson _ => "Import expects a JSON object"
  | .needsService => "ping requires the redis backend"
  | .needsFile => "harden requires a file backend"

/-- The words for what is behind a failed command, if they are not those of the failure itself. -/
def CommandError.cause? : CommandError → Option String
  | .notJson error => some error.message
  | _ => none

/-- What a command printed, and how it ended. -/
structure Report where
  output : String
  ending : Except CommandError Unit

namespace Report

/-- The report of a command that had nothing to print. -/
def silent : Report := ⟨"", .ok ()⟩

/-- The report of a command that printed a line. -/
def line (text : String) : Report := ⟨text ++ "\n", .ok ()⟩

/-- The report of a command that failed before it printed anything. -/
def failed (error : CommandError) : Report := ⟨"", .error error⟩

/-- A value is printed as indented JSON text. -/
def value (value : Value) : Report := line value.indentedText

/-- A call is reported by what it answers, and a failed one by its failure. -/
def ofAnswer {α : Type} (report : α → Report) : Except StoreError α → Report
  | .ok answer => report answer
  | .error error => failed (.store error)

end Report

namespace Command

variable {σ : Type}

/-- A value that is found is printed, and otherwise the decoded default, if there is one. -/
def reportFound (key : String) (default : Option String) : Option Value → Report
  | some value => .value value
  | none =>
    match default with
    | some raw => .value (decodeValue raw)
    | none => .failed (.keyNotFound key)

/-- A command is carried out by a suspending caller; two of the commands need
more than any store. -/
def execute (destination : Destination σ) (command : Command) (store : SyncedStore σ) :
    Report × SyncedStore σ :=
  match command with
  | .get key default fallback =>
    match SyncedStore.get destination .async key fallback store with
    | (answer, store) => (.ofAnswer (reportFound key default) answer, store)
  | .set key raw policy =>
    match SyncedStore.set destination .async key (decodeValue raw) policy store with
    | (answer, store) => (.ofAnswer (fun _ => .silent) answer, store)
  | .dump =>
    match SyncedStore.readData destination .async store with
    | (answer, store) => (.ofAnswer (fun data => .value (.object data)) answer, store)
  | .importObject raw =>
    match Json.read raw with
    | .error error => (.failed (.notJson error), store)
    | .ok (.object overrides) =>
      match SyncedStore.update destination .async overrides store with
      | (answer, store) => (.ofAnswer (fun _ => .silent) answer, store)
    | .ok _ => (.failed .notObject, store)
  | .ping => (.failed .needsService, store)
  | .harden _ => (.failed .needsFile, store)

/-- Permissions are set without a look into the file, and every other command
reads the file first. -/
def onFile (file : FileDestination) (command : Command) (store : SyncedStore FileTree) :
    Report × SyncedStore FileTree :=
  match command with
  | .harden mode =>
    match file.harden mode store.outside with
    | (answer, tree) => (.ofAnswer (fun _ => .silent) answer, { store with outside := tree })
  | command =>
    match SyncedStore.readData file.destination .async store with
    | (.error error, store) => (.failed (.store error), store)
    | (.ok _, store) => command.execute file.destination store

/-- A service answers a ping itself, and every other command is carried out over its keys. -/
def overService (clients : Side → Client σ) (size : BatchSize) (command : Command)
    (store : SyncedStore σ) : Report × SyncedStore σ :=
  match command with
  | .ping =>
    match (clients .async).ping store.outside with
    | (answer, service) => (.ofAnswer .line answer, { store with outside := service })
  | command => command.execute (Remote.destination clients size) store

/-- The first connection that does not close decides how a command ends, and the rest stays open. -/
def closeAll (clients : Side → Client σ) (state : σ) : Outcome σ Unit :=
  match (clients .sync).close state with
  | (.error error, state) => (.error error, state)
  | (.ok (), state) => (clients .async).close state

/-- After a command over a service its connections are closed, however the command ended. -/
def onService (clients : Side → Client σ) (size : BatchSize) (command : Command)
    (store : SyncedStore σ) : Report × SyncedStore σ :=
  match command.overService clients size store with
  | (report, store) =>
    match closeAll clients store.outside with
    | (.ok (), state) => (report, { store with outside := state })
    | (.error error, state) =>
      ({ report with ending := .error (.store error) }, { store with outside := state })

end Command

end SyncStore
