import SyncStore.Files.FileDestination
import SyncStore.Remote.Redis.Connection
import SyncStore.Settings.Config
import SyncStore.Store.Datastore

/-! A configuration opens the datastore that it names, over files or over a service. -/

namespace SyncStore

/-- Why a datastore is not opened: its configuration is refused, or its destination fails. -/
inductive OpeningError where
  | config (error : ConfigError)
  | store (error : StoreError)

/-- The words for a datastore that is not opened. -/
def OpeningError.message : OpeningError → String
  | .config error => error.message
  | .store error => error.message

/--
The outside of all backends.

- `home`: the home directory, if there is one
- `network`: whether the service can be reached
-/
structure Outside where
  tree : FileTree
  home : Option String
  network : Network
  service : Service

/-- An open datastore is kept in a file, or in a service that is read in batches. -/
inductive OpenDatastore where
  | file (file : FileDestination) (datastore : Datastore (SyncedStore FileTree))
  | service (size : BatchSize) (datastore : Datastore (SyncedStore Service))

/-- The format of the files of a backend, if it keeps files. -/
def BackendKind.format? : BackendKind → Option FileFormat
  | .toml => some .toml
  | .yaml => some .yaml
  | .redis => none

namespace Config

/-- The file of a configuration, if its backend keeps one. -/
def file? (config : Config) (home : Option String) : Option FileDestination :=
  config.backend.format?.map fun format =>
    .locate format home config.storageDir config.filename

/-- A datastore over a file that holds nothing yet. -/
def newFileDatastore (config : Config) (file : FileDestination) (tree : FileTree) :
    Datastore (SyncedStore FileTree) :=
  ⟨config.version, .new file.destination tree config.writeOnUpdate⟩

/-- A datastore over a service that holds nothing yet. -/
def newServiceDatastore (config : Config) (size : BatchSize) (service : Service) :
    Datastore (SyncedStore Service) :=
  ⟨config.version, .new (Redis.destination size) service config.writeOnUpdate⟩

/-- The file of a new datastore is read first, so its first write keeps what the file held. -/
def openFile (config : Config) (file : FileDestination) (tree : FileTree) :
    Outcome FileTree (Datastore (SyncedStore FileTree)) :=
  match SyncedStore.readData file.destination .async (config.newFileDatastore file tree).state with
  | (.ok _, store) => (.ok ⟨config.version, store⟩, store.outside)
  | (.error error, store) => (.error error, store.outside)

/-- Both connections to the service are opened, and nothing is read from it. -/
def openService (config : Config) (network : Network) (service : Service) :
    Except StoreError (BatchSize × Datastore (SyncedStore Service)) :=
  (Redis.open? network config.redisUrl config.batchSize.toNat).map fun size =>
    (size, config.newServiceDatastore size service)

/-- A valid configuration opens its datastore; the files are given as they are afterwards. -/
def openDatastore (config : Config) (outside : Outside) :
    Except OpeningError OpenDatastore × FileTree :=
  match config.validate, config.file? outside.home with
  | .error error, _ => (.error (.config error), outside.tree)
  | .ok (), some file =>
    match config.openFile file outside.tree with
    | (.ok datastore, tree) => (.ok (.file file datastore), tree)
    | (.error error, tree) => (.error (.store error), tree)
  | .ok (), none =>
    match config.openService outside.network outside.service with
    | .ok (size, datastore) => (.ok (.service size datastore), outside.tree)
    | .error error => (.error (.store error), outside.tree)

end Config

end SyncStore
