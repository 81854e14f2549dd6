import SyncStore.Files.FileFormat
import SyncStore.Files.FileTree
import SyncStore.Store.Destination

/-! A file destination keeps the whole data of a store in one file of some format. -/

namespace SyncStore

/-- A file in its directory. -/
structure FileDestination where
  format : FileFormat
  directory : String
  path : String

namespace FileDestination

/-- The directory may start at the home directory, and the file takes the
extension of its format. -/
def locate (format : FileFormat) (home : Option String) (directory filename : String) :
    FileDestination :=
  let directory := Path.expandHome home directory
  ⟨format, directory, Path.withExtension format.ending (Path.join directory filename)⟩

/-- What the destination does with the system when it fails. -/
inductive Action where
  | createDirectory
  | touchFile
  | readFile
  | writeFile
  | setFileMode
  | setDirectoryMode

/-- The words for an action. -/
def Action.message : Action → String
  | .createDirectory => "create directory"
  | .touchFile => "touch file"
  | .readFile => "read file"
  | .writeFile => "write file"
  | .setFileMode => "set file permissions"
  | .setDirectoryMode => "set directory permissions"

/-- A fault of the system is told with the path and the action it belongs to. -/
def failed (action : Action) (path : String) (fault : FileFault) : StoreError :=
  .io path s!"{action.message}: {fault.message}"

/-- The outcome of an operation of the system. -/
def attempt (action : Action) (path : String) :
    Except FileFault Unit × FileTree → Outcome FileTree Unit
  | (answer, tree) => (answer.mapError (failed action path), tree)

/-- The data is written before anything is created, so data without a text changes nothing. -/
def writeAll (file : FileDestination) (data : Data) (tree : FileTree) : Outcome FileTree Unit :=
  match file.format.write data with
  | .error error => (.error (error.inFile file.path), tree)
  | .ok text =>
    match attempt .createDirectory file.directory (tree.makeDirectories file.directory) with
    | (.error error, tree) => (.error error, tree)
    | (.ok (), tree) => attempt .writeFile file.path (tree.write file.path text)

/-- The text of the file is read as data, and a missing file is made for empty data. -/
def readAll (file : FileDestination) (tree : FileTree) : Outcome FileTree Data :=
  match tree.read file.path with
  | .ok text => ((file.format.read text).mapError (·.inFile file.path), tree)
  | .error .missing =>
    match file.writeAll [] tree with
    | (.error error, tree) => (.error error, tree)
    | (.ok (), tree) => (.ok [], tree)
  | .error fault => (.error (failed .readFile file.path fault), tree)

namespace Suspending

/-- The data is written before anything is created, and the first step that fails is the last. -/
def writeAll (file : FileDestination) (data : Data) (tree : FileTree) : Outcome FileTree Unit :=
  match file.format.write data with
  | .error error => (.error (error.inFile file.path), tree)
  | .ok text =>
    match tree.makeDirectories file.directory with
    | (.error fault, tree) => (.error (failed .createDirectory file.directory fault), tree)
    | (.ok (), tree) =>
      match tree.write file.path text with
      | (.error fault, tree) => (.error (failed .writeFile file.path fault), tree)
      | (.ok (), tree) => (.ok (), tree)

/-- The text of the file is read as data, and a missing file is made for empty data. -/
def readAll (file : FileDestination) (tree : FileTree) : Outcome FileTree Data :=
  match tree.read file.path with
  | .ok text => ((file.format.read text).mapError (·.inFile file.path), tree)
  | .error .missing =>
    match Suspending.writeAll file [] tree with
    | (.error error, tree) => (.error error, tree)
    | (.ok (), tree) => (.ok [], tree)
  | .error fault => (.error (failed .readFile file.path fault), tree)

end Suspending

/-- The directory and the file are made unless they are there, and an existing
file stays as it is. -/
def ensureFile (file : FileDestination) (tree : FileTree) : Outcome FileTree Unit :=
  match attempt .createDirectory file.directory (tree.makeDirectories file.directory) with
  | (.error error, tree) => (.error error, tree)
  | (.ok (), tree) => attempt .touchFile file.path (tree.touch file.path)

/-- The permissions of the directory, if any are given, are set before those of the file. -/
def setPermissions (file : FileDestination) (fileMode : Mode) (directoryMode : Option Mode)
    (tree : FileTree) : Outcome FileTree Unit :=
  let prepared : Outcome FileTree Unit := match directoryMode with
    | none => (.ok (), tree)
    | some mode => attempt .setDirectoryMode file.directory (tree.setMode file.directory mode)
  match prepared with
  | (.error error, tree) => (.error error, tree)
  | (.ok (), tree) => attempt .setFileMode file.path (tree.setMode file.path fileMode)

/-- The permissions of a file when none are asked for. -/
def defaultMode : Mode := 0o700

/-- The file is made if it is not there, and its permissions are set. -/
def harden (file : FileDestination) (mode : Mode) (tree : FileTree) : Outcome FileTree Unit :=
  match file.ensureFile tree with
  | (.error error, tree) => (.error error, tree)
  | (.ok (), tree) => file.setPermissions mode none tree

/-- A file only takes the whole data at once, blocking or suspending. -/
def destination (file : FileDestination) : Destination FileTree where
  name := file.format.name
  perKey := false
  readAll
    | .sync => file.readAll
    | .async => Suspending.readAll file
  writeAll
    | .sync => file.writeAll
    | .async => Suspending.writeAll file
  readOne _ _ tree := (.error (.unsupported file.format.name "read_one"), tree)
  writeOne _ _ _ tree := (.error (.unsupported file.format.name "write_one"), tree)

end FileDestination

end SyncStore
