import SyncStore.CommandLine.Session

/-! The program carries out one session over the files of the system, which has no network here. -/

namespace SyncStore.Program

/-- The variables that a session looks at. -/
def variableNames : List String :=
  ["KVSYNC_LOG_JSON", "KVSYNC_CONFIG_VERSION", "KVSYNC_BATCH_SIZE", "KVSYNC_BACKEND",
    "KVSYNC_STORAGE_DIR", "KVSYNC_FILENAME", "KVSYNC_WRITE_ON_UPDATE", "REDIS_URL", "HOME"]

/-- The variables that are set. -/
def loadEnvironment : IO Environment :=
  variableNames.filterMapM fun key => return (← IO.getEnv key).map fun text => (key, .text text)

/-- A mode that no file has stands for permissions that are neither looked at nor changed. -/
def keptMode : Mode := 0o10000

/-- The code of the system for a directory that is read like a file. -/
def directoryCode : UInt32 := 21

/-- The node at a path of the system is put into a tree, if there is one. -/
def loadNode (path : String) (location : Location) (tree : FileTree) : IO FileTree := do
  try
    let bytes ← IO.FS.readBinFile path
    return tree.put location (.file (.ofBytes bytes.toList) keptMode)
  catch error =>
    match error with
    | .noFileOrDirectory _ _ _ => return tree
    | .inappropriateType _ code _ =>
      return if code = directoryCode then tree.put location (.directory keptMode) else tree
    | .hardwareFault _ _ => return (tree.put location (.file (.text "") keptMode)).damageAt location
    | error => throw error

/-- The absolute path of a location. -/
def pathOf (location : Location) : String := "/" ++ Path.ofSegments location.reverse

/-- Every node on the way along some names is loaded, and the last location is told. -/
def loadAlong : List String → Location → FileTree → IO (Location × FileTree)
  | [], location, tree => return (location, tree)
  | name :: rest, location, tree => do
    let next := if name = "." then location else if name = ".." then location.tail
      else name :: location
    match tree.nodeAt? next with
    | none => loadAlong rest next (← loadNode (pathOf next) next tree)
    | some _ => loadAlong rest next tree

/-- The nodes on the way to some paths are loaded into a tree. -/
def loadTree (paths : List String) : IO FileTree := do
  let here := (← IO.currentDir).toString
  let (location, tree) ← loadAlong (FileTree.names here) [] .empty
  let tree := { tree with here := location }
  paths.foldlM (fun tree path =>
    return (← loadAlong (FileTree.names path) (tree.origin path) tree).2) tree

/-- The low three bits of a mode are the rights of everybody. -/
def rights (mode : Mode) : IO.AccessRight := ⟨mode.testBit 2, mode.testBit 1, mode.testBit 0⟩

/-- A mode that differs from the one before is set. -/
def saveMode (path : String) (before after : Mode) : IO Unit :=
  if before = after then pure ()
  else IO.setAccessRights path ⟨rights (after >>> 6), rights (after >>> 3), rights after⟩

/-- The bytes of a content. -/
def bytesOf : Content → ByteArray
  | .text text => text.toUTF8
  | .binary bytes => ⟨bytes.toArray⟩

/-- A node is made unless it was there before, and its content is written when it is another. -/
def saveNode (before : FileTree) (location : Location) (node : FileNode) : IO Unit := do
  let path := pathOf location
  match node, before.nodeAt? location with
  | .directory mode, some (.directory old) => saveMode path old mode
  | .directory mode, _ =>
    IO.FS.createDir path
    saveMode path FileTree.directoryMode mode
  | .file content mode, some (.file old oldMode) =>
    unless bytesOf old == bytesOf content do IO.FS.writeBinFile path (bytesOf content)
    saveMode path oldMode mode
  | .file content mode, _ =>
    IO.FS.writeBinFile path (bytesOf content)
    saveMode path FileTree.fileMode mode

/-- The nodes that changed are saved, directories before what they hold. -/
def saveTree (before after : FileTree) : IO Unit :=
  after.nodes.reverse.forM fun (location, node) => saveNode before location node

end SyncStore.Program

open SyncStore in
/-- The files of the session are loaded, and saved when it has ended. -/
def main (arguments : List String) : IO UInt32 := do
  let environment ← Program.loadEnvironment
  let home ← IO.getEnv "HOME"
  let paths := match Session.file? environment arguments home with
    | some file => [file.directory, file.path]
    | none => []
  let tree ← Program.loadTree paths
  let (report, outside) :=
    Session.run environment arguments ⟨tree, home, .unreachable, .empty⟩
  Program.saveTree tree outside.tree
  IO.print report.output
  IO.eprint report.errorText
  return report.exitCode.toUInt32
