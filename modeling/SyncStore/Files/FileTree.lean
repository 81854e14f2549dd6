import SyncStore.Files.Path
import SyncStore.Text.Content

/-! A file tree holds files and directories, and refuses what the system would refuse. -/

namespace SyncStore

/-- Why the system refuses an operation on a file. -/
inductive FileFault where
  | missing
  | notDirectory
  | isDirectory
  | alreadyThere
  | nameTooLong
  | nulInName
  | notText
  | damaged
  deriving DecidableEq

/-- The words of the system for a fault. -/
def FileFault.message : FileFault → String
  | .missing => "No such file or directory (os error 2)"
  | .notDirectory => "Not a directory (os error 20)"
  | .isDirectory => "Is a directory (os error 21)"
  | .alreadyThere => "File exists (os error 17)"
  | .nameTooLong => "File name too long (os error 36)"
  | .nulInName => "file name contained an unexpected NUL byte"
  | .notText => "stream did not contain valid UTF-8"
  | .damaged => "Input/output error (os error 5)"

/-- The low twelve bits of a mode are the permissions. -/
abbrev Mode := Nat

/-- A node is a file with its content, or a directory. -/
inductive FileNode where
  | file (content : Content) (mode : Mode)
  | directory (mode : Mode)

/-- A location names a node by the names that lead to it, the innermost first. -/
abbrev Location := List String

/-- The files whose content the system cannot bring, although they are there. -/
class Damage where
  locations : List Location

/-- Nothing is damaged unless it is told. -/
instance Damage.none : Damage := ⟨[]⟩

/-- The nodes of a tree by their locations, and the directory that relative paths lead from. -/
structure FileTree where
  nodes : List (Location × FileNode)
  here : Location
  [damage : Damage]

namespace FileTree

/-- The permissions of new files: the owner writes, and everybody reads. -/
def fileMode : Mode := 0o644

/-- The permissions of new directories: the owner writes, and everybody enters. -/
def directoryMode : Mode := 0o755

/-- A tree with nothing below its root. -/
def empty : FileTree := ⟨[], []⟩

/-- The node at a location; the root is always a directory. -/
def nodeAt? (tree : FileTree) (location : Location) : Option FileNode :=
  match tree.nodes.lookup location with
  | some node => some node
  | none => if location.isEmpty then some (.directory directoryMode) else none

/-- The damage of a file lasts until its content is replaced. -/
def isDamaged (tree : FileTree) (location : Location) : Bool :=
  tree.damage.locations.contains location

/-- A node is put in its place, where nothing is damaged any more. -/
def put (tree : FileTree) (location : Location) (node : FileNode) : FileTree :=
  { tree with
    nodes := (location, node) :: tree.nodes.filter (·.1 ≠ location)
    damage := ⟨tree.damage.locations.filter (· ≠ location)⟩ }

/-- The content of the file at a location is lost to readers. -/
def damageAt (tree : FileTree) (location : Location) : FileTree :=
  { tree with damage := ⟨location :: tree.damage.locations⟩ }

/-- A node is removed with everything below it. -/
def remove (tree : FileTree) (location : Location) : FileTree :=
  { tree with
    nodes := tree.nodes.filter fun node => !location.isSuffixOf node.1
    damage := ⟨tree.damage.locations.filter fun place => !location.isSuffixOf place⟩ }

/-- Whether a directory stands at a location. -/
def holdsDirectory (tree : FileTree) (location : Location) : Bool :=
  match tree.nodeAt? location with
  | some (.directory _) => true
  | _ => false

/-- The longest name that a directory takes, in bytes. -/
def longestName : Nat := 255

/-- One segment of a path leads from a directory to an existing node. -/
def step (tree : FileTree) (location : Location) (segment : String) :
    Except FileFault Location :=
  match tree.nodeAt? location with
  | none => .error .missing
  | some (.file _ _) => .error .notDirectory
  | some (.directory _) =>
    if segment = "." then .ok location
    else if segment = ".." then .ok location.tail
    else if longestName < segment.utf8ByteSize then .error .nameTooLong
    else if (tree.nodeAt? (segment :: location)).isSome then .ok (segment :: location)
    else .error .missing

/-- Several segments lead on from each other. -/
def steps (tree : FileTree) (location : Location) : List String → Except FileFault Location
  | [] => .ok location
  | segment :: rest =>
    match tree.step location segment with
    | .error fault => .error fault
    | .ok location => tree.steps location rest

/-- The segments of a path that are not empty. -/
def names (path : String) : List String := (Path.segments path).filter (· ≠ "")

/-- The location that a path leads from. -/
def origin (tree : FileTree) (path : String) : Location :=
  if Path.isAbsolute path then [] else tree.here

/-- The longest path that the system takes, in bytes. -/
def longestPath : Nat := 4095

/-- A path is refused as such when it is empty, too long or holds a NUL. -/
def checkPath (path : String) : Except FileFault Unit :=
  if path.toList.contains '\x00' then .error .nulInName
  else if path.isEmpty then .error .missing
  else if longestPath < path.utf8ByteSize then .error .nameTooLong
  else .ok ()

/-- A path that ends in a slash asks for a directory. -/
def asksDirectory (path : String) : Bool := path.toList.getLast? = some '/'

/-- The location of an existing node. -/
def find (tree : FileTree) (path : String) : Except FileFault Location := do
  checkPath path
  let location ← tree.steps (tree.origin path) (names path)
  if asksDirectory path && !tree.holdsDirectory location then .error .notDirectory
  else .ok location

/-- The directory that a path leads to before its last segment, and that segment. -/
def findParent (tree : FileTree) (path : String) : Except FileFault (Location × Option String) := do
  checkPath path
  match (names path).reverse with
  | [] => .ok ([], none)
  | last :: before =>
    let location ← tree.steps (tree.origin path) before.reverse
    match tree.nodeAt? location with
    | some (.directory _) => .ok (location, if last = "." || last = ".." then none else some last)
    | some (.file _ _) => .error .notDirectory
    | none => .error .missing

/-- Whether a path leads to a directory. -/
def isDirectory (tree : FileTree) (path : String) : Bool :=
  match tree.find path with
  | .ok location => tree.holdsDirectory location
  | .error _ => false

/-- A directory is made where nothing stands yet. -/
def makeDirectory (tree : FileTree) (path : String) : Except FileFault FileTree :=
  match tree.findParent path with
  | .error fault => .error fault
  | .ok (_, none) => .error .alreadyThere
  | .ok (parent, some name) =>
    if longestName < name.utf8ByteSize then .error .nameTooLong
    else if (tree.nodeAt? (name :: parent)).isSome then .error .alreadyThere
    else .ok (tree.put (name :: parent) (.directory directoryMode))

/-- A directory is made unless it is already there. -/
def makeOwnDirectory (path : String) (tree : FileTree) : Except FileFault Unit × FileTree :=
  match tree.makeDirectory path with
  | .ok tree => (.ok (), tree)
  | .error fault => (if tree.isDirectory path then .ok () else .error fault, tree)

/-- A missing directory is made behind its parents; every step goes up by one parent at least. -/
def makeDirectoriesWithin : (steps : Nat) → String → FileTree → Except FileFault Unit × FileTree
  | 0, _, tree => (.error .missing, tree)
  | steps + 1, path, tree =>
    match Path.parent? path with
    | none => (.ok (), tree)
    | some parent =>
      match tree.makeDirectory path with
      | .ok tree => (.ok (), tree)
      | .error .missing =>
        match makeDirectoriesWithin steps parent tree with
        | (.error fault, tree) => (.error fault, tree)
        | (.ok (), tree) => tree.makeOwnDirectory path
      | .error fault => (if tree.isDirectory path then .ok () else .error fault, tree)

/-- A directory and all its parents are made unless they are already there. -/
def makeDirectories (path : String) (tree : FileTree) : Except FileFault Unit × FileTree :=
  makeDirectoriesWithin ((Path.segments path).length + 1) path tree

/-- The location of a file that is opened for writing, which need not be there yet. -/
def openForWriting (tree : FileTree) (path : String) : Except FileFault Location :=
  match tree.findParent path with
  | .error fault => .error fault
  | .ok (_, none) => .error .isDirectory
  | .ok (parent, some name) =>
    if asksDirectory path then .error .isDirectory
    else if longestName < name.utf8ByteSize then .error .nameTooLong
    else if tree.holdsDirectory (name :: parent) then .error .isDirectory
    else .ok (name :: parent)

/-- The permissions of a node stay when its content changes. -/
def modeAt (tree : FileTree) (location : Location) : Mode :=
  match tree.nodeAt? location with
  | some (.file _ mode) => mode
  | _ => fileMode

/-- The text replaces the content of a file, which is made when it is not there. -/
def write (path text : String) (tree : FileTree) : Except FileFault Unit × FileTree :=
  match tree.openForWriting path with
  | .error fault => (.error fault, tree)
  | .ok location =>
    (.ok (), tree.put location (.file (.text text) (tree.modeAt location)))

/-- A file is made when it is not there, and stays as it is otherwise. -/
def touch (path : String) (tree : FileTree) : Except FileFault Unit × FileTree :=
  match tree.openForWriting path with
  | .error fault => (.error fault, tree)
  | .ok location =>
    match tree.nodeAt? location with
    | some _ => (.ok (), tree)
    | none => (.ok (), tree.put location (.file (.text "") fileMode))

/-- The text of a file; damage shows before the text can be looked at. -/
def read (path : String) (tree : FileTree) : Except FileFault String :=
  match tree.find path with
  | .error fault => .error fault
  | .ok location =>
    match tree.nodeAt? location with
    | some (.file content _) =>
      if tree.isDamaged location then .error .damaged
      else
        match content with
        | .text text => .ok text
        | .binary _ => .error .notText
    | some (.directory _) => .error .isDirectory
    | none => .error .missing

/-- The permissions of a node are replaced by the low twelve bits of a mode, and nothing else. -/
def setMode (path : String) (mode : Mode) (tree : FileTree) : Except FileFault Unit × FileTree :=
  match tree.find path with
  | .error fault => (.error fault, tree)
  | .ok location =>
    let node : FileNode := match tree.nodeAt? location with
      | some (.file content _) => .file content (mode % 0o10000)
      | _ => .directory (mode % 0o10000)
    (.ok (), { tree.put location node with damage := tree.damage })

/-- The permissions of a node, if there is one. -/
def mode? (path : String) (tree : FileTree) : Option Mode :=
  match tree.find path with
  | .error _ => none
  | .ok location =>
    match tree.nodeAt? location with
    | some (.file _ mode) => some mode
    | some (.directory mode) => some mode
    | none => none

end FileTree

end SyncStore
