/-! A path is text whose segments are separated by slashes, and it keeps the
spelling it was given. -/

namespace SyncStore.Path

/-- The segments of a path are the texts between its slashes. -/
def segments (path : String) : List String := (path.toList.splitOn '/').map String.ofList

/-- Segments are joined by slashes. -/
def ofSegments (segments : List String) : String :=
  String.ofList (['/'].intercalate (segments.map String.toList))

/-- A path that starts with a slash leads from the root. -/
def isAbsolute (path : String) : Bool := path.toList.head? = some '/'

/-- A path is joined to a base with one slash between them, and an absolute
path replaces its base. -/
def join (base path : String) : String :=
  if isAbsolute path then path
  else if base.isEmpty || base.toList.getLast? = some '/' then base ++ path
  else base ++ "/" ++ path

/-- An empty segment and a single point lead nowhere. -/
def isIdle (segment : String) : Bool := segment = "" || segment = "."

/-- Idle segments at both ends are removed. -/
def trimIdle (segments : List String) : List String :=
  ((segments.dropWhile isIdle).reverse.dropWhile isIdle).reverse

/-- A path whose first segment is a tilde continues the home directory, if there is one. -/
def expandHome (home : Option String) (path : String) : String :=
  match home, segments path with
  | some home, "~" :: rest => join home (ofSegments (trimIdle rest))
  | _, _ => path

/-- The last segment that leads somewhere, and the segments before it; two points are no name. -/
def splitName? (path : String) : Option (List String × String) :=
  match (segments path).reverse.dropWhile isIdle with
  | [] => none
  | name :: before => if name = ".." then none else some (before.reverse, name)

/-- A name is cut at its last point, unless no character stands before that point. -/
def splitExtension (name : String) : String × Option String :=
  let reversed := name.toList.reverse
  let stem := (reversed.dropWhile (· ≠ '.')).drop 1
  if stem.isEmpty then (name, none)
  else (String.ofList stem.reverse, some (String.ofList (reversed.takeWhile (· ≠ '.')).reverse))

/-- A path whose name has another extension is cut behind the stem of its name
and takes the extension. -/
def withExtension (extension path : String) : String :=
  match splitName? path with
  | none => path
  | some (before, name) =>
    match splitExtension name with
    | (stem, found) =>
      if found = some extension then path else ofSegments (before ++ [stem ++ "." ++ extension])

/-- Idle segments at the end are removed, but not a single point that a
relative path starts with. -/
def trimEnd (isAbsolute : Bool) (segments : List String) : List String :=
  match isAbsolute, segments with
  | false, "." :: rest => "." :: (rest.reverse.dropWhile isIdle).reverse
  | _, segments => (segments.reverse.dropWhile isIdle).reverse

/-- The path without its last segment; the root and the empty path have none. -/
def parent? (path : String) : Option String :=
  let body := if isAbsolute path then (segments path).drop 1 else segments path
  let front := if isAbsolute path then "/" else ""
  match trimEnd (isAbsolute path) body with
  | [] => none
  | trimmed => some (front ++ ofSegments (trimEnd (isAbsolute path) trimmed.dropLast))

end SyncStore.Path
