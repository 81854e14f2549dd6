import SyncStore.Proofs.Files.Reachable
import SyncStore.Proofs.Files.Stored

/-! A file is written in its directory, which is made first, and in no directory below that. -/

namespace SyncStore.FileDestination

open FileTree

variable {kind : BackendKind} {format : FileFormat} {file : FileDestination}
  {home : Option String} {directory : String} {parts : List String} {tree made : FileTree}

/-- The location that the path of a file leads to. -/
def place (file : FileDestination) (tree : FileTree) : Location :=
  resolve (tree.origin file.path) (names file.path)

/-- The names of the path of a file that lead to the directory it is in. -/
def way (file : FileDestination) : List String := (names file.path).dropLast

/--
The system refuses no file in a directory that could be made.

- `checked`: the path is taken by the system
- `rooted`: it leads from a directory that is there
- `short`: its names are short enough
- `clear`: no file stands in the place of a directory above
- `free`: no directory stands in the place of the file
-/
structure Unobstructed (file : FileDestination) (tree : FileTree) : Prop where
  checked : checkPath file.path = .ok ()
  rooted : tree.Rooted (tree.origin file.path)
  short : ∀ name ∈ names file.path, name.utf8ByteSize ≤ longestName
  clear : tree.ClearOfFiles (tree.origin file.path) file.way
  free : tree.holdsDirectory (file.place tree) = false

/--
The file gets a directory when its own one is made.

- `spelled`: the directory is not spelled with a point at its end, unless it is there
- `apart`: the directory does not lead through the place of the file
- `enclosed`: the file is right in that directory, or in another one that is there
-/
structure GetsDirectory (file : FileDestination) (parts : List String) (tree : FileTree) :
    Prop where
  spelled : (names file.directory).getLast? = some "." → tree.isDirectory file.directory = true
  apart : ∀ front, front <+: names file.directory →
    resolve (tree.origin file.path) front ≠ file.place tree
  enclosed : parts.length = 1 ∨ tree.Walked (tree.origin file.path) file.way

/-- The ending of a file is a text without slashes. -/
theorem ending_of_format? (keeps : kind.format? = some format) :
    format.ending ≠ "" ∧ '/' ∉ format.ending.toList := by
  cases kind with
  | redis => cases keeps
  | _ =>
    obtain rfl := Option.some.inj keeps
    decide +kernel

/-- Normal names in a row lead from no root. -/
theorem relative_of_normal {front : List String} {last : String}
    (normal : ∀ part ∈ front ++ [last], Path.IsNormal part) :
    Path.isAbsolute (Path.ofSegments (front ++ [last])) = false := by
  rw [Path.isAbsolute_ofSegments fun part used => (normal part used).whole]
  cases front with
  | nil => simp
  | cons first rest =>
    have named := (normal first (by simp)).ne_empty
    simp [named]

/-- The segments of a file are those of its directory and its parts, with the extension at the
last one. -/
theorem segments_locate (keeps : kind.format? = some format) {front : List String} {last : String}
    (normal : ∀ part ∈ front ++ [last], Path.IsNormal part)
    (located : file = locate format home directory (Path.ofSegments (front ++ [last]))) :
    ∃ lead, Path.segments file.path = lead ++ front ++ [Path.extended format.ending last] ∧
      lead.filter (· ≠ "") = names file.directory ∧
      (file.directory ≠ "" →
        lead ≠ [] ∧ file.directory.toList <+: (Path.ofSegments lead ++ "/").toList) ∧
      Path.isAbsolute file.path = Path.isAbsolute file.directory := by
  have spelled : file.path = Path.withExtension format.ending
      (Path.join file.directory (Path.ofSegments (front ++ [last]))) := by
    rw [located, locate]
  have filename := Path.segments_ofSegments (fun part used => (normal part used).whole)
    (List.append_ne_nil_of_right_ne_nil front (List.cons_ne_nil last []))
  obtain ⟨lead, names, starts, joined⟩ := segments_join file.directory
  obtain ⟨split, side⟩ := joined _ (relative_of_normal normal)
  rw [filename, ← List.append_assoc] at split
  have path : file.path = Path.ofSegments (lead ++ front ++ [Path.extended format.ending last]) :=
    spelled.trans (Path.withExtension_of_normal split (normal last (by simp)) format.ending)
  -- No segment gets a slash, neither an old one nor the one with the extension.
  have uncut : ∀ part ∈ lead ++ front ++ [Path.extended format.ending last],
      '/' ∉ part.toList := by
    intro part used
    rcases List.mem_append.mp used with used | used
    · refine Path.slash_not_mem_segments (?_ : part ∈ Path.segments (Path.join file.directory
        (Path.ofSegments (front ++ [last]))))
      rw [split]
      exact List.mem_append_left _ used
    · obtain ⟨some, whole⟩ := ending_of_format? keeps
      exact List.mem_singleton.mp used ▸ ((normal last (by simp)).extended some whole).whole
  refine ⟨lead, ?_, names, starts, ?_⟩
  · rw [path, Path.segments_ofSegments uncut (by simp)]
  · -- Only the last segment is another one, and it is the first one of no absolute path.
    rw [← side, path, ← Path.ofSegments_segments (Path.join _ _), split,
      Path.isAbsolute_ofSegments uncut, Path.isAbsolute_ofSegments]
    · cases lead ++ front <;> simp
    · exact fun part used => Path.slash_not_mem_segments (split ▸ used)

/-- The path of a file leads through its directory and its parts, and takes the extension. -/
theorem names_locate (keeps : kind.format? = some format) {front : List String} {last : String}
    (normal : ∀ part ∈ front ++ [last], Path.IsNormal part)
    (located : file = locate format home directory (Path.ofSegments (front ++ [last]))) :
    names file.path =
        names file.directory ++ front ++ [Path.extended format.ending last] ∧
      tree.origin file.path = tree.origin file.directory ∧
      file.directory.toList <+: file.path.toList ∧ asksDirectory file.path = false := by
  obtain ⟨lead, segments, names, starts, side⟩ := segments_locate keeps normal located
  obtain ⟨some, whole⟩ := ending_of_format? keeps
  have named := ((normal last (by simp)).extended some whole).ne_empty
  refine ⟨?_, ?_, ?_, ?_⟩
  · have kept : front.filter (· ≠ "") = front :=
      List.filter_eq_self.mpr fun part used => by
        simpa using (normal part (by simp [used])).ne_empty
    rw [FileTree.names, segments, List.filter_append, List.filter_append, names, kept,
      List.filter_cons_of_pos (by simpa using named), List.filter_nil]
  · rw [FileTree.origin, side, FileTree.origin]
  · by_cases empty : file.directory = ""
    · rw [empty]
      exact List.nil_prefix
    · obtain ⟨some, starts⟩ := starts empty
      rw [← Path.ofSegments_segments file.path, segments, List.append_assoc,
        Path.ofSegments_append some (by simp), String.toList_append]
      exact starts.trans (List.prefix_append _ _)
  · -- A slash at the end would leave an empty segment behind it.
    rw [FileTree.asksDirectory, decide_eq_false_iff_not]
    intro slash
    obtain ⟨letters, ends⟩ := List.getLast?_eq_some_iff.mp slash
    have spelled : file.path = String.ofList letters ++ "/" ++ "" := by
      apply String.toList_injective
      simp [ends]
    rw [spelled, Path.segments_slash, Path.segments_empty] at segments
    have last := (List.append_inj' segments rfl).2
    exact named (List.cons.inj last).1.symm

/-- A file whose directory is made is written and touched there. -/
theorem opensAt_of_walked {name : String} (unobstructed : file.Unobstructed tree)
    (whole : names file.path = file.way ++ [name]) (named : Path.IsNormal name)
    (asksFile : asksDirectory file.path = false)
    (walked : tree.Walked (tree.origin file.path) file.way) :
    file.place tree = name :: resolve (tree.origin file.path) file.way ∧
      tree.OpensAt file.path (resolve (tree.origin file.path) file.way) file.way name := by
  obtain ⟨_, noPoint⟩ := Path.isIdle_eq_false.mp named.busy
  have place : file.place tree = name :: resolve (tree.origin file.path) file.way := by
    rw [FileDestination.place, whole, resolve, List.foldl_append]
    simp only [List.foldl_cons, List.foldl_nil, onward, noPoint, named.down, ↓reduceIte]
    rfl
  refine ⟨place, unobstructed.checked, whole, walked.1, walked.2.directory,
    ⟨noPoint, named.down, ?_⟩, asksFile, place ▸ unobstructed.free⟩
  exact unobstructed.short name (by rw [whole]; simp)

/-- Nothing but missing directories stands against the directory of an unobstructed file. -/
theorem Unobstructed.reachable (unobstructed : file.Unobstructed tree) {front : List String}
    (way : file.way = names file.directory ++ front)
    (origin : tree.origin file.path = tree.origin file.directory)
    (starts : file.directory.toList <+: file.path.toList) :
    tree.Reachable file.directory where
  checked := checkPath_of_starts unobstructed.checked starts
  rooted := origin ▸ unobstructed.rooted
  short name part := by
    refine unobstructed.short name (List.mem_of_mem_dropLast ?_)
    change name ∈ file.way
    rw [way]
    exact List.mem_append_left _ part
  clear := by
    rw [← origin]
    refine unobstructed.clear.of_starts ?_
    rw [way]
    exact List.prefix_append _ _

section Located

variable (keeps : kind.format? = some format) (some : parts ≠ [])
  (normal : ∀ part ∈ parts, Path.IsNormal part)
  (located : file = locate format home directory (Path.ofSegments parts))
  (unobstructed : file.Unobstructed tree)
include keeps some normal located unobstructed

/-- A file that gets a directory can be opened there once its own directory is made. -/
theorem opens_of_getsDirectory (gets : file.GetsDirectory parts tree) :
    ∃ made name, tree.makeDirectories file.directory = (.ok (), made) ∧
      made.Walked (tree.origin file.path) file.way ∧
      made.nodeAt? (file.place tree) = tree.nodeAt? (file.place tree) ∧
      file.place tree = name :: resolve (tree.origin file.path) file.way ∧
      made.OpensAt file.path (resolve (tree.origin file.path) file.way) file.way name := by
  obtain ⟨front, last, rfl⟩ : ∃ front last, parts = front ++ [last] :=
    ⟨parts.dropLast, parts.getLast some, (List.dropLast_append_getLast some).symm⟩
  obtain ⟨whole, origin, starts, asksFile⟩ :=
    @names_locate _ _ file _ _ tree keeps _ _ normal located
  have named := (normal last (by simp)).extended (ending_of_format? keeps).1
    (ending_of_format? keeps).2
  have way : file.way = names file.directory ++ front := by
    rw [FileDestination.way, whole, List.dropLast_concat]
  have reachable := unobstructed.reachable way origin starts
  -- The names of the directory are some of its segments, so there are steps enough.
  have enough : (names file.directory).length < (Path.segments file.directory).length + 1 :=
    Nat.lt_succ_of_le (List.length_filter_le _ _)
  obtain ⟨made, done, walked, grows⟩ := reachable.makeDirectoriesWithin enough gets.spelled
  have same := grows.origin file.path
  have place : file.place made = file.place tree := by
    rw [FileDestination.place, same, FileDestination.place]
  have free : made.holdsDirectory (file.place tree) = false := by
    by_contra directory
    rcases grows.of_holdsDirectory (by simpa using directory) with before | ⟨first, part, led⟩
    · rw [unobstructed.free] at before
      cases before
    · exact gets.apart first part (by rw [origin, led])
  have still : file.Unobstructed made :=
    ⟨unobstructed.checked, same ▸ grows.rooted unobstructed.rooted, unobstructed.short,
      same ▸ grows.clear unobstructed.clear, place ▸ free⟩
  have inside : made.Walked (made.origin file.path) file.way := by
    rw [same]
    rcases gets.enclosed with single | there
    · -- The only part is the name of the file.
      obtain rfl : front = [] := by simpa using single
      rw [way, List.append_nil, origin]
      exact walked
    · exact grows.walked there
  have ends : names file.path = file.way ++ [Path.extended format.ending last] := by
    rw [way, whole]
  obtain ⟨led, opens⟩ := opensAt_of_walked still ends named asksFile inside
  rw [same] at led opens inside
  exact ⟨made, _, done, inside, grows.nodeAt?_of_free free, place ▸ led, opens⟩

end Located

section Opened

variable {name : String} (done : tree.makeDirectories file.directory = (.ok (), made))
  (walked : made.Walked (tree.origin file.path) file.way)
  (led : file.place tree = name :: resolve (tree.origin file.path) file.way)
  (opens : made.OpensAt file.path (resolve (tree.origin file.path) file.way) file.way name)
include done walked led opens

/-- A file that opens is written with any data that has a text. -/
theorem writeAll_of_opens {data : Data} {text : String}
    (printed : file.format.write data = .ok text) :
    ∃ after, file.writeAll data tree = (.ok (), after) ∧
      after.Walked (tree.origin file.path) file.way ∧ after.read file.path = .ok text := by
  refine ⟨made.put (file.place tree) (.file (.text text) (made.modeAt (file.place tree))),
    ?_, ?_, ?_⟩
  · refine writeAll_eq_ok.mpr ⟨text, made, printed, done, ?_⟩
    rw [FileTree.write, opens.openForWriting, ← led]
  · exact walked.put (led ▸ opens.free)
  · rw [led]
    exact opens.read_put _ _

/-- A file that opens is made without any text, unless something stands in its place. -/
theorem ensureFile_of_opens
    (same : made.nodeAt? (file.place tree) = tree.nodeAt? (file.place tree)) :
    ∃ after, file.ensureFile tree = (.ok (), after) ∧
      after.Walked (tree.origin file.path) file.way ∧
      (∀ node, tree.nodeAt? (file.place tree) = some node →
        after.nodeAt? (file.place tree) = some node) ∧
      (tree.nodeAt? (file.place tree) = none → after.read file.path = .ok "") := by
  -- The directory is made, so all depends on what the touch finds there.
  have reached : ∀ after, made.touch file.path = (.ok (), after) →
      file.ensureFile tree = (.ok (), after) := by
    intro after touched
    rw [ensureFile, attempt_eq_ok.mpr done]
    exact attempt_eq_ok.mpr touched
  cases stands : tree.nodeAt? (file.place tree) with
  | some node =>
    rw [stands] at same
    refine ⟨made, reached made ?_, walked, fun other is => same.trans is, fun none => ?_⟩
    · rw [touch, opens.openForWriting]
      simp only [← led, same]
    · cases none
  | none =>
    rw [stands] at same
    refine ⟨made.put (file.place tree) (.file (.text "") fileMode), reached _ ?_, ?_,
      fun node is => absurd is (Option.some_ne_none node).symm, fun _ => ?_⟩
    · rw [touch, opens.openForWriting]
      simp only [← led, same]
    · exact walked.put (led ▸ opens.free)
    · rw [led]
      exact opens.read_put _ _

end Opened

/-- A file cannot be opened where its directory is missing although its own one was made. -/
theorem openForWriting_of_missing (unobstructed : file.Unobstructed tree) {name : String}
    (whole : names file.path = file.way ++ [name])
    (done : tree.makeDirectories file.directory = (.ok (), made))
    (missing : made.holdsDirectory (resolve (tree.origin file.path) file.way) = false) :
    made.openForWriting file.path = .error .missing := by
  -- The directories that are made put no file anywhere.
  have kept : made.here = tree.here ∧ made.Rooted (tree.origin file.path) ∧
      made.ClearOfFiles (tree.origin file.path) file.way := by
    have all := @makeDirectories_keeps tree (fun grown => grown.here = tree.here ∧
      grown.Rooted (tree.origin file.path) ∧ grown.ClearOfFiles (tree.origin file.path) file.way)
      ?_ ⟨rfl, unobstructed.rooted, unobstructed.clear⟩ file.directory
    · rwa [done] at all
    · rintro grown place fresh ⟨here, rooted, clear⟩
      have grows : Grows (fun _ => True) grown (grown.put place (.directory directoryMode)) :=
        .put fresh trivial (.same _)
      exact ⟨here, grows.rooted rooted, grows.clear clear⟩
  obtain ⟨here, rooted, clear⟩ := kept
  have origin : made.origin file.path = tree.origin file.path := by
    rw [FileTree.origin, here, FileTree.origin]
  have walked : made.Walked (tree.origin file.path) file.way ∨
      made.steps (tree.origin file.path) file.way = .error .missing :=
    walked_of_clear rooted
      (fun name part => unobstructed.short name (List.mem_of_mem_dropLast part)) clear
  have lost : made.steps (made.origin file.path) file.way = .error .missing := by
    rw [origin]
    refine walked.resolve_left fun there => ?_
    have directory := there.2.directory
    rw [missing] at directory
    cases directory
  rw [FileTree.openForWriting, findParent_of_missing unobstructed.checked whole lost]

section Refused

variable {fault : FileFault} (done : tree.makeDirectories file.directory = (.ok (), made))
  (refused : made.openForWriting file.path = .error fault)
include done refused

/-- A file that does not open is not written, and only its directory is made. -/
theorem writeAll_of_refused {data : Data} {text : String}
    (printed : file.format.write data = .ok text) :
    file.writeAll data tree = (.error (failed .writeFile file.path fault), made) := by
  rw [writeAll, printed]
  simp only [attempt_eq_ok.mpr done, FileTree.write, refused]
  rfl

/-- A file that does not open is not made, and only its directory is. -/
theorem ensureFile_of_refused :
    file.ensureFile tree = (.error (failed .touchFile file.path fault), made) := by
  rw [ensureFile]
  simp only [attempt_eq_ok.mpr done, touch, refused]
  rfl

end Refused

/--
A file gets its data when its own directory is the one it is in, or that one is there.

The directories above the file are all there then.
A file that is there keeps its bytes when it is ensured, and a new one is read as empty data.
Where the directory of the file is missing although its own one was made, every write fails.
-/
theorem enclosing_directory_is_made (keeps : kind.format? = some format)
    (nonempty : parts ≠ []) (normal : ∀ part ∈ parts, Path.IsNormal part)
    (located : file = locate format home directory (Path.ofSegments parts))
    (unobstructed : file.Unobstructed tree) (side : Side) :
    (file.GetsDirectory parts tree →
      (∀ data text, format.write data = .ok text →
        ∃ after, file.destination.writeAll side data tree = (.ok (), after) ∧
          after.Walked (tree.origin file.path) file.way ∧ after.read file.path = .ok text) ∧
      (∃ after, file.ensureFile tree = (.ok (), after) ∧
        after.Walked (tree.origin file.path) file.way ∧
        (∀ node, tree.nodeAt? (file.place tree) = some node →
          after.nodeAt? (file.place tree) = some node) ∧
        (tree.nodeAt? (file.place tree) = none → after.read file.path = .ok "" ∧
          file.destination.readAll side after = (.ok [], after))) ∧
      (tree.read file.path = .error .missing →
        ∃ after, file.destination.readAll side tree = (.ok [], after) ∧
          after.Walked (tree.origin file.path) file.way ∧
          file.destination.readAll side after = (.ok [], after))) ∧
    ∀ made, tree.makeDirectories file.directory = (.ok (), made) →
      made.holdsDirectory (resolve (tree.origin file.path) file.way) = false →
      (∀ data text, format.write data = .ok text → file.destination.writeAll side data tree =
        (.error (failed .writeFile file.path .missing), made)) ∧
      file.ensureFile tree = (.error (failed .touchFile file.path .missing), made) ∧
      (tree.read file.path = .error .missing → file.destination.readAll side tree =
        (.error (failed .writeFile file.path .missing), made)) := by
  have same : file.format = format := by rw [located, locate]
  subst same
  obtain ⟨empty, printed, read⟩ := BackendKind.empty_round_trip keeps
  -- Both sides read and write the file in the same way.
  rw [destination_readAll, destination_writeAll]
  refine ⟨fun gets => ?_, fun made done missing => ?_⟩
  · obtain ⟨made, name, done, walked, same, led, opens⟩ :=
      opens_of_getsDirectory keeps nonempty normal located unobstructed gets
    refine ⟨fun data text printed => writeAll_of_opens done walked led opens printed, ?_, ?_⟩
    · obtain ⟨after, ensured, inside, kept, new⟩ := ensureFile_of_opens done walked led opens same
      refine ⟨after, ensured, inside, kept, fun none => ⟨new none, ?_⟩⟩
      exact readAll_of_reads ⟨"", new none, BackendKind.read_nothing keeps⟩
    · -- A missing file is written with empty data, and read as that.
      intro missing
      obtain ⟨after, written, inside, held⟩ := writeAll_of_opens done walked led opens printed
      refine ⟨after, ?_, inside, readAll_of_reads ⟨empty, held, read⟩⟩
      rw [readAll_of_missing missing, written]
      rfl
  · obtain ⟨name, whole⟩ : ∃ name, names file.path = file.way ++ [name] := by
      obtain ⟨front, last, rfl⟩ : ∃ front last, parts = front ++ [last] :=
        ⟨parts.dropLast, parts.getLast nonempty, (List.dropLast_append_getLast nonempty).symm⟩
      obtain ⟨whole, -⟩ := @names_locate _ _ file _ _ tree keeps _ _ normal located
      exact ⟨_, by rw [FileDestination.way, whole, List.dropLast_concat]⟩
    have refused := openForWriting_of_missing unobstructed whole done missing
    refine ⟨fun data text printed => writeAll_of_refused done refused printed,
      ensureFile_of_refused done refused, fun missing => ?_⟩
    rw [readAll_of_missing missing, writeAll_of_refused done refused printed]
    rfl

/-- Nothing stands in an empty tree against a path that the system takes. -/
theorem unobstructed_empty (checked : checkPath file.path = .ok ())
    (rooted : Path.isAbsolute file.path = true)
    (short : ∀ name ∈ names file.path, name.utf8ByteSize ≤ longestName)
    (below : file.place FileTree.empty ≠ []) : file.Unobstructed FileTree.empty where
  checked := checked
  rooted above part := by
    rw [FileTree.origin, if_pos rooted, List.suffix_nil] at part
    rw [part]
    decide +kernel
  short := short
  clear front part content mode stands := by
    -- Only the root stands in the tree, and that is a directory.
    have nothing : FileTree.empty.nodes.lookup
        (resolve (FileTree.empty.origin file.path) front) = none := rfl
    rw [FileTree.nodeAt?, nothing] at stands
    dsimp only at stands
    split at stands <;> cases stands
  free := by
    have nothing : FileTree.empty.nodes.lookup (file.place FileTree.empty) = none := rfl
    have none : FileTree.empty.nodeAt? (file.place FileTree.empty) = none := by
      rw [FileTree.nodeAt?, nothing]
      exact if_neg (by simpa using below)
    rw [FileTree.holdsDirectory, none]

/-- A file right in its directory is made with that, and can be written there. -/
theorem enclosing_directory_is_made_in_empty_tree :
    let file := locate .toml none "/a/b" "data"
    file.path = "/a/b/data.toml" ∧ (∃ after, file.ensureFile FileTree.empty = (.ok (), after) ∧
      after.Walked [] ["a", "b"] ∧ after.read file.path = .ok "" ∧
      file.destination.readAll .async after = (.ok [], after)) ∧
    ∃ after, file.destination.writeAll .sync [("k", .bool true)] FileTree.empty = (.ok (), after) ∧
      after.read file.path = .ok "k = true\n" := by
  intro file
  have path : file.path = "/a/b/data.toml" := by decide +kernel
  have directory : names file.directory = ["a", "b"] := by decide +kernel
  have origin : FileTree.empty.origin file.path = [] := by rw [path]; decide +kernel
  have way : file.way = ["a", "b"] := by rw [FileDestination.way, path]; decide +kernel
  have place : file.place FileTree.empty = ["data.toml", "b", "a"] := by
    rw [FileDestination.place, path]
    decide +kernel
  have unobstructed : file.Unobstructed FileTree.empty := by
    refine unobstructed_empty ?_ ?_ ?_ ?_
    · rw [path]; decide +kernel
    · rw [path]; decide +kernel
    · rw [path]; decide +kernel
    · rw [place]; decide
  have gets : file.GetsDirectory ["data"] FileTree.empty := by
    refine ⟨?_, fun front part => ?_, .inl rfl⟩
    · rw [directory]; decide
    · -- The way to the directory is shorter than the way to the file.
      rw [directory] at part
      rw [origin, place]
      rcases front with _ | ⟨a, _ | ⟨b, _ | ⟨c, rest⟩⟩⟩ <;> simp_all [resolve, onward]
  have located : file = locate .toml none "/a/b" (Path.ofSegments ["data"]) := by
    have filename : Path.ofSegments ["data"] = "data" := by decide +kernel
    rw [filename]
  have normal : ∀ part ∈ ["data"], Path.IsNormal part := by
    intro part used
    rw [List.mem_singleton.mp used]
    exact ⟨by decide, by decide, by decide +kernel⟩
  have keeps : BackendKind.toml.format? = some FileFormat.toml := rfl
  have made : ∀ side, _ := fun side =>
    (enclosing_directory_is_made keeps (by decide) normal located unobstructed side).1 gets
  have nothing : FileTree.empty.nodeAt? (file.place FileTree.empty) = none := by
    rw [place]; decide +kernel
  have printed : FileFormat.toml.write [("k", .bool true)] = .ok "k = true\n" := by cbv
  rw [origin, way] at made
  obtain ⟨-, ⟨after, ensured, walked, -, new⟩, -⟩ := made .async
  obtain ⟨written, done, -, held⟩ := (made .sync).1 _ _ printed
  exact ⟨path, ⟨after, ensured, walked, new nothing⟩, written, done, held⟩

/-- A file below its directory is not made, although nothing stands against that. -/
theorem missing_enclosing_directory_fails :
    let file := locate .toml none "/s" "sub/data"
    let path := "/s/sub/data.toml"
    file.path = path ∧ file.Unobstructed FileTree.empty ∧
      (file.destination.writeAll .sync [("k", .bool true)] FileTree.empty).1 =
        .error (.io path "write file: No such file or directory (os error 2)") ∧
      (file.ensureFile FileTree.empty).1 =
        .error (.io path "touch file: No such file or directory (os error 2)") := by
  intro file path
  have located : file.path = path := by decide +kernel
  have directory : file.directory = "/s" := by decide +kernel
  have place : file.place FileTree.empty = ["data.toml", "sub", "s"] := by
    rw [FileDestination.place, located]
    decide +kernel
  have printed : file.format.write [("k", .bool true)] = .ok "k = true\n" := by cbv
  -- The directory of the store is made, and the one below it is missing.
  have made : FileTree.empty.makeDirectories file.directory =
      (.ok (), FileTree.empty.put ["s"] (.directory directoryMode)) := by
    rw [directory]
    rfl
  have missing : (FileTree.empty.put ["s"] (.directory directoryMode)).openForWriting file.path =
      .error .missing := by
    rw [located]
    decide +kernel
  refine ⟨located, unobstructed_empty ?_ ?_ ?_ ?_, ?_, ?_⟩
  · rw [located]; decide +kernel
  · rw [located]; decide +kernel
  · rw [located]; decide +kernel
  · rw [place]; decide
  · rw [destination_writeAll, writeAll_of_refused made missing printed, located]
    rfl
  · rw [ensureFile_of_refused made missing, located]
    rfl

end SyncStore.FileDestination
