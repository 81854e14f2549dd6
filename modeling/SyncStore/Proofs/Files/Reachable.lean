import SyncStore.Proofs.Files.Path
import SyncStore.Proofs.Files.Directories

/-! A directory is made with all its parents when nothing but their absence stands against it. -/

namespace SyncStore

namespace FileTree

variable {tree made : FileTree} {location : Location} {segments : List String} {path : String}

/-- Where a segment leads from a location when nothing is missing. -/
def onward (location : Location) (segment : String) : Location :=
  if segment = "." then location else if segment = ".." then location.tail else segment :: location

/-- Where segments lead from a location when nothing is missing. -/
def resolve (location : Location) (segments : List String) : Location :=
  segments.foldl onward location

/-- A location is rooted when it is a directory with directories above it only. -/
def Rooted (tree : FileTree) (location : Location) : Prop :=
  ∀ above, above <:+ location → tree.holdsDirectory above = true

/-- Segments are clear of files when none stands where they lead on the way. -/
def ClearOfFiles (tree : FileTree) (location : Location) (segments : List String) : Prop :=
  ∀ front, front <+: segments → ∀ content mode,
    tree.nodeAt? (resolve location front) ≠ some (.file content mode)

/-- Segments are walked when all of them lead through directories that are there. -/
def Walked (tree : FileTree) (location : Location) (segments : List String) : Prop :=
  tree.steps location segments = .ok (resolve location segments) ∧
    tree.Rooted (resolve location segments)

/-- A rooted location is a directory. -/
theorem Rooted.directory (rooted : tree.Rooted location) : tree.holdsDirectory location = true :=
  rooted location (List.suffix_refl _)

/-- The directory above a rooted location is rooted. -/
theorem Rooted.tail (rooted : tree.Rooted location) : tree.Rooted location.tail :=
  fun above part => rooted above (part.trans (List.tail_suffix _))

/-- A directory in a rooted location is rooted. -/
theorem Rooted.cons {name : String} (rooted : tree.Rooted location)
    (directory : tree.holdsDirectory (name :: location) = true) :
    tree.Rooted (name :: location) := by
  intro above part
  rcases List.suffix_cons_iff.mp part with rfl | part
  · exact directory
  · exact rooted above part

/-- The segments behind the first one are clear from where that leads. -/
theorem ClearOfFiles.tail {segment : String}
    (clear : tree.ClearOfFiles location (segment :: segments)) :
    tree.ClearOfFiles (onward location segment) segments :=
  fun front part => clear (segment :: front) (List.cons_prefix_cons.mpr ⟨rfl, part⟩)

/-- The segments in front are clear of files when all of them are. -/
theorem ClearOfFiles.of_starts {front : List String} (clear : tree.ClearOfFiles location segments)
    (part : front <+: segments) : tree.ClearOfFiles location front :=
  fun first before => clear first (before.trans part)

/-- A step from a rooted location goes on in one, unless a directory is missing. -/
theorem step_of_clear {segment : String} (rooted : tree.Rooted location)
    (short : segment.utf8ByteSize ≤ longestName)
    (clear : tree.ClearOfFiles location [segment]) :
    tree.step location segment = .ok (onward location segment) ∧
        tree.Rooted (onward location segment) ∨
      tree.step location segment = .error .missing := by
  have here := rooted.directory
  by_cases stay : segment = "."
  · subst stay
    exact .inl ⟨step_eq_ok.mpr ⟨here, .stay⟩, rooted⟩
  by_cases up : segment = ".."
  · subst up
    exact .inl ⟨step_eq_ok.mpr ⟨here, .up⟩, rooted.tail⟩
  have down : onward location segment = segment :: location := by
    rw [onward, if_neg stay, if_neg up]
  have free := clear [segment] (List.prefix_refl _)
  rw [show resolve location [segment] = onward location segment from rfl, down] at free
  rw [down]
  cases stands : tree.nodeAt? (segment :: location) with
  | none =>
    -- The step starts in a directory, and finds nothing there under the name.
    right
    unfold holdsDirectory at here
    split at here
    · rename_i mode there
      simp only [step, there, stay, up, Nat.not_lt_of_le short, stands, Option.isSome_none,
        Bool.false_eq_true, ↓reduceIte]
    · cases here
  | some node =>
    cases node with
    | file content mode => exact absurd stands (free content mode)
    | directory mode =>
      refine .inl ⟨step_eq_ok.mpr ⟨here, .down ⟨stay, up⟩ short (by rw [stands]; rfl)⟩, ?_⟩
      exact rooted.cons (by rw [holdsDirectory, stands])

/-- Segments that are clear of files are walked, unless a directory is missing. -/
theorem walked_of_clear (rooted : tree.Rooted location)
    (short : ∀ segment ∈ segments, segment.utf8ByteSize ≤ longestName)
    (clear : tree.ClearOfFiles location segments) :
    tree.Walked location segments ∨ tree.steps location segments = .error .missing := by
  induction segments generalizing location with
  | nil => exact .inl ⟨rfl, rooted⟩
  | cons segment rest ih =>
    have first := step_of_clear rooted (short segment List.mem_cons_self)
      (clear.of_starts (List.prefix_append [segment] rest))
    rcases first with ⟨stepped, inside⟩ | missing
    · -- The rest is walked from the next directory.
      have later := ih inside (fun name part => short name (List.mem_cons_of_mem _ part)) clear.tail
      rw [Walked, steps, stepped]
      exact later
    · exact .inr (by rw [steps, missing])

/-- A walk goes on with one more segment when that leads to a directory. -/
theorem Walked.snoc {before : List String} {last : String} (walked : tree.Walked location before)
    (short : last.utf8ByteSize ≤ longestName)
    (there : tree.holdsDirectory (resolve location (before ++ [last])) = true) :
    tree.Walked location (before ++ [last]) := by
  obtain ⟨front, rooted⟩ := walked
  have whole : resolve location (before ++ [last]) = onward (resolve location before) last := by
    rw [resolve, List.foldl_append]
    rfl
  rw [whole] at there
  rw [Walked, whole, steps_append front, steps_singleton, step_eq_ok]
  unfold onward at there ⊢
  -- The last segment stays, goes back, or leads down to the directory.
  split
  · rename_i stay
    exact ⟨⟨rooted.directory, stay ▸ .stay⟩, rooted⟩
  split
  · rename_i up
    exact ⟨⟨rooted.directory, up ▸ .up⟩, rooted.tail⟩
  rename_i stay up
  rw [if_neg stay, if_neg up] at there
  refine ⟨⟨rooted.directory, .down ⟨stay, up⟩ short ?_⟩, rooted.cons there⟩
  unfold holdsDirectory at there
  split at there
  · rename_i mode stands
    rw [stands]
    rfl
  · cases there

/-- A path whose names are walked is a directory. -/
theorem Walked.isDirectory (walked : tree.Walked (tree.origin path) (names path))
    (checked : checkPath path = .ok ()) : tree.isDirectory path = true :=
  isDirectory_iff.mpr ⟨checked, _, walked.1, walked.2.directory⟩

/-- What was walked is walked after a node was put where no directory stands. -/
theorem Walked.put {place : Location} {node : FileNode} (walked : tree.Walked location segments)
    (free : tree.holdsDirectory place = false) :
    (tree.put place node).Walked location segments := by
  refine ⟨steps_put free walked.1, fun above part => ?_⟩
  have directory := walked.2 above part
  refine (holdsDirectory_put_of_ne ?_).trans directory
  rintro rfl
  rw [directory] at free
  cases free

/-- Points are walked where they start. -/
theorem walked_of_points (rooted : tree.Rooted location)
    (points : ∀ segment ∈ segments, segment = ".") : tree.Walked location segments := by
  induction segments with
  | nil => exact ⟨rfl, rooted⟩
  | cons segment rest ih =>
    obtain rfl := points segment List.mem_cons_self
    have stepped : tree.step location "." = .ok location := step_eq_ok.mpr ⟨rooted.directory, .stay⟩
    have later := ih fun name part => points name (List.mem_cons_of_mem _ part)
    rw [Walked, steps, stepped]
    exact later

/--
A tree grows by new directories.

Each of them is put where nothing stood, at a location of which the property holds.
-/
inductive Grows (holds : Location → Prop) : FileTree → FileTree → Prop where
  | same (tree : FileTree) : Grows holds tree tree
  | put {tree made : FileTree} {place : Location} (fresh : tree.nodeAt? place = none)
    (meant : holds place) (later : Grows holds (tree.put place (.directory directoryMode)) made) :
    Grows holds tree made

namespace Grows

variable {holds : Location → Prop}

/-- What new directories keep is kept while the tree grows. -/
theorem keeps {kept : FileTree → Prop} (grows : Grows holds tree made)
    (step : ∀ tree place, tree.nodeAt? place = none → holds place → kept tree →
      kept (tree.put place (.directory directoryMode)))
    (before : kept tree) : kept made := by
  induction grows with
  | same => exact before
  | put fresh meant _ ih => exact ih (step _ _ fresh meant before)

/-- A tree that grows twice grows by the directories of both times. -/
theorem trans {middle : FileTree} (first : Grows holds tree middle)
    (second : Grows holds middle made) : Grows holds tree made := by
  induction first with
  | same => exact second
  | put fresh meant _ ih => exact .put fresh meant (ih second)

/-- The property of the new directories may be weakened. -/
theorem imp {other : Location → Prop} (weaker : ∀ place, holds place → other place)
    (grows : Grows holds tree made) : Grows other tree made := by
  induction grows with
  | same => exact .same _
  | put fresh meant _ ih => exact .put fresh (weaker _ meant) ih

/-- The directory that relative paths lead from stays. -/
theorem here (grows : Grows holds tree made) : made.here = tree.here := by
  refine @keeps tree made holds (fun grown => grown.here = tree.here) grows ?_ rfl
  exact fun _ _ _ _ same => same

/-- Paths still lead from where they did. -/
theorem origin (grows : Grows holds tree made) (path : String) :
    made.origin path = tree.origin path := by
  rw [FileTree.origin, grows.here, FileTree.origin]

/-- Whatever stands somewhere stays. -/
theorem nodeAt? {node : FileNode} (grows : Grows holds tree made)
    (stands : tree.nodeAt? location = some node) : made.nodeAt? location = some node := by
  refine @keeps tree made holds (·.nodeAt? location = some node) grows ?_ stands
  intro tree place fresh _ stands
  have differ : location ≠ place := by
    rintro rfl
    rw [stands] at fresh
    cases fresh
  rwa [nodeAt?_put_of_ne differ]

/-- Every directory stays. -/
theorem holdsDirectory (grows : Grows holds tree made)
    (directory : tree.holdsDirectory location = true) : made.holdsDirectory location = true := by
  unfold FileTree.holdsDirectory at directory ⊢
  split at directory
  · rename_i mode stands
    rw [grows.nodeAt? stands]
  · cases directory

/-- A directory was there before, or is one of the new ones. -/
theorem of_holdsDirectory (grows : Grows holds tree made)
    (directory : made.holdsDirectory location = true) :
    tree.holdsDirectory location = true ∨ holds location := by
  induction grows with
  | same => exact .inl directory
  | @put tree made place fresh meant later ih =>
    refine (ih directory).elim (fun before => ?_) .inr
    by_cases same : location = place
    · exact .inr (same ▸ meant)
    · exact .inl ((holdsDirectory_put_of_ne same).symm.trans before)

/-- Only directories are new. -/
theorem nodeAt?_of_free (grows : Grows holds tree made)
    (free : made.holdsDirectory location = false) :
    made.nodeAt? location = tree.nodeAt? location := by
  induction grows with
  | same => rfl
  | @put tree made place fresh meant later ih =>
    rw [ih free]
    refine nodeAt?_put_of_ne ?_
    rintro rfl
    have new : made.holdsDirectory location = true :=
      later.holdsDirectory (by rw [FileTree.holdsDirectory, nodeAt?_put_self])
    rw [new] at free
    cases free

/-- A rooted location stays rooted. -/
theorem rooted (grows : Grows holds tree made) (rooted : tree.Rooted location) :
    made.Rooted location :=
  fun above part => grows.holdsDirectory (rooted above part)

/-- What was walked is walked again. -/
theorem walked (grows : Grows holds tree made) (walked : tree.Walked location segments) :
    made.Walked location segments := by
  refine ⟨?_, grows.rooted walked.2⟩
  refine @keeps tree made holds (·.steps location segments = .ok (resolve location segments))
    grows ?_ walked.1
  intro tree place fresh _ walked
  exact steps_put (by rw [FileTree.holdsDirectory, fresh]) walked

/-- No file is put anywhere. -/
theorem clear (grows : Grows holds tree made) (clear : tree.ClearOfFiles location segments) :
    made.ClearOfFiles location segments := by
  refine @keeps tree made holds (·.ClearOfFiles location segments) grows ?_ clear
  intro tree place fresh _ clear front part content mode stands
  by_cases same : resolve location front = place
  · rw [same, nodeAt?_put_self] at stands
    cases stands
  · rw [nodeAt?_put_of_ne same] at stands
    exact clear front part content mode stands

end Grows

section Making

variable {before : List String} {last : String} (checked : checkPath path = .ok ())
  (whole : names path = before ++ [last])
include checked whole

/-- No parent is found when a directory in front of the last name is missing. -/
theorem findParent_of_missing (missing : tree.steps (tree.origin path) before = .error .missing) :
    tree.findParent path = .error .missing := by
  have reversed : (names path).reverse = last :: before.reverse := by simp [whole]
  unfold findParent
  simp only [checked, Bind.bind, Except.bind, reversed, List.reverse_reverse, missing]

/-- A directory is missing with the directories in front of it. -/
theorem makeDirectory_of_missing
    (missing : tree.steps (tree.origin path) before = .error .missing) :
    tree.makeDirectory path = .error .missing := by
  rw [makeDirectory, findParent_of_missing checked whole missing]

/-- A directory is made in directories that are there, unless it is there itself. -/
theorem makeDirectory_of_walked (walked : tree.Walked (tree.origin path) before)
    (short : last.utf8ByteSize ≤ longestName)
    (clear : tree.ClearOfFiles (tree.origin path) (names path)) :
    tree.Walked (tree.origin path) (names path) ∨
      tree.nodeAt? (resolve (tree.origin path) (names path)) = none ∧
        tree.makeDirectory path = .ok
          (tree.put (resolve (tree.origin path) (names path)) (.directory directoryMode)) := by
  have free := clear (names path) (List.prefix_refl _)
  rw [whole] at free ⊢
  have place : resolve (tree.origin path) (before ++ [last]) =
      onward (resolve (tree.origin path) before) last := by
    rw [resolve, List.foldl_append]
    rfl
  by_cases there : tree.holdsDirectory (resolve (tree.origin path) (before ++ [last])) = true
  · exact .inl (walked.snoc short there)
  -- What is not there is no way back, because the way back is a directory.
  have named : last ≠ "." ∧ last ≠ ".." := by
    refine ⟨fun stay => there ?_, fun up => there ?_⟩
    · rw [place, onward, if_pos stay]
      exact walked.2.directory
    · rw [place, onward, if_neg (by rw [up]; decide), if_pos up]
      exact walked.2.tail.directory
  have fresh : tree.nodeAt? (resolve (tree.origin path) (before ++ [last])) = none := by
    rcases stands : tree.nodeAt? (resolve (tree.origin path) (before ++ [last])) with
      _ | ⟨content, mode⟩ | mode
    · rfl
    · exact absurd stands (free content mode)
    · exact absurd (by rw [holdsDirectory, stands]) there
  refine .inr ⟨fresh, ?_⟩
  rw [place, onward, if_neg named.1, if_neg named.2] at fresh ⊢
  rw [makeDirectory, findParent_of_walked checked whole walked.1 walked.2.directory]
  simp only [named.1, named.2, decide_false, Bool.or_self, Bool.false_eq_true, ↓reduceIte,
    Nat.not_lt_of_le short, fresh, Option.isSome_none]

end Making

/-- The start of a path is taken by the system when the path is. -/
theorem checkPath_of_starts {front : String} (checked : checkPath path = .ok ())
    (starts : front.toList <+: path.toList) (some : front ≠ "") : checkPath front = .ok () := by
  obtain ⟨back, spelled⟩ := starts
  have split : path = front ++ String.ofList back := by
    apply String.toList_injective
    rw [String.toList_append, String.toList_ofList, spelled]
  -- A start is no longer than the whole, and holds none but its characters.
  unfold checkPath at checked ⊢
  split at checked
  · cases checked
  rename_i noNul
  split at checked
  · cases checked
  split at checked
  · cases checked
  rename_i short
  rw [split, String.utf8ByteSize_append] at short
  rw [split, String.toList_append, List.contains_append] at noNul
  rw [if_neg (fun nul => noNul (by rw [nul]; rfl)), if_neg (by simpa using some),
    if_neg (by omega)]

/-- A walk goes on where the first one ended. -/
theorem Walked.append {front back : List String} (first : tree.Walked location front)
    (second : tree.Walked (resolve location front) back) :
    tree.Walked location (front ++ back) := by
  have whole : resolve location (front ++ back) = resolve (resolve location front) back := by
    rw [resolve, List.foldl_append]
    rfl
  rw [Walked, whole, steps_append first.1]
  exact second

/-- The locations that a path leads through. -/
def OnWay (tree : FileTree) (path : String) (place : Location) : Prop :=
  ∃ front, front <+: names path ∧ place = resolve (tree.origin path) front

/--
Nothing but missing directories stands against a directory.

- `checked`: the path is taken by the system, if it has any text
- `rooted`: it leads from a directory that is there
- `short`: its names are short enough
- `clear`: no file stands on the way
-/
structure Reachable (tree : FileTree) (path : String) : Prop where
  checked : path ≠ "" → checkPath path = .ok ()
  rooted : tree.Rooted (tree.origin path)
  short : ∀ name ∈ names path, name.utf8ByteSize ≤ longestName
  clear : tree.ClearOfFiles (tree.origin path) (names path)

namespace Reachable

/-- A path stays reachable while the tree grows. -/
theorem grows {holds : Location → Prop} (reachable : tree.Reachable path)
    (grows : Grows holds tree made) : made.Reachable path where
  checked := reachable.checked
  rooted := by
    rw [grows.origin]
    exact grows.rooted reachable.rooted
  short := reachable.short
  clear := by
    rw [grows.origin]
    exact grows.clear reachable.clear

/-- A reachable directory that is there is walked. -/
theorem walked (reachable : tree.Reachable path) (directory : tree.isDirectory path = true) :
    tree.Walked (tree.origin path) (names path) := by
  refine (walked_of_clear reachable.rooted reachable.short reachable.clear).resolve_right ?_
  intro missing
  obtain ⟨-, location, walked, -⟩ := isDirectory_iff.mp directory
  cases missing.symm.trans walked

/-- A directory that is made where nothing stood is walked. -/
theorem walked_of_made (reachable : tree.Reachable path)
    (fresh : tree.nodeAt? (resolve (tree.origin path) (names path)) = none)
    (made : tree.makeDirectory path = .ok
      (tree.put (resolve (tree.origin path) (names path)) (.directory directoryMode))) :
    let grown := tree.put (resolve (tree.origin path) (names path)) (.directory directoryMode)
    grown.Walked (tree.origin path) (names path) ∧ Grows (tree.OnWay path) tree grown := by
  intro grown
  have grows : Grows (tree.OnWay path) tree grown :=
    .put fresh ⟨names path, List.prefix_refl _, rfl⟩ (.same _)
  exact ⟨(reachable.grows grows).walked (isDirectory_of_makeDirectory made), grows⟩

/-- The parent of a reachable path is reachable. -/
theorem parent {parent last : String} {points : List String} (reachable : tree.Reachable path)
    (some : path ≠ "") (starts : parent.toList <+: path.toList)
    (side : Path.isAbsolute parent = Path.isAbsolute path)
    (whole : names path = names parent ++ points ++ [last]) :
    tree.origin parent = tree.origin path ∧ tree.Reachable parent := by
  have same : tree.origin parent = tree.origin path := by rw [origin, side, origin]
  refine ⟨same, checkPath_of_starts (reachable.checked some) starts, ?_, ?_, ?_⟩
  · rw [same]
    exact reachable.rooted
  · intro name part
    exact reachable.short name (by rw [whole]; simp [part])
  · rw [same]
    exact reachable.clear.of_starts (by rw [whole, List.append_assoc]; exact List.prefix_append _ _)

/-- A directory that is missing has a last name, which is no point. -/
theorem exists_last (reachable : tree.Reachable path) (some : path ≠ "")
    (spelled : (names path).getLast? = .some "." → tree.isDirectory path = true)
    (missing : ¬ tree.isDirectory path = true) :
    ∃ before last, names path = before ++ [last] ∧ last ≠ "." := by
  rcases List.eq_nil_or_concat (names path) with none | ⟨before, last, whole⟩
  · -- Without names the path leads to where it starts, and that is there.
    refine absurd (Walked.isDirectory ?_ (reachable.checked some)) missing
    exact walked_of_points reachable.rooted (by simp [none])
  · rw [List.concat_eq_append] at whole
    refine ⟨before, last, whole, ?_⟩
    rintro rfl
    exact missing (spelled (by rw [whole, List.getLast?_concat]))

/-- Where all directories in front are walked, the last one is made or is already there. -/
theorem makeOwnDirectory_of_walked {before : List String} {last : String}
    (reachable : tree.Reachable path) (some : path ≠ "")
    (whole : names path = before ++ [last])
    (walked : tree.Walked (tree.origin path) before) :
    ∃ made, tree.makeOwnDirectory path = (.ok (), made) ∧
      made.Walked (tree.origin path) (names path) ∧ Grows (tree.OnWay path) tree made := by
  have checked := reachable.checked some
  have short := reachable.short last (by rw [whole]; simp)
  unfold makeOwnDirectory
  rcases makeDirectory_of_walked checked whole walked short reachable.clear with
    there | ⟨fresh, made⟩
  · rw [makeDirectory_of_isDirectory (there.isDirectory checked)]
    simp only [there.isDirectory checked, ↓reduceIte]
    exact ⟨tree, rfl, there, .same _⟩
  · rw [made]
    exact ⟨_, rfl, reachable.walked_of_made fresh made⟩

/-- Growth on the way to a parent is growth on the way to the path itself. -/
theorem onWay_of_parent {parent : String} {rest : List String}
    (origin : tree.origin parent = tree.origin path) (whole : names path = names parent ++ rest)
    {place : Location} (way : tree.OnWay parent place) : tree.OnWay path place := by
  obtain ⟨first, part, rfl⟩ := way
  refine ⟨first, part.trans ?_, by rw [origin]⟩
  rw [whole]
  exact List.prefix_append _ _

/--
A reachable directory is made with all its parents.

It must not be spelled with a point at its end, unless it is there.
The tree grows by directories on the way only, and the way is walked afterwards.
-/
theorem makeDirectoriesWithin {steps : Nat} (reachable : tree.Reachable path)
    (enough : (names path).length < steps)
    (spelled : (names path).getLast? = some "." → tree.isDirectory path = true) :
    ∃ made, FileTree.makeDirectoriesWithin steps path tree = (.ok (), made) ∧
      made.Walked (tree.origin path) (names path) ∧ Grows (tree.OnWay path) tree made := by
  induction steps generalizing path tree with
  | zero => omega
  | succ steps ih =>
    rw [FileTree.makeDirectoriesWithin]
    split
    · -- A path without a parent stays where it starts.
      rename_i none
      exact ⟨tree, rfl, walked_of_points reachable.rooted (names_of_parentless none), .same _⟩
    rename_i above found
    have some : path ≠ "" := by
      rintro rfl
      have none : Path.parent? "" = .none := by decide +kernel
      cases none.symm.trans found
    have checked := reachable.checked some
    by_cases directory : tree.isDirectory path = true
    · rw [makeDirectory_of_isDirectory directory]
      simp only [directory, ↓reduceIte]
      exact ⟨tree, rfl, reachable.walked directory, .same _⟩
    obtain ⟨before, last, whole, noPoint⟩ := reachable.exists_last some spelled directory
    obtain ⟨parent, points, same, starts, side, rfl, only, ends⟩ := parent?_of_names whole noPoint
    obtain rfl : above = parent := Option.some.inj (found.symm.trans same)
    rcases walked_of_clear reachable.rooted
      (fun name part => reachable.short name (by rw [whole]; exact List.mem_append_left _ part))
      (reachable.clear.of_starts (by rw [whole]; exact List.prefix_append _ _)) with
      walked | missing
    · -- All directories in front are there.
      have short := reachable.short last (by rw [whole]; simp)
      rcases makeDirectory_of_walked checked whole walked short reachable.clear with
        there | ⟨fresh, made⟩
      · exact absurd (there.isDirectory checked) directory
      · rw [made]
        exact ⟨_, rfl, reachable.walked_of_made fresh made⟩
    · -- The parent is made first.
      rw [makeDirectory_of_missing checked whole missing]
      obtain ⟨origin, up⟩ := reachable.parent some starts side whole
      have fewer : (names above).length < steps := by
        rw [whole] at enough
        simp only [List.length_append, List.length_singleton] at enough
        omega
      have settled : (names above).getLast? = .some "." → tree.isDirectory above = true := by
        intro point
        have one := ends point
        refine Walked.isDirectory (walked_of_points up.rooted (by simp [one])) (up.checked ?_)
        rintro rfl
        rw [names_empty] at one
        cases one
      obtain ⟨middle, reached, front, grows⟩ := ih up fewer settled
      rw [origin] at front
      have back := front.append (walked_of_points front.2 only)
      have wider : Grows (tree.OnWay path) tree middle :=
        grows.imp fun _ => onWay_of_parent origin (whole.trans (List.append_assoc _ _ _))
      rw [← wider.origin path] at back
      -- The directory itself is made then, unless it came with its parents.
      obtain ⟨made, done, walked, later⟩ :=
        (reachable.grows wider).makeOwnDirectory_of_walked some whole back
      rw [wider.origin path] at walked
      simp only [reached]
      refine ⟨made, done, walked, wider.trans (later.imp fun place way => ?_)⟩
      obtain ⟨first, part, rfl⟩ := way
      exact ⟨first, part, by rw [wider.origin path]⟩

end Reachable

end FileTree

end SyncStore
