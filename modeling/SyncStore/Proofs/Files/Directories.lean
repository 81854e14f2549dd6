import SyncStore.Proofs.Files.FileTree

/-! Directories that were made are there to stay while files are written below them. -/

namespace SyncStore.FileTree

variable {tree after : FileTree} {path : String} {place : Location} {node : FileNode}

/-- A path is found when its names lead to a node, which is a directory if the path asks for one. -/
theorem find_eq_ok {location : Location} :
    tree.find path = .ok location ↔
      checkPath path = .ok () ∧ tree.steps (tree.origin path) (names path) = .ok location ∧
        (asksDirectory path = true → tree.holdsDirectory location = true) := by
  unfold find
  cases checkPath path with
  | error fault => simp [Bind.bind, Except.bind]
  | ok done =>
    cases tree.steps (tree.origin path) (names path) with
    | error fault => simp [Bind.bind, Except.bind]
    | ok reached =>
      simp only [Bind.bind, Except.bind]
      constructor
      · intro found
        -- Only a path that asks for a directory is refused where there is none.
        split at found
        · cases found
        rename_i accepted
        obtain rfl := Except.ok.inj found
        exact ⟨trivial, rfl, fun asks => by simpa [asks] using accepted⟩
      · rintro ⟨-, same, directory⟩
        obtain rfl := Except.ok.inj same
        refine if_neg fun refused => ?_
        rw [Bool.and_eq_true, Bool.not_eq_true'] at refused
        rw [directory refused.1] at refused
        cases refused.2

/-- A path leads to a directory when its names do. -/
theorem isDirectory_iff :
    tree.isDirectory path = true ↔
      checkPath path = .ok () ∧ ∃ location,
        tree.steps (tree.origin path) (names path) = .ok location ∧
          tree.holdsDirectory location = true := by
  unfold isDirectory
  constructor
  · intro directory
    split at directory
    · rename_i location found
      obtain ⟨checked, walked, -⟩ := find_eq_ok.mp found
      exact ⟨checked, location, walked, directory⟩
    · cases directory
  · rintro ⟨checked, location, walked, holds⟩
    rw [find_eq_ok.mpr ⟨checked, walked, fun _ => holds⟩]
    exact holds

/-- A directory stays one when a node is put where no directory stands. -/
theorem isDirectory_put (free : tree.holdsDirectory place = false)
    (directory : tree.isDirectory path = true) :
    (tree.put place node).isDirectory path = true := by
  obtain ⟨checked, location, walked, holds⟩ := isDirectory_iff.mp directory
  have differ : location ≠ place := by
    rintro rfl
    rw [holds] at free
    cases free
  exact isDirectory_iff.mpr ⟨checked, location, steps_put free walked,
    (holdsDirectory_put_of_ne differ).trans holds⟩

/-- A parent is found when the names in front of the last one lead to a directory. -/
theorem findParent_of_walked {before : List String} {name : String} {parent : Location}
    (checked : checkPath path = .ok ()) (whole : names path = before ++ [name])
    (walked : tree.steps (tree.origin path) before = .ok parent)
    (holds : tree.holdsDirectory parent = true) :
    tree.findParent path =
      .ok (parent, if name = "." || name = ".." then none else some name) := by
  have reversed : (names path).reverse = name :: before.reverse := by simp [whole]
  unfold findParent
  simp only [checked, Bind.bind, Except.bind, reversed, List.reverse_reverse, walked]
  unfold holdsDirectory at holds
  split at holds
  · rename_i mode stands
    rw [stands]
  · cases holds

/-- A walk that succeeds passes through the node that its first part leads to. -/
theorem exists_of_steps_append {front back : List String} {location last : Location}
    (walked : tree.steps location (front ++ back) = .ok last) :
    ∃ middle, tree.steps location front = .ok middle ∧ tree.steps middle back = .ok last := by
  induction front generalizing location with
  | nil => exact ⟨location, rfl, walked⟩
  | cons segment rest ih =>
    rw [List.cons_append, steps] at walked
    rw [steps]
    cases stepped : tree.step location segment with
    | error fault => simp [stepped] at walked
    | ok next =>
      rw [stepped] at walked
      exact ih walked

/-- A walk over one segment is a step. -/
theorem steps_singleton {segment : String} {location last : Location} :
    tree.steps location [segment] = .ok last ↔ tree.step location segment = .ok last := by
  rw [steps]
  cases tree.step location segment <;> simp [steps]

/-- What is already a directory is not made again. -/
theorem makeDirectory_of_isDirectory (directory : tree.isDirectory path = true) :
    tree.makeDirectory path = .error .alreadyThere := by
  obtain ⟨checked, location, walked, holds⟩ := isDirectory_iff.mp directory
  unfold makeDirectory
  rcases List.eq_nil_or_concat (names path) with nameless | ⟨before, name, whole⟩
  · -- The path leads to where it starts.
    have found : tree.findParent path = .ok ([], none) := by
      simp [findParent, checked, Bind.bind, Except.bind, nameless]
    rw [found]
  · rw [List.concat_eq_append] at whole
    -- The walk passes through the parent and ends with the last name.
    rw [whole] at walked
    obtain ⟨parent, front, last⟩ := exists_of_steps_append walked
    obtain ⟨inside, leads⟩ := step_eq_ok.mp (steps_singleton.mp last)
    rw [findParent_of_walked checked whole front inside]
    cases leads with
    | stay => rfl
    | up => rfl
    | down named short there =>
      simp only [named.1, named.2, decide_false, Bool.or_self, Bool.false_eq_true, ↓reduceIte,
        Nat.not_lt_of_le short, there]

/-- A directory that was made is there. -/
theorem isDirectory_of_makeDirectory (made : tree.makeDirectory path = .ok after) :
    after.isDirectory path = true := by
  unfold makeDirectory at made
  split at made
  · cases made
  · cases made
  rename_i parent name found
  split at made
  · cases made
  rename_i short
  split at made
  · cases made
  rename_i fresh
  obtain rfl := Except.ok.inj made
  obtain ⟨before, checked, whole, walked, inside, noPoint, noPoints⟩ := findParent_eq_ok found
  -- Nothing stood in the new place, so the way to the parent is still the same.
  have free : tree.holdsDirectory (name :: parent) = false := by
    rw [holdsDirectory, Option.not_isSome_iff_eq_none.mp fresh]
  have differ : parent ≠ name :: parent := (List.cons_ne_self name parent).symm
  have front := @steps_put tree _ (.directory directoryMode) free _ _ _ walked
  have still :
      (tree.put (name :: parent) (.directory directoryMode)).holdsDirectory parent = true :=
    (holdsDirectory_put_of_ne differ).trans inside
  have last := step_eq_ok.mpr
    ⟨still, .down ⟨noPoint, noPoints⟩ (Nat.le_of_not_lt short) (by rw [nodeAt?_put_self]; rfl)⟩
  refine isDirectory_iff.mpr ⟨checked, name :: parent, ?_, ?_⟩
  · rw [whole, show (tree.put _ _).origin path = tree.origin path from rfl, steps_append front]
    exact steps_singleton.mpr last
  · rw [holdsDirectory, nodeAt?_put_self]

/-- A directory is settled when making it with all its parents changes nothing. -/
def IsSettled (tree : FileTree) (path : String) : Prop :=
  Path.parent? path = none ∨ tree.isDirectory path = true

/-- A directory that was made, or was there before, is settled. -/
theorem isSettled_of_makeOwnDirectory (made : tree.makeOwnDirectory path = (.ok (), after)) :
    after.IsSettled path := by
  unfold makeOwnDirectory at made
  split at made
  · rename_i reached directory
    obtain ⟨-, rfl⟩ := Prod.mk.inj made
    exact .inr (isDirectory_of_makeDirectory directory)
  · obtain ⟨there, rfl⟩ := Prod.mk.inj made
    split at there
    · rename_i directory
      exact .inr directory
    · cases there

/-- A directory that was made with all its parents is settled. -/
theorem isSettled_of_makeDirectories (made : tree.makeDirectories path = (.ok (), after)) :
    after.IsSettled path := by
  unfold makeDirectories at made
  rw [makeDirectoriesWithin] at made
  split at made
  · rename_i none
    exact .inl none
  split at made
  · rename_i reached directory
    obtain ⟨-, rfl⟩ := Prod.mk.inj made
    exact .inr (isDirectory_of_makeDirectory directory)
  · -- The parents were made first, and then the directory itself.
    split at made
    · cases made
    · exact isSettled_of_makeOwnDirectory made
  · obtain ⟨there, rfl⟩ := Prod.mk.inj made
    split at there
    · rename_i directory
      exact .inr directory
    · cases there

/-- A settled directory is made without a change. -/
theorem IsSettled.makeDirectories (settled : tree.IsSettled path) :
    tree.makeDirectories path = (.ok (), tree) := by
  unfold FileTree.makeDirectories
  rw [makeDirectoriesWithin]
  split
  · rfl
  rename_i parent below
  have directory : tree.isDirectory path = true :=
    settled.resolve_left fun none => by rw [none] at below; cases below
  rw [makeDirectory_of_isDirectory directory]
  simp only [directory, ↓reduceIte]

/-- A settled directory stays settled when a node is put where no directory stands. -/
theorem IsSettled.put (settled : tree.IsSettled path)
    (free : tree.holdsDirectory place = false) : (tree.put place node).IsSettled path :=
  settled.imp_right (isDirectory_put free)

/-- What opens at a name is opened for writing there. -/
theorem OpensAt.openForWriting {parent : Location} {before : List String} {name : String}
    (opens : tree.OpensAt path parent before name) :
    tree.openForWriting path = .ok (name :: parent) := by
  unfold FileTree.openForWriting
  rw [findParent_of_walked opens.checked opens.names opens.walked opens.directory]
  simp only [opens.named.1, opens.named.2.1, decide_false, Bool.or_self, Bool.false_eq_true,
    ↓reduceIte, opens.asksFile, Nat.not_lt_of_le opens.named.2.2, opens.free]

/-- A path that opens at a name leads nowhere else. -/
theorem OpensAt.eq_of_find {parent location : Location} {before : List String} {name : String}
    (opens : tree.OpensAt path parent before name) (found : tree.find path = .ok location) :
    location = name :: parent := by
  obtain ⟨-, walked, -⟩ := find_eq_ok.mp found
  rw [opens.names, steps_append opens.walked] at walked
  -- The last name leads down, because it is neither a point nor two points.
  cases (step_eq_ok.mp (steps_singleton.mp walked)).2 with
  | stay => exact absurd rfl opens.named.1
  | up => exact absurd rfl opens.named.2.1
  | down => rfl

/-- A file is read when its path leads to it and it is not damaged. -/
theorem read_eq_ok {text : String} :
    tree.read path = .ok text ↔ ∃ location mode, tree.find path = .ok location ∧
      tree.nodeAt? location = some (.file (.text text) mode) ∧
        tree.isDamaged location = false := by
  unfold read
  cases tree.find path with
  | error fault => simp
  | ok location =>
    cases damaged : tree.isDamaged location <;>
      rcases stands : tree.nodeAt? location with _ | ⟨_ | _, mode⟩ | mode <;>
        simp [stands, damaged]

/-- What is read stays so when a node is put where nothing stood. -/
theorem read_put_fresh (fresh : tree.nodeAt? place = none) {text : String}
    (held : tree.read path = .ok text) : (tree.put place node).read path = .ok text := by
  obtain ⟨location, mode, found, stands, sound⟩ := read_eq_ok.mp held
  obtain ⟨checked, walked, directory⟩ := find_eq_ok.mp found
  have free : tree.holdsDirectory place = false := by rw [holdsDirectory, fresh]
  have differ : location ≠ place := by
    rintro rfl
    rw [stands] at fresh
    cases fresh
  have again : (tree.put place node).find path = .ok location :=
    find_eq_ok.mpr ⟨checked, steps_put free walked, fun asks =>
      (holdsDirectory_put_of_ne differ).trans (directory asks)⟩
  exact read_eq_ok.mpr ⟨location, mode, again, (nodeAt?_put_of_ne differ).trans stands,
    (isDamaged_put_of_ne differ).trans sound⟩

/-- A directory is made where nothing stood. -/
theorem makeDirectory_fresh (made : tree.makeDirectory path = .ok after) :
    ∃ place, tree.nodeAt? place = none ∧ after = tree.put place (.directory directoryMode) := by
  unfold makeDirectory at made
  split at made
  · cases made
  · cases made
  split at made
  · cases made
  split at made
  · cases made
  rename_i fresh
  exact ⟨_, Option.not_isSome_iff_eq_none.mp fresh, (Except.ok.inj made).symm⟩

/-- What new directories keep is kept when a directory and its parents are made. -/
theorem makeDirectories_keeps {holds : FileTree → Prop}
    (keeps : ∀ tree place, tree.nodeAt? place = none → holds tree →
      holds (tree.put place (.directory directoryMode)))
    (before : holds tree) (path : String) : holds (tree.makeDirectories path).2 := by
  have one : ∀ tree path after, holds tree → tree.makeDirectory path = .ok after → holds after := by
    intro tree path after before made
    obtain ⟨place, fresh, rfl⟩ := makeDirectory_fresh made
    exact keeps tree place fresh before
  -- The induction is on the steps, of which each one goes up to a parent.
  have all : ∀ steps path tree, holds tree → holds (makeDirectoriesWithin steps path tree).2 := by
    intro steps
    induction steps with
    | zero => exact fun _ _ before => before
    | succ steps ih =>
      intro path tree before
      rw [makeDirectoriesWithin]
      split
      · exact before
      rename_i parent _
      split
      · rename_i made
        exact one _ _ _ before made
      · have above := ih parent tree before
        split
        · rename_i failed
          rwa [failed] at above
        · rename_i reached
          rw [reached] at above
          unfold makeOwnDirectory
          split
          · rename_i made
            exact one _ _ _ above made
          · exact above
      · exact before
  exact all _ path tree before

section Opened

variable {parent : Location} {before : List String} {name text : String}
  (opens : tree.OpensAt path parent before name)
include opens

/-- A text that is read stands where its path opens. -/
theorem OpensAt.nodeAt?_of_read (held : tree.read path = .ok text) :
    ∃ mode, tree.nodeAt? (name :: parent) = some (.file (.text text) mode) ∧
      tree.isDamaged (name :: parent) = false := by
  obtain ⟨location, mode, found, stands, sound⟩ := read_eq_ok.mp held
  obtain rfl := opens.eq_of_find found
  exact ⟨mode, stands, sound⟩

/-- Nothing stands where a missing file opens. -/
theorem OpensAt.nodeAt?_of_missing (missing : tree.read path = .error .missing) :
    tree.nodeAt? (name :: parent) = none := by
  cases stands : tree.nodeAt? (name :: parent) with
  | none => rfl
  | some node =>
    -- Any node would be found, and what is wrong with it is another fault.
    have found := opens.find_of_there (by rw [stands]; rfl)
    cases damaged : tree.isDamaged (name :: parent) <;>
      rcases node with ⟨_ | _, mode⟩ | mode <;> simp [read, found, stands, damaged] at missing

/-- A text that is put where its path opens is read. -/
theorem OpensAt.read_put (text : String) (mode : Mode) :
    (tree.put (name :: parent) (.file (.text text) mode)).read path = .ok text :=
  read_eq_ok.mpr
    ⟨_, mode, opens.find_put _ _, nodeAt?_put_self _ _ _, isDamaged_put_self _ _ _⟩

/-- A file that is there is touched without a change. -/
theorem OpensAt.touch_of_read (held : tree.read path = .ok text) :
    tree.touch path = (.ok (), tree) := by
  obtain ⟨mode, stands, -⟩ := opens.nodeAt?_of_read held
  simp only [touch, opens.openForWriting, stands]

/-- A missing file is touched into an empty one. -/
theorem OpensAt.touch_of_missing (missing : tree.read path = .error .missing) :
    tree.touch path = (.ok (), tree.put (name :: parent) (.file (.text "") fileMode)) := by
  simp only [touch, opens.openForWriting, opens.nodeAt?_of_missing missing]

/-- The permissions of a file are set beside its text. -/
theorem OpensAt.setMode_of_read (held : tree.read path = .ok text) (mode : Mode) :
    tree.setMode path mode =
      (.ok (), tree.put (name :: parent) (.file (.text text) (mode % 0o10000))) := by
  obtain ⟨old, stands, sound⟩ := opens.nodeAt?_of_read held
  have found := opens.find_of_there (by rw [stands]; rfl)
  simp only [setMode, found, stands]
  rw [put_with_damage sound]

end Opened

end SyncStore.FileTree
