import SyncStore.Files.FileTree

/-! A file that was written is found again by its path, and is read as the text written to it. -/

namespace SyncStore.FileTree

variable {tree : FileTree} {place : Location} {node : FileNode}

/-- A node that was put in its place is found there. -/
theorem nodeAt?_put_self (tree : FileTree) (place : Location) (node : FileNode) :
    (tree.put place node).nodeAt? place = some node := by
  simp [nodeAt?, put]

/-- Leaving out the nodes of another location changes no lookup. -/
theorem lookup_filter_ne {nodes : List (Location × FileNode)} {other : Location}
    (differ : other ≠ place) :
    (nodes.filter (·.1 ≠ place)).lookup other = nodes.lookup other := by
  induction nodes with
  | nil => rfl
  | cons entry rest ih =>
    -- The first entry is left out on one side only, or stands first on both.
    obtain ⟨found, old⟩ := entry
    by_cases left : found = place
    · -- The entry that is left out is not the one looked up.
      have passed : (other == found) = false := by
        rw [left]
        exact beq_eq_false_iff_ne.mpr differ
      rw [List.filter_cons_of_neg (by simpa using left), ih, List.lookup_cons, passed]
    · rw [List.filter_cons_of_pos (by simpa using left), List.lookup_cons, List.lookup_cons, ih]

/-- Putting a node in its place changes no other location. -/
theorem nodeAt?_put_of_ne {other : Location} (differ : other ≠ place) :
    (tree.put place node).nodeAt? other = tree.nodeAt? other := by
  have looked := @lookup_filter_ne place tree.nodes other differ
  simp only [nodeAt?, put, List.lookup_cons, beq_eq_false_iff_ne.mpr differ, looked]

/-- A directory is still one after a node was put at another location. -/
theorem holdsDirectory_put_of_ne {other : Location} (differ : other ≠ place) :
    (tree.put place node).holdsDirectory other = tree.holdsDirectory other := by
  rw [holdsDirectory, nodeAt?_put_of_ne differ, holdsDirectory]

/-- Putting a node in its place mends that place, and no other one. -/
theorem isDamaged_put {other : Location} :
    (tree.put place node).isDamaged other = (tree.isDamaged other && decide (other ≠ place)) := by
  change (tree.damage.locations.filter (· ≠ place)).contains other = _
  rw [Bool.eq_iff_iff]
  simp [isDamaged]

/-- A file that was put in its place can be read there. -/
theorem isDamaged_put_self (tree : FileTree) (place : Location) (node : FileNode) :
    (tree.put place node).isDamaged place = false := by
  simp [isDamaged_put]

/-- Putting a node in its place damages and mends no other location. -/
theorem isDamaged_put_of_ne {other : Location} (differ : other ≠ place) :
    (tree.put place node).isDamaged other = tree.isDamaged other := by
  simp [isDamaged_put, differ]

/-- Where nothing is damaged, putting a node in its place mends nothing. -/
theorem put_with_damage (sound : tree.isDamaged place = false) :
    { tree.put place node with damage := tree.damage } = tree.put place node := by
  have kept : ∀ other ∈ tree.damage.locations, decide (other ≠ place) = true := by
    rintro other damaged
    refine decide_eq_true fun same => ?_
    simp only [isDamaged, List.contains_eq_mem, decide_eq_false_iff_not] at sound
    exact sound (same ▸ damaged)
  rw [put, List.filter_eq_self.mpr kept]

/-- From a directory a segment leads nowhere, up, or down to a node that is there. -/
inductive Leads (tree : FileTree) (location : Location) : String → Location → Prop where
  | stay : Leads tree location "." location
  | up : Leads tree location ".." location.tail
  | down {name : String} (named : name ≠ "." ∧ name ≠ "..")
    (short : name.utf8ByteSize ≤ longestName)
    (there : (tree.nodeAt? (name :: location)).isSome) :
    Leads tree location name (name :: location)

/-- A step succeeds exactly from a directory whose segment leads on. -/
theorem step_eq_ok {location next : Location} {segment : String} :
    tree.step location segment = .ok next ↔
      tree.holdsDirectory location = true ∧ tree.Leads location segment next := by
  constructor
  · intro stepped
    unfold step at stepped
    cases stands : tree.nodeAt? location with
    | none => simp [stands] at stepped
    | some found =>
      cases found with
      | file content mode => simp [stands] at stepped
      | directory mode =>
        refine ⟨by simp [holdsDirectory, stands], ?_⟩
        simp only [stands] at stepped
        -- The segment is a point, two points, or a name that must be short and there.
        split at stepped
        · rename_i point
          obtain rfl := Except.ok.inj stepped
          exact point ▸ .stay
        rename_i noPoint
        split at stepped
        · rename_i points
          obtain rfl := Except.ok.inj stepped
          exact points ▸ .up
        rename_i noPoints
        split at stepped
        · cases stepped
        rename_i short
        split at stepped
        · rename_i there
          obtain rfl := Except.ok.inj stepped
          exact .down ⟨noPoint, noPoints⟩ (Nat.le_of_not_lt short) there
        · cases stepped
  · -- The checks of the step are those of the way that the segment leads.
    rintro ⟨directory, leads⟩
    unfold step
    unfold holdsDirectory at directory
    split at directory
    · rename_i mode stands
      rw [stands]
      cases leads with
      | stay => rfl
      | up => rfl
      | down named short there =>
        simp only [named.1, named.2, Nat.not_lt_of_le short, there, ↓reduceIte]
    · cases directory

/-- No step goes through a location without a directory, so none misses what is put there. -/
theorem step_put (free : tree.holdsDirectory place = false) {location next : Location}
    {segment : String} (stepped : tree.step location segment = .ok next) :
    (tree.put place node).step location segment = .ok next := by
  obtain ⟨directory, leads⟩ := step_eq_ok.mp stepped
  -- The step starts in a directory, which is at another location.
  have differ : location ≠ place := by
    rintro rfl
    rw [directory] at free
    cases free
  refine step_eq_ok.mpr ⟨(holdsDirectory_put_of_ne differ).trans directory, ?_⟩
  cases leads with
  | stay => exact .stay
  | up => exact .up
  | down named short there =>
    refine .down named short ?_
    -- The node that the step leads to is an old one or the one that was put.
    by_cases same : segment :: location = place
    · rw [same, nodeAt?_put_self]
      rfl
    · rwa [nodeAt?_put_of_ne same]

/-- A walk that succeeds goes the same way after a node was put where no directory stands. -/
theorem steps_put (free : tree.holdsDirectory place = false) {segments : List String}
    {location last : Location} (walked : tree.steps location segments = .ok last) :
    (tree.put place node).steps location segments = .ok last := by
  -- Each step of the walk leads to the same location as before, where the next one starts.
  induction segments generalizing location with
  | nil => exact walked
  | cons segment rest ih =>
    rw [steps] at walked ⊢
    cases stepped : tree.step location segment with
    | error fault => simp [stepped] at walked
    | ok next =>
      rw [stepped] at walked
      rw [step_put free stepped]
      exact ih walked

/-- A walk goes on where its first part leads. -/
theorem steps_append {front back : List String} {location middle : Location}
    (walked : tree.steps location front = .ok middle) :
    tree.steps location (front ++ back) = tree.steps middle back := by
  -- The induction is on the first part, wherever it starts.
  induction front generalizing location with
  | nil =>
    obtain rfl : location = middle := Except.ok.inj walked
    rfl
  | cons segment rest ih =>
    rw [List.cons_append]
    rw [steps] at walked ⊢
    cases stepped : tree.step location segment with
    | error fault => simp [stepped] at walked
    | ok next =>
      rw [stepped] at walked
      exact ih walked

/--
A path that can be opened for writing has a name in a directory.

- `walked`, `directory`: the names before the last one lead to a directory
- `named`: the last name stands for itself and is short enough
- `free`: no directory stands at the location
-/
structure OpensAt (tree : FileTree) (path : String) (parent : Location) (before : List String)
    (name : String) : Prop where
  checked : checkPath path = .ok ()
  names : names path = before ++ [name]
  walked : tree.steps (tree.origin path) before = .ok parent
  directory : tree.holdsDirectory parent = true
  named : name ≠ "." ∧ name ≠ ".." ∧ name.utf8ByteSize ≤ longestName
  asksFile : asksDirectory path = false
  free : tree.holdsDirectory (name :: parent) = false

/-- A path whose parent is found has a name behind names that lead to a directory. -/
theorem findParent_eq_ok {path name : String} {parent : Location}
    (found : tree.findParent path = .ok (parent, some name)) :
    ∃ before, checkPath path = .ok () ∧ names path = before ++ [name] ∧
      tree.steps (tree.origin path) before = .ok parent ∧ tree.holdsDirectory parent = true ∧
      name ≠ "." ∧ name ≠ ".." := by
  unfold findParent at found
  cases checked : checkPath path with
  | error fault => simp [checked, Bind.bind, Except.bind] at found
  | ok done =>
    simp only [checked, Bind.bind, Except.bind] at found
    -- The names are split before the last one, from their end.
    split at found
    · simp at found
    rename_i last before split
    have whole : names path = before.reverse ++ [last] := by
      rw [← List.reverse_reverse (names path), split, List.reverse_cons]
    cases walked : tree.steps (tree.origin path) before.reverse with
    | error fault => simp [walked] at found
    | ok reached =>
      simp only [walked] at found
      split at found
      · -- The names in front lead to a directory, and the last one is no way back.
        rename_i mode stands
        have directory : tree.holdsDirectory reached = true := by simp [holdsDirectory, stands]
        simp only [Except.ok.injEq, Prod.mk.injEq] at found
        obtain ⟨rfl, last⟩ := found
        split at last
        · cases last
        rename_i named
        obtain rfl := Option.some.inj last
        simp only [Bool.or_eq_true, decide_eq_true_eq, not_or] at named
        exact ⟨before.reverse, rfl, whole, walked, directory, named⟩
      · cases found
      · cases found

/-- What opens for writing opens at the name that its path ends in. -/
theorem opensAt_of_openForWriting {path : String} {location : Location}
    (opened : tree.openForWriting path = .ok location) :
    ∃ parent before name, location = name :: parent ∧ tree.OpensAt path parent before name := by
  unfold openForWriting at opened
  cases found : tree.findParent path with
  | error fault => simp [found] at opened
  | ok place =>
    obtain ⟨parent, _ | name⟩ := place
    · simp [found] at opened
    simp only [found] at opened
    -- Nothing stood against opening the file in its directory.
    split at opened
    · cases opened
    rename_i asksFile
    split at opened
    · cases opened
    rename_i short
    split at opened
    · cases opened
    rename_i free
    obtain rfl := Except.ok.inj opened
    obtain ⟨before, checked, whole, walked, directory, noPoint, noPoints⟩ := findParent_eq_ok found
    exact ⟨parent, before, name, rfl, checked, whole, walked, directory,
      ⟨noPoint, noPoints, Nat.le_of_not_lt short⟩, by simpa using asksFile, by simpa using free⟩

/-- A path opens where it did after a file was put there. -/
theorem OpensAt.put {path : String} {parent : Location} {before : List String} {name : String}
    (opens : tree.OpensAt path parent before name) (content : Content) (mode : Mode) :
    (tree.put (name :: parent) (.file content mode)).OpensAt path parent before name where
  checked := opens.checked
  names := opens.names
  -- The names in front lead to the parent as they did before, which is another location.
  walked := steps_put opens.free opens.walked
  directory := (holdsDirectory_put_of_ne (List.cons_ne_self name parent).symm).trans opens.directory
  named := opens.named
  asksFile := opens.asksFile
  free := by rw [holdsDirectory, nodeAt?_put_self]

/-- A path leads to the node that stands where it opens. -/
theorem OpensAt.find_of_there {path : String} {parent : Location} {before : List String}
    {name : String} (opens : tree.OpensAt path parent before name)
    (there : (tree.nodeAt? (name :: parent)).isSome) : tree.find path = .ok (name :: parent) := by
  have last := step_eq_ok.mpr
    ⟨opens.directory, .down ⟨opens.named.1, opens.named.2.1⟩ opens.named.2.2 there⟩
  have whole : tree.steps (tree.origin path) (FileTree.names path) = .ok (name :: parent) := by
    rw [opens.names, steps_append opens.walked, steps, last]
    rfl
  unfold find
  simp only [opens.checked, Bind.bind, Except.bind, opens.asksFile, Bool.false_and,
    Bool.false_eq_true, ↓reduceIte]
  rw [whole]

/-- A file that is put where its path opens is found by that path. -/
theorem OpensAt.find_put {path : String} {parent : Location} {before : List String}
    {name : String} (opens : tree.OpensAt path parent before name) (content : Content)
    (mode : Mode) :
    (tree.put (name :: parent) (.file content mode)).find path = .ok (name :: parent) := by
  refine (opens.put content mode).find_of_there ?_
  rw [nodeAt?_put_self]
  rfl

/-- A file is read as the text that was written to it last. -/
theorem read_write {path text : String} {after : FileTree}
    (written : tree.write path text = (.ok (), after)) : after.read path = .ok text := by
  unfold write at written
  cases opened : tree.openForWriting path with
  | error fault => simp [opened] at written
  | ok location =>
    obtain ⟨parent, before, name, rfl, opens⟩ := opensAt_of_openForWriting opened
    simp only [opened, Prod.mk.injEq, true_and] at written
    subst written
    -- The path leads to the file that was put there.
    have found := opens.find_put (.text text) (tree.modeAt (name :: parent))
    simp only [read, found, nodeAt?_put_self, isDamaged_put_self, Bool.false_eq_true, ↓reduceIte]

/-- A damaged file is not read, whatever it should hold. -/
theorem read_of_isDamaged {path : String} {location : Location} {content : Content}
    {mode : Mode} (found : tree.find path = .ok location)
    (stands : tree.nodeAt? location = some (.file content mode))
    (damaged : tree.isDamaged location = true) : tree.read path = .error .damaged := by
  simp only [read, found, stands, damaged, ↓reduceIte]

end SyncStore.FileTree
