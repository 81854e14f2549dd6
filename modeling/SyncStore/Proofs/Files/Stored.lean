import SyncStore.Proofs.Files.Kept

/-! A file stores a map up to the order of its keys, until it is written again. -/

namespace SyncStore

/-- A file without any text holds empty data. -/
theorem BackendKind.read_nothing {kind : BackendKind} {format : FileFormat}
    (keeps : kind.format? = some format) : format.read "" = .ok [] := by
  cases kind with
  | redis => cases keeps
  | _ =>
    obtain rfl := Option.some.inj keeps
    cbv

namespace FileDestination

variable {kind : BackendKind} {file : FileDestination} {tree : FileTree} {map data : Data}

/-- A file is missing when its path leads nowhere, and still does once its directory is made. -/
structure IsMissing (file : FileDestination) (tree : FileTree) : Prop where
  now : tree.read file.path = .error .missing
  later : ∀ made, tree.makeDirectories file.directory = (.ok (), made) →
    made.read file.path = .error .missing

/-- A file is read as data when its text is. -/
def Reads (file : FileDestination) (data : Data) (tree : FileTree) : Prop :=
  ∃ text, tree.read file.path = .ok text ∧ file.format.read text = .ok data

/--
A file stores a map.

- `makes`: the system lets the file be made
- `distinct`: the map repeats no key at any depth
- `found`: the file is read as the map in some order, or is missing and the map is empty
-/
structure Stores (file : FileDestination) (map : Data) (tree : FileTree) : Prop where
  makes : file.CanBeMade tree
  distinct : (Value.object map).Throughout Value.DistinctKeys
  found : file.IsMissing tree ∧ map = [] ∨
    ∃ data, file.Reads data tree ∧ (Value.object data).Reordered (.object map)

/-- A file is missing when its directory is there without it. -/
theorem IsMissing.of_settled (settled : tree.IsSettled file.directory)
    (now : tree.read file.path = .error .missing) : file.IsMissing tree where
  now := now
  later made directory := by
    rw [settled.makeDirectories] at directory
    obtain rfl := (Prod.mk.inj directory).2
    exact now

/-- A file that holds data is read without a change. -/
theorem readAll_of_reads (reads : file.Reads data tree) : file.readAll tree = (.ok data, tree) := by
  obtain ⟨text, held, read⟩ := reads
  rw [readAll_of_text held, read, mapError_ok]

/-- A file that stores a map is read as the map in some order, and is there afterwards. -/
theorem Stores.readAll (keeps : kind.format? = some file.format) (stores : file.Stores map tree) :
    ∃ data after, file.readAll tree = (.ok data, after) ∧ file.CanBeMade after ∧
      file.Reads data after ∧ (Value.object data).Reordered (.object map) := by
  rcases stores.found with ⟨missing, rfl⟩ | ⟨data, reads, order⟩
  · -- The missing file is made for empty data, which has a text.
    rcases writeAll_cases stores.makes [] with ⟨after, written, -, makes⟩ | ⟨error, failed, -⟩
    · have read : file.readAll tree = (.ok [], after) := by
        rw [readAll_of_missing missing.now, written]
        rfl
      exact ⟨[], after, read, makes, read_readAll keeps read, .same _⟩
    · obtain ⟨text, printed, -⟩ := BackendKind.empty_round_trip keeps
      cases failed.symm.trans printed
  · exact ⟨data, tree, readAll_of_reads reads, stores.makes, reads, order⟩

/-- A map in another order is stored as well. -/
theorem Stores.reordered (stores : file.Stores map tree) {other : Data}
    (order : (Value.object map).Reordered (.object other)) : file.Stores other tree where
  makes := stores.makes
  distinct := order.symm.throughout Value.Reordered.distinctKeys stores.distinct
  found := by
    rcases stores.found with ⟨missing, rfl⟩ | ⟨data, reads, same⟩
    · -- Nothing but the empty map is an order of it.
      obtain ⟨others, middle, equal, perm, parts⟩ := order.symm.of_object
      obtain rfl := Value.object.inj equal
      cases parts
      exact .inl ⟨missing, List.perm_nil.mp perm⟩
    · exact .inr ⟨data, reads, same.trans order⟩

/-- The map of a file is followed by the reader that it came from. -/
theorem Stores.follows (keeps : kind.format? = some file.format) (stores : file.Stores map tree) :
    kind.Follows map := by
  obtain ⟨data, after, -, -, ⟨text, -, read⟩, order⟩ := stores.readAll keeps
  exact (BackendKind.follows_of_read keeps read).of_reordered order.symm

/-- The map of a file is taken by its backend, and all of it is kept. -/
theorem Stores.settled (keeps : kind.format? = some file.format) (stores : file.Stores map tree) :
    kind.takes map = true ∧ (Value.object (kind.kept map)).Reordered (.object map) := by
  -- What is read from a text has nothing that its format would leave out.
  obtain ⟨data, after, -, -, ⟨text, -, read⟩, order⟩ := stores.readAll keeps
  have kept := kind.kept_of_reordered order.symm
  rw [BackendKind.kept_of_read keeps read] at kept
  exact ⟨(kind.takes_of_reordered order).symm.trans (BackendKind.takes_of_read keeps read),
    kept.trans order⟩

/--
A file that can be made is written with some order of a changed map, if that is taken.

The file then stores what is kept of the map, as long as its format prints the written data back.
Data that is not taken changes nothing.
-/
theorem writeAll_stores (keeps : kind.format? = some file.format) (makes : file.CanBeMade tree)
    {changed : Data} (order : (Value.object data).Reordered (.object changed))
    (distinct : (Value.object changed).Throughout Value.DistinctKeys) :
    (kind.takes changed = true ∧ ∃ after, file.writeAll data tree = (.ok (), after) ∧
        (kind.PrintsBack data → file.Stores (kind.kept changed) after)) ∨
      kind.takes changed = false ∧ ∃ error, file.writeAll data tree = (.error error, tree) := by
  -- Which data is taken, and what is kept of it, is the same for every order.
  rw [← kind.takes_of_reordered order]
  rcases kind.write_cases keeps data with ⟨taken, text, printed⟩ | ⟨refused, error, failed⟩
  · obtain ⟨after, written⟩ := writeAll_of_canBeMade printed makes
    refine .inl ⟨taken, after, written, fun back => ?_⟩
    -- The file holds the text, and that is read as what is kept in some order.
    obtain ⟨same, again, held⟩ := read_writeAll written
    obtain rfl : text = same := Except.ok.inj (printed.symm.trans again)
    obtain ⟨found, read, kept⟩ := BackendKind.read_written keeps printed back
    exact ⟨canBeMade_of_writeAll written, kind.distinct_kept distinct,
      .inr ⟨found, ⟨text, held, read⟩, kept.trans (kind.kept_of_reordered order)⟩⟩
  · exact .inr ⟨refused, _, writeAll_of_unwritable failed⟩

/-- A file that opens stores what its text is read as, whatever its permissions are set to. -/
theorem setPermissions_stores {parent : Location} {before : List String} {name text : String}
    (settled : tree.IsSettled file.directory) (opens : tree.OpensAt file.path parent before name)
    (held : tree.read file.path = .ok text) (read : file.format.read text = .ok data)
    (distinct : (Value.object map).Throughout Value.DistinctKeys)
    (order : (Value.object data).Reordered (.object map)) (mode : Mode) :
    ∃ after, file.setPermissions mode none tree = (.ok (), after) ∧ file.Stores map after := by
  -- Only the mode of the file changes, so its text is still there.
  have set := opens.setMode_of_read held mode
  refine ⟨_, attempt_eq_ok.mpr set, canBeMade_of_opensAt (settled.put opens.free) (opens.put _ _),
    distinct, .inr ⟨data, ⟨text, opens.read_put _ _, read⟩, order⟩⟩

/-- A file is made when it is not there, and it stores the same map with other permissions. -/
theorem Stores.harden (keeps : kind.format? = some file.format) (stores : file.Stores map tree)
    (mode : Mode) :
    ∃ after, file.harden mode tree = (.ok (), after) ∧ file.Stores map after := by
  obtain ⟨made, location, directory, opened⟩ := stores.makes
  obtain ⟨parent, before, name, rfl, opens⟩ := FileTree.opensAt_of_openForWriting opened
  have settled := FileTree.isSettled_of_makeDirectories directory
  -- The directory is made first, and then the file itself.
  have ensured : ∀ touched, made.touch file.path = (.ok (), touched) →
      file.harden mode tree = file.setPermissions mode none touched := by
    intro touched done
    have reached : file.ensureFile tree = (.ok (), touched) := by
      rw [ensureFile, attempt_eq_ok.mpr directory]
      exact attempt_eq_ok.mpr done
    rw [FileDestination.harden, reached]
  rcases stores.found with ⟨missing, rfl⟩ | ⟨data, ⟨text, held, read⟩, order⟩
  · -- The file is made without any text.
    rw [ensured _ (opens.touch_of_missing (missing.later made directory))]
    exact setPermissions_stores (settled.put opens.free) (opens.put _ _) (opens.read_put _ _)
      (BackendKind.read_nothing keeps) stores.distinct (.same _) mode
  · -- The file is still there once its directory is made.
    have kept := @FileTree.makeDirectories_keeps tree (·.read file.path = .ok text)
      (fun tree place fresh before => FileTree.read_put_fresh fresh before) held file.directory
    rw [directory] at kept
    rw [ensured _ (opens.touch_of_read kept)]
    exact setPermissions_stores settled opens kept read stores.distinct order mode

end FileDestination

end SyncStore
