import SyncStore.Proofs.Files.FileFormat
import SyncStore.Proofs.Files.FileTree
import SyncStore.Proofs.Files.Twins
import SyncStore.Proofs.Store.Writing

/-! A file datastore starts with what its file holds, and leaves there what it wrote last. -/

namespace SyncStore

namespace FileDestination

variable {file : FileDestination} {tree : FileTree}

/-- A file can be made when its directory can, and the file then opens for writing there. -/
def CanBeMade (file : FileDestination) (tree : FileTree) : Prop :=
  ∃ made location, tree.makeDirectories file.directory = (.ok (), made) ∧
    made.openForWriting file.path = .ok location

/-- An attempt succeeds when the system does. -/
theorem attempt_eq_ok {action : Action} {path : String}
    {outcome : Except FileFault Unit × FileTree} {after : FileTree} :
    attempt action path outcome = (.ok (), after) ↔ outcome = (.ok (), after) := by
  -- A fault is only told in other words.
  obtain ⟨answer, reached⟩ := outcome
  simp [attempt, mapError_eq_ok]

/-- Data is written when it has a text, the directory can be made, and the text can be written. -/
theorem writeAll_eq_ok {data : Data} {after : FileTree} :
    file.writeAll data tree = (.ok (), after) ↔
      ∃ text made, file.format.write data = .ok text ∧
        tree.makeDirectories file.directory = (.ok (), made) ∧
        made.write file.path text = (.ok (), after) := by
  constructor
  · intro written
    unfold writeAll at written
    -- Each of the three steps must have succeeded for the next one to be made.
    split at written
    · simp at written
    rename_i text printed
    split at written
    · simp at written
    rename_i made directory
    exact ⟨text, made, printed, attempt_eq_ok.mp directory, attempt_eq_ok.mp written⟩
  · rintro ⟨text, made, printed, directory, written⟩
    rw [writeAll, printed]
    simp only [attempt_eq_ok.mpr directory]
    exact attempt_eq_ok.mpr written

/-- Data with a text is written to a file that can be made. -/
theorem writeAll_of_canBeMade {data : Data} {text : String}
    (printed : file.format.write data = .ok text) (makes : file.CanBeMade tree) :
    ∃ after, file.writeAll data tree = (.ok (), after) := by
  obtain ⟨made, location, directory, opened⟩ := makes
  -- The file opens in the tree with the directory, and takes the text there.
  have written : made.write file.path text =
      (.ok (), made.put location (.file (.text text) (made.modeAt location))) := by
    rw [FileTree.write, opened]
  exact ⟨_, writeAll_eq_ok.mpr ⟨text, made, printed, directory, written⟩⟩

/-- A file is read as the text of the data that was written to it. -/
theorem read_writeAll {data : Data} {after : FileTree}
    (written : file.writeAll data tree = (.ok (), after)) :
    ∃ text, file.format.write data = .ok text ∧ after.read file.path = .ok text := by
  -- Nothing is done after the text was written.
  obtain ⟨text, made, printed, -, written⟩ := writeAll_eq_ok.mp written
  exact ⟨text, printed, FileTree.read_write written⟩

/-- The data of a file is what its text is read as, and reading changes nothing. -/
theorem readAll_of_text {text : String} (found : tree.read file.path = .ok text) :
    file.readAll tree = ((file.format.read text).mapError (·.inFile file.path), tree) := by
  rw [readAll, found]

/-- A file that cannot be read fails as the system says, unless it is missing. -/
theorem readAll_of_fault {fault : FileFault} (found : tree.read file.path = .error fault)
    (there : fault ≠ .missing) :
    file.readAll tree = (.error (failed .readFile file.path fault), tree) := by
  rw [readAll, found]
  cases fault with
  -- A missing file would have been made.
  | missing => exact absurd rfl there
  | _ => rfl

/-- A missing file is written with empty data before it is read as that. -/
theorem readAll_of_missing (found : tree.read file.path = .error .missing) :
    file.readAll tree =
      ((file.writeAll [] tree).1.map fun _ => [], (file.writeAll [] tree).2) := by
  unfold readAll
  simp only [found]
  rcases file.writeAll [] tree with ⟨error | done, after⟩ <;> rfl

/-- Data that was read is what the file holds afterwards. -/
theorem read_readAll {kind : BackendKind} (keeps : kind.format? = some file.format) {data : Data}
    {after : FileTree} (read : file.readAll tree = (.ok data, after)) :
    ∃ text, after.read file.path = .ok text ∧ file.format.read text = .ok data := by
  cases found : tree.read file.path with
  | ok text =>
    -- The file is as it was.
    rw [readAll_of_text found, Prod.mk.injEq, mapError_eq_ok] at read
    obtain ⟨read, rfl⟩ := read
    exact ⟨text, found, read⟩
  | error fault =>
    by_cases missing : fault = .missing
    · -- The file was made for empty data, and that is what was answered.
      rw [missing] at found
      rw [readAll_of_missing found] at read
      obtain ⟨answered, rfl⟩ := Prod.mk.inj read
      obtain ⟨done, written, rfl⟩ := map_eq_ok.mp answered
      obtain ⟨text, printed, held⟩ := read_writeAll (Prod.ext written rfl)
      obtain ⟨same, empty, read⟩ := BackendKind.empty_round_trip keeps
      obtain rfl : same = text := Except.ok.inj (empty.symm.trans printed)
      exact ⟨same, held, read⟩
    · -- Any other fault is told, and no data is answered.
      rw [readAll_of_fault found missing] at read
      simp at read

end FileDestination

namespace Config

variable {config : Config} {outside : Outside} {file : FileDestination}

/-- The datastore of a configuration over a file whose data is in memory. -/
def loaded (config : Config) (data : Data) (tree : FileTree) : Datastore (SyncedStore FileTree) :=
  ⟨config.version, ⟨data, tree, config.writeOnUpdate, true⟩⟩

/-- A valid configuration of a file opens a datastore with what is read from the file. -/
theorem openDatastore_eq (valid : config.validate = .ok ())
    (resolved : config.file? outside.home = some file) :
    config.openDatastore outside =
      match file.readAll outside.tree with
      | (.ok data, tree) => (.ok (.file file (config.loaded data tree)), tree)
      | (.error error, tree) => (.error (.store error), tree) := by
  -- The new store is restricted to whole reads, and the first of them fills it.
  rw [openDatastore, valid, resolved]
  simp only [openFile, SyncedStore.readData_eq, newFileDatastore,
    FileDestination.destination_readAll]
  simp only [SyncedStore.new]
  rcases file.readAll outside.tree with ⟨error | data, tree⟩ <;> rfl

/-- The file of a configuration has the format of its backend. -/
theorem format_of_file? {home : Option String} (resolved : config.file? home = some file) :
    config.backend.format? = some file.format := by
  obtain ⟨format, keeps, rfl⟩ := Option.map_eq_some_iff.mp resolved
  exact keeps

/-- A datastore that was opened holds the data that its file holds. -/
theorem opened_eq (valid : config.validate = .ok ())
    (resolved : config.file? outside.home = some file)
    {opened : Datastore (SyncedStore FileTree)} {tree : FileTree}
    (opens : config.openDatastore outside = (.ok (.file file opened), tree)) :
    ∃ text data, opened = config.loaded data tree ∧ tree.read file.path = .ok text ∧
      file.format.read text = .ok data := by
  rw [openDatastore_eq valid resolved] at opens
  -- It was opened because the file was read.
  split at opens
  · rename_i data reached read
    obtain ⟨⟨⟩, ⟨⟩⟩ := Prod.mk.inj opens
    obtain ⟨text, held, found⟩ := FileDestination.read_readAll (format_of_file? resolved) read
    exact ⟨text, data, rfl, held, found⟩
  · cases opens

/-- A file that holds data opens a datastore with it, and stays as it is. -/
theorem openDatastore_of_read (valid : config.validate = .ok ())
    (resolved : config.file? outside.home = some file) {text : String} {data : Data}
    (held : outside.tree.read file.path = .ok text) (read : file.format.read text = .ok data) :
    config.openDatastore outside =
      (.ok (.file file (config.loaded data outside.tree)), outside.tree) := by
  rw [openDatastore_eq valid resolved, FileDestination.readAll_of_text held, read]
  rfl

/-- A file whose text is refused opens no datastore, and stays as it is. -/
theorem openDatastore_of_error (valid : config.validate = .ok ())
    (resolved : config.file? outside.home = some file) {text : String} {error : StoreError}
    (held : outside.tree.read file.path = .ok text)
    (refused : file.format.read text = .error error) :
    config.openDatastore outside = (.error (.store (error.inFile file.path)), outside.tree) := by
  rw [openDatastore_eq valid resolved, FileDestination.readAll_of_text held, refused]
  rfl

/-- A file that cannot be read opens no datastore and stays as it is, unless it is missing. -/
theorem openDatastore_of_fault (valid : config.validate = .ok ())
    (resolved : config.file? outside.home = some file) {fault : FileFault}
    (found : outside.tree.read file.path = .error fault) (there : fault ≠ .missing) :
    config.openDatastore outside =
      (.error (.store (FileDestination.failed .readFile file.path fault)), outside.tree) := by
  rw [openDatastore_eq valid resolved, FileDestination.readAll_of_fault found there]

/-- A file that is there but damaged opens no datastore, whatever it should hold. -/
theorem openDatastore_of_isDamaged (valid : config.validate = .ok ())
    (resolved : config.file? outside.home = some file) {location : Location} {content : Content}
    {mode : Mode} (found : outside.tree.find file.path = .ok location)
    (stands : outside.tree.nodeAt? location = some (.file content mode))
    (damaged : outside.tree.isDamaged location = true) :
    config.openDatastore outside =
      (.error (.store (FileDestination.failed .readFile file.path .damaged)), outside.tree) :=
  openDatastore_of_fault valid resolved (FileTree.read_of_isDamaged found stands damaged) nofun

/-- Data that was written to a file opens again with what the file keeps of it, in some order. -/
theorem openDatastore_of_written (valid : config.validate = .ok ())
    (resolved : config.file? outside.home = some file) {data : Data} {before : FileTree}
    (written : file.writeAll data before = (.ok (), outside.tree))
    (back : config.backend.PrintsBack data) :
    ∃ again, config.openDatastore outside =
        (.ok (.file file (config.loaded again outside.tree)), outside.tree) ∧
      (Value.object again).Reordered (.object (config.backend.kept data)) := by
  -- The file holds the text of the data, and that text is read again.
  obtain ⟨text, printed, held⟩ := FileDestination.read_writeAll written
  obtain ⟨again, read, same⟩ :=
    BackendKind.read_written (format_of_file? resolved) printed back
  exact ⟨again, openDatastore_of_read valid resolved held read, same⟩

/--
Opening a file datastore never loses what its file held.

A file is missing when its path leads nowhere; it is made for empty data. A file with data is read
and left as it is, and any other file is refused and left as it is. After writes that all succeed
the file opens again with its first data changed by all of them, up to the order of members and the
null members that TOML leaves out.
-/
theorem opening_keeps_file (valid : config.validate = .ok ())
    (resolved : config.file? outside.home = some file) :
    (outside.tree.read file.path = .error .missing → file.CanBeMade outside.tree →
      ∃ tree text, tree.read file.path = .ok text ∧ file.format.read text = .ok [] ∧
        config.openDatastore outside = (.ok (.file file (config.loaded [] tree)), tree)) ∧
    (∀ text data, outside.tree.read file.path = .ok text → file.format.read text = .ok data →
      config.openDatastore outside =
        (.ok (.file file (config.loaded data outside.tree)), outside.tree)) ∧
    (∀ fault, outside.tree.read file.path = .error fault → fault ≠ .missing →
      config.openDatastore outside =
        (.error (.store (FileDestination.failed .readFile file.path fault)), outside.tree)) ∧
    (∀ text, outside.tree.read file.path = .ok text → config.backend.Refuses text →
      ∃ error, file.format.read text = .error error ∧
        config.openDatastore outside =
          (.error (.store (error.inFile file.path)), outside.tree)) ∧
    ∀ opened tree requests last,
      config.openDatastore outside = (.ok (.file file opened), tree) →
      Datastore.Writes file.destination opened requests last →
      (requests ≠ [] → config.backend.PrintsBack last.state.cache) →
      ∃ data,
        config.openDatastore { outside with tree := last.state.outside } =
          (.ok (.file file (config.loaded data last.state.outside)), last.state.outside) ∧
        (Value.object data).Reordered
          (.object (config.backend.kept (Request.appliedAll requests opened.state.cache))) := by
  have keeps := format_of_file? resolved
  refine ⟨fun missing makes => ?_, fun text data held read => ?_, fun fault found there => ?_,
    fun text held refused => ?_, fun opened tree requests last opens run back => ?_⟩
  · -- Empty data has a text, which is written to the file and read from it.
    obtain ⟨text, printed, read⟩ := BackendKind.empty_round_trip keeps
    obtain ⟨tree, written⟩ := FileDestination.writeAll_of_canBeMade printed makes
    obtain ⟨same, again, held⟩ := FileDestination.read_writeAll written
    obtain rfl : text = same := Except.ok.inj (printed.symm.trans again)
    refine ⟨tree, text, held, read, ?_⟩
    rw [openDatastore_eq valid resolved, FileDestination.readAll_of_missing missing, written]
    rfl
  · exact openDatastore_of_read valid resolved held read
  · exact openDatastore_of_fault valid resolved found there
  · -- Refused text is read with some error, which is told with the path.
    obtain ⟨error, failed⟩ := (BackendKind.read_eq_error keeps).mpr refused
    exact ⟨error, failed, openDatastore_of_error valid resolved held failed⟩
  · obtain ⟨text, data, rfl, held, read⟩ := opened_eq valid resolved opens
    have resolved : config.file? { outside with tree := last.state.outside }.home = some file :=
      resolved
    by_cases unwritten : requests = []
    · -- Nothing was written, so the file still holds what was read from it.
      subst unwritten
      cases run
      refine ⟨data, openDatastore_of_read valid resolved held read, ?_⟩
      change (Value.object data).Reordered (.object (config.backend.kept data))
      rw [BackendKind.kept_of_read keeps read]
      exact .same _
    · -- The last write brought the changed data to the file.
      obtain ⟨side, before, written⟩ := run.written_last rfl unwritten
      rw [FileDestination.destination_writeAll] at written
      obtain ⟨again, opens, same⟩ :=
        openDatastore_of_written valid resolved written (back unwritten)
      rw [run.cache rfl] at same
      exact ⟨again, opens, same⟩

/-- A file is left as it is when it is opened, and opens again with what was merged into it. -/
theorem opening_keeps_merged_file :
    let one : Value := .number (.int ⟨1, by decide, by decide⟩)
    let table : Value := .object [("k", .bool true)]
    let config := { Config.default with storageDir := "/data", filename := "store" }
    let file : FileDestination := ⟨.toml, "/data", "/data/store.toml"⟩
    let tree : FileTree :=
      ⟨[(["store.toml", "data"], .file (.text "a = 1\n") FileTree.fileMode),
        (["data"], .directory FileTree.directoryMode)], []⟩
    let outside : Outside := ⟨tree, none, .unreachable, .empty⟩
    let merged : Data := [("t", table), ("b", .string "x"), ("a", .null)]
    ∃ opened last data,
      config.openDatastore outside = (.ok (.file file opened), tree) ∧
      opened.state.cache = [("a", one)] ∧
      Datastore.Writes file.destination opened [.update merged] last ∧
      config.openDatastore { outside with tree := last.state.outside } =
        (.ok (.file file (config.loaded data last.state.outside)), last.state.outside) ∧
      (Value.object data).Reordered (.object [("t", table), ("b", .string "x")]) := by
  intro one table config file tree outside merged
  have valid : config.validate = .ok () := rfl
  have expanded : Path.expandHome none "/data" = "/data" := by decide +kernel
  have path : Path.withExtension "toml" (Path.join "/data" "store") = "/data/store.toml" := by
    decide +kernel
  have resolved : config.file? outside.home = some file := by
    change some (FileDestination.locate .toml none "/data" "store") = some file
    rw [FileDestination.locate, expanded]
    exact congrArg (fun path => some (FileDestination.mk .toml "/data" path)) path
  obtain ⟨-, parsed, -, -, reopened⟩ := opening_keeps_file valid resolved
  have held : outside.tree.read file.path = .ok "a = 1\n" := by decide +kernel
  have read : FileFormat.toml.read "a = 1\n" = .ok [("a", one)] := by cbv
  have opens := parsed _ _ held read
  -- The merged data is written to the file, which is already there.
  let whole : Data := [("a", .null), ("t", table), ("b", .string "x")]
  have printed : file.format.write whole = .ok "b = \"x\"\n\n[t]\nk = true\n" := by cbv
  have makes : file.CanBeMade tree :=
    ⟨(tree.makeDirectories file.directory).2, ["store.toml", "data"],
      Prod.ext (by decide +kernel) rfl, by decide +kernel⟩
  obtain ⟨after, written⟩ := FileDestination.writeAll_of_canBeMade printed makes
  let last := config.loaded whole after
  have answered : Datastore.perform (.synced file.destination) .sync (.update merged)
      (config.loaded [("a", one)] tree) = (.ok .done, last) := by
    have called : file.destination.writeAll .sync whole tree = (.ok (), after) := written
    exact Datastore.perform_of_written rfl rfl rfl called
  have run := Datastore.Writes.next rfl answered (.none last)
  -- TOML can print the written data back.
  have readable : Toml.ReadableMembers Toml.maxDepth whole := by
    simp [whole, table, Toml.ReadableMembers, Toml.Readable, Toml.maxDepth]
  have distinct : (Value.object whole).Throughout Value.DistinctKeys := by
    simp [whole, table, Value.Throughout, Value.ThroughoutMembers, Value.DistinctKeys,
      OrderedMap.Distinct]
  have floats : (Value.object whole).Throughout (Value.FloatSatisfies Toml.ReadsBack) := by
    simp [whole, table, Value.Throughout, Value.ThroughoutMembers, Value.FloatSatisfies]
  have back : BackendKind.toml.PrintsBack whole :=
    BackendKind.printsBack_toml readable distinct floats
  obtain ⟨data, again, same⟩ := reopened _ _ _ _ opens run fun _ => back
  exact ⟨_, last, data, opens, rfl, run, again, same⟩

end Config

end SyncStore
