import SyncStore.Proofs.Files.Directories
import SyncStore.Proofs.Files.Reopening
import SyncStore.Proofs.Toml.Representable

/-! A file is replaced by the complete text of its store, or left as it is. -/

namespace SyncStore

namespace FileDestination

variable {file : FileDestination} {tree : FileTree} {data : Data}

/-- A file holds data when its text is the complete text of the data. -/
def Holds (file : FileDestination) (data : Data) (tree : FileTree) : Prop :=
  ∃ text, file.format.write data = .ok text ∧ tree.read file.path = .ok text

/-- Data without a text changes nothing, not even a directory. -/
theorem writeAll_of_unwritable {error : StoreError}
    (unwritable : file.format.write data = .error error) :
    file.writeAll data tree = (.error (error.inFile file.path), tree) := by
  rw [writeAll, unwritable]

/-- A file that opens in a settled directory can be made. -/
theorem canBeMade_of_opensAt (settled : tree.IsSettled file.directory) {parent : Location}
    {before : List String} {name : String} (opens : tree.OpensAt file.path parent before name) :
    file.CanBeMade tree :=
  ⟨_, _, settled.makeDirectories, opens.openForWriting⟩

/-- A file that was written can be made again, because its directories stay. -/
theorem canBeMade_of_writeAll {after : FileTree}
    (written : file.writeAll data tree = (.ok (), after)) : file.CanBeMade after := by
  obtain ⟨text, made, -, directory, written⟩ := writeAll_eq_ok.mp written
  unfold FileTree.write at written
  cases opened : made.openForWriting file.path with
  | error fault => simp [opened] at written
  | ok location =>
    obtain ⟨parent, before, name, rfl, opens⟩ := FileTree.opensAt_of_openForWriting opened
    simp only [opened, Prod.mk.injEq, true_and] at written
    subst written
    -- Only the file itself was put into the tree with the directories.
    exact canBeMade_of_opensAt
      ((FileTree.isSettled_of_makeDirectories directory).put opens.free) (opens.put _ _)

/--
A write of all data to a file that can be made succeeds exactly when the data has a text.

The file then holds the data, and otherwise nothing changed.
-/
theorem writeAll_cases (makes : file.CanBeMade tree) (data : Data) :
    (∃ after, file.writeAll data tree = (.ok (), after) ∧ file.Holds data after ∧
        file.CanBeMade after) ∨
      ∃ error, file.format.write data = .error error ∧
        file.writeAll data tree = (.error (error.inFile file.path), tree) := by
  cases printed : file.format.write data with
  | error error => exact .inr ⟨error, rfl, writeAll_of_unwritable printed⟩
  | ok text =>
    obtain ⟨after, written⟩ := writeAll_of_canBeMade printed makes
    exact .inl ⟨after, written, read_writeAll written, canBeMade_of_writeAll written⟩

end FileDestination

namespace SyncedStore

variable {σ : Type} {destination : Destination σ} {store : SyncedStore σ}

/-- Requests are made one after the other. -/
def performAll (destination : Destination σ) (store : SyncedStore σ)
    (requests : List (Side × StoreRequest)) : SyncedStore σ :=
  requests.foldl (fun store entry => (store.perform destination entry.1 entry.2).2) store

/-- The last request finds what the others left. -/
theorem performAll_concat (requests : List (Side × StoreRequest)) (side : Side)
    (request : StoreRequest) :
    store.performAll destination (requests ++ [(side, request)]) =
      ((store.performAll destination requests).perform destination side request).2 := by
  rw [performAll, List.foldl_append]
  rfl

/-- No requests change whether a store is restricted. -/
theorem performAll_fullSyncOnly (requests : List (Side × StoreRequest)) :
    (store.performAll destination requests).fullSyncOnly = store.fullSyncOnly := by
  induction requests generalizing store with
  | nil => rfl
  | cons entry rest ih => exact ih.trans (perform_fullSyncOnly destination entry.1 store entry.2)

/-- A restricted store leaves alone what is outside, unless it reads or writes the whole data. -/
theorem perform_outside (restricted : store.fullSyncOnly = true) (side : Side)
    {request : StoreRequest} (unwritten : request.writesWhole store.writesByDefault = false)
    (unread : request ≠ .backend .readData) :
    (store.perform destination side request).2.outside = store.outside := by
  -- What is left is refused or answered from memory.
  cases request with
  | backend request =>
    cases request with
    | data => rfl
    | get key fallback => exact congrArg (·.2.outside) (get_of_restricted restricted fallback)
    | getOr key default fallback =>
      exact congrArg outside (getOr_of_restricted restricted default fallback)
    | set key value policy => exact congrArg (·.2.outside) (set_of_unwritten unwritten value)
    | readData => exact absurd rfl unread
    | overwrite | update => cases unwritten
  | writeData => cases unwritten
  | writeDatum key value =>
    exact congrArg (·.2.outside) (writeDatum_of_restricted restricted value)
  | readDatum key => exact congrArg (·.2.outside) (readDatum_of_restricted restricted)
  | setWriteDefault writes => rfl

end SyncedStore

namespace FileDestination

variable {file : FileDestination} {store : SyncedStore FileTree}

/-- A file that can be made is read, or nothing changes; a missing file is made for empty data. -/
theorem readAll_cases {tree : FileTree} (makes : file.CanBeMade tree) :
    (file.readAll tree).2 = tree ∨
      (file.readAll tree).1 = .ok [] ∧ file.Holds [] (file.readAll tree).2 ∧
        file.CanBeMade (file.readAll tree).2 := by
  cases found : tree.read file.path with
  | ok text => exact .inl (congrArg Prod.snd (readAll_of_text found))
  | error fault =>
    by_cases missing : fault = .missing
    · rw [missing] at found
      rw [readAll_of_missing found]
      -- The file is made, or empty data has no text.
      rcases writeAll_cases makes [] with ⟨after, written, holds, again⟩ | ⟨error, _, written⟩
      · rw [written]
        exact .inr ⟨rfl, holds, again⟩
      · rw [written]
        exact .inl rfl
    · exact .inl (congrArg Prod.snd (readAll_of_fault found missing))

/--
A request leaves the file as it was, or complete.

- `makes`: the system still lets the file be made
- `whole`: the tree is the old one, or the file holds what is in memory after the request
-/
structure Keeps (file : FileDestination) (before after : SyncedStore FileTree) : Prop where
  makes : file.CanBeMade after.outside
  whole : after.outside = before.outside ∨ file.Holds after.cache after.outside

/-- Every request to a store over a file keeps the file whole. -/
theorem perform_keeps (restricted : store.fullSyncOnly = true)
    (makes : file.CanBeMade store.outside) (side : Side) (request : StoreRequest) :
    file.Keeps store (store.perform file.destination side request).2 := by
  cases writes : request.writesWhole store.writesByDefault with
  | true =>
    rw [SyncedStore.perform_writesWhole restricted writes]
    rcases writeAll_cases makes (request.changed store.cache) with
      ⟨after, written, holds, again⟩ | ⟨error, _, written⟩
    · rw [destination_writeAll, written]
      exact ⟨again, .inr holds⟩
    · rw [destination_writeAll, written]
      exact ⟨makes, .inl rfl⟩
  | false =>
    by_cases read : request = .backend .readData
    · subst read
      have after : (store.perform file.destination side (.backend .readData)).2 = _ :=
        SyncedStore.readData_store file.destination side store
      rw [after, destination_readAll]
      rcases readAll_cases makes with same | ⟨answer, holds, again⟩
      · exact ⟨same.symm ▸ makes, .inl same⟩
      · -- The file was made for empty data, which is in memory now.
        refine ⟨again, .inr ?_⟩
        rw [answer]
        exact holds
    · have same : (store.perform file.destination side request).2.outside = store.outside :=
        SyncedStore.perform_outside restricted side writes read
      exact ⟨same ▸ makes, .inl same⟩

/-- After every run the tree is the first one, or the file holds what was in memory before. -/
theorem performAll_keeps (restricted : store.fullSyncOnly = true)
    (makes : file.CanBeMade store.outside) (requests : List (Side × StoreRequest)) :
    let reached := store.performAll file.destination requests
    file.CanBeMade reached.outside ∧
      (reached.outside = store.outside ∨ ∃ earlier, earlier <+: requests ∧
        file.Holds (store.performAll file.destination earlier).cache reached.outside) := by
  -- The induction is on the run from its end, because the last request decides first.
  induction requests using List.reverseRecOn with
  | nil => exact ⟨makes, .inl rfl⟩
  | append_singleton front last ih =>
    obtain ⟨side, request⟩ := last
    obtain ⟨makes, before⟩ := ih
    have restricted : (store.performAll file.destination front).fullSyncOnly = true :=
      (SyncedStore.performAll_fullSyncOnly front).trans restricted
    have step := perform_keeps restricted makes side request
    rw [SyncedStore.performAll_concat]
    refine ⟨step.makes, ?_⟩
    rcases step.whole with same | holds
    · -- The tree is still the one that the run before left.
      rw [same]
      exact before.imp_right fun ⟨earlier, inside, holds⟩ =>
        ⟨earlier, inside.trans (List.prefix_append front _), holds⟩
    · refine .inr ⟨front ++ [(side, request)], List.prefix_refl _, ?_⟩
      rw [SyncedStore.performAll_concat]
      exact holds

end FileDestination

/-- A request that gives a key a value, or replaces all data that is in memory. -/
def StoreRequest.Replaces (key : String) (answer : Except StoreError Reply) : StoreRequest → Prop
  | .backend (.set changed _ _) => changed = key
  | .backend (.update overrides) => key ∈ overrides.keys
  | .backend (.overwrite _) => True
  -- A failed read replaces nothing.
  | .backend .readData => answer.isOk = true
  | _ => False

namespace SyncedStore

variable {σ : Type} {destination : Destination σ} {store : SyncedStore σ} {key : String}

/-- Requests spare a key when none of them replaces what is in memory under it. -/
def Spares (destination : Destination σ) (key : String) :
    SyncedStore σ → List (Side × StoreRequest) → Prop
  | _, [] => True
  | store, (side, request) :: rest =>
    ¬ request.Replaces key (store.perform destination side request).1 ∧
      Spares destination key (store.perform destination side request).2 rest

/-- A request that spares a key changes nothing under it when it changes the data. -/
theorem get?_changed {request : StoreRequest} {answer : Except StoreError Reply}
    (spares : ¬ request.Replaces key answer) (data : Data) :
    OrderedMap.get? key (request.changed data) = data.get? key := by
  cases request with
  | backend request =>
    cases request with
    | set changed value policy =>
      exact OrderedMap.get?_insert_of_ne (Ne.symm spares) value data
    | update overrides => exact OrderedMap.get?_merge_of_not_mem spares
    | overwrite data => exact absurd trivial spares
    | _ => rfl
  | _ => rfl

/-- A request that spares a key leaves a restricted store with the same value under it. -/
theorem get?_perform (restricted : store.fullSyncOnly = true) {side : Side}
    {request : StoreRequest}
    (spares : ¬ request.Replaces key (store.perform destination side request).1) :
    OrderedMap.get? key (store.perform destination side request).2.cache =
      store.cache.get? key := by
  cases request with
  | backend request =>
    cases request with
    | data => rfl
    | get key fallback =>
      exact congrArg (OrderedMap.get? _ ·.2.cache) (get_of_restricted restricted fallback)
    | getOr key default fallback =>
      exact congrArg (OrderedMap.get? _ ·.cache) (getOr_of_restricted restricted default fallback)
    | set changed value policy =>
      -- Only the key that is set changes, written or not.
      obtain ⟨outside, same⟩ := set_store destination side store changed value policy
      exact (congrArg (OrderedMap.get? key ·.cache) same).trans
        (OrderedMap.get?_insert_of_ne (Ne.symm spares) value store.cache)
    | overwrite data => exact absurd trivial spares
    | update overrides =>
      rw [perform_update, perform_writeData]
      exact OrderedMap.get?_merge_of_not_mem spares
    | readData =>
      have after : (store.perform destination side (.backend .readData)).2 = _ :=
        readData_store destination side store
      -- The read failed, because it would have replaced everything otherwise.
      cases answer : (destination.readAll side store.outside).1 with
      | ok data =>
        refine absurd ?_ spares
        have answered : (readData destination side store).1 = .ok data :=
          (readData_answer destination side store).trans answer
        exact congrArg (fun answer => (answer.map Reply.data).isOk) answered
      | error error =>
        rw [after, answer]
  | writeData => rw [perform_writeData]
  | writeDatum key value =>
    exact congrArg (OrderedMap.get? _ ·.2.cache) (writeDatum_of_restricted restricted value)
  | readDatum key =>
    exact congrArg (OrderedMap.get? _ ·.2.cache) (readDatum_of_restricted restricted)
  | setWriteDefault writes => rfl

end SyncedStore

namespace FileDestination

variable {file : FileDestination} {store : SyncedStore FileTree}

/--
A value is stuck under a key when no data with it there has a text.

Such data can be held in memory, and cannot be written.
-/
def Stuck (file : FileDestination) (key : String) (value : Value) : Prop :=
  ∀ data : Data, data.get? key = some value → ∃ error, file.format.write data = .error error

/-- A request that spares a stuck value fails to write, and leaves the tree as it is. -/
theorem perform_of_stuck (restricted : store.fullSyncOnly = true) {key : String} {value : Value}
    (stuck : file.Stuck key value) (held : store.cache.get? key = some value) (side : Side)
    {request : StoreRequest} (writes : request.writesWhole store.writesByDefault = true)
    (spares : ¬ request.Replaces key (store.perform file.destination side request).1) :
    (∃ error, (store.perform file.destination side request).1 = .error error) ∧
      (store.perform file.destination side request).2.outside = store.outside := by
  obtain ⟨error, unwritable⟩ :=
    stuck (request.changed store.cache) ((SyncedStore.get?_changed spares store.cache).trans held)
  rw [SyncedStore.perform_writesWhole restricted writes, destination_writeAll,
    writeAll_of_unwritable unwritable]
  exact ⟨⟨_, rfl⟩, rfl⟩

/-- Any request that spares a stuck value leaves the tree as it is. -/
theorem perform_outside_of_stuck (restricted : store.fullSyncOnly = true)
    (makes : file.CanBeMade store.outside) {key : String} {value : Value}
    (stuck : file.Stuck key value) (held : store.cache.get? key = some value) (side : Side)
    {request : StoreRequest}
    (spares : ¬ request.Replaces key (store.perform file.destination side request).1) :
    (store.perform file.destination side request).2.outside = store.outside := by
  -- A whole write fails at the stuck value, and a whole read is the only other way out.
  cases writes : request.writesWhole store.writesByDefault with
  | true => exact (perform_of_stuck restricted stuck held side writes spares).2
  | false =>
    by_cases read : request = .backend .readData
    · subst read
      have after : (store.perform file.destination side (.backend .readData)).2 = _ :=
        SyncedStore.readData_store file.destination side store
      rw [after, destination_readAll]
      refine (readAll_cases makes).resolve_right fun ⟨answer, _⟩ => spares ?_
      have answered : (store.readData file.destination side).1 = .ok [] := by
        rw [SyncedStore.readData_answer, destination_readAll]
        exact answer
      exact congrArg (fun answer => (answer.map Reply.data).isOk) answered
    · exact SyncedStore.perform_outside restricted side writes read

/-- Requests that spare a stuck value leave it in memory, and the tree as it was. -/
theorem performAll_of_stuck (restricted : store.fullSyncOnly = true)
    (makes : file.CanBeMade store.outside) {key : String} {value : Value}
    (stuck : file.Stuck key value) (held : store.cache.get? key = some value)
    {requests : List (Side × StoreRequest)}
    (spares : store.Spares file.destination key requests) :
    (store.performAll file.destination requests).cache.get? key = some value ∧
      (store.performAll file.destination requests).outside = store.outside := by
  induction requests generalizing store with
  | nil => exact ⟨held, rfl⟩
  | cons entry rest ih =>
    obtain ⟨side, request⟩ := entry
    obtain ⟨first, others⟩ := spares
    have same := perform_outside_of_stuck restricted makes stuck held side first
    -- The first request leaves the others a store of the same kind.
    have restricted' : (store.perform file.destination side request).2.fullSyncOnly = true :=
      (SyncedStore.perform_fullSyncOnly file.destination side store request).trans restricted
    have held' := (SyncedStore.get?_perform restricted first).trans held
    have later := ih restricted' (same.symm ▸ makes) held' others
    exact ⟨later.1, later.2.trans same⟩

/-- TOML data is refused for its first defect, and has a text when there is none. -/
theorem failure?_toml_write (data : Data) :
    failure? (FileFormat.toml.write data) =
      (Toml.firstDefect (Toml.placesOfMembers data)).map Toml.unwritable :=
  (failure?_map _ _).trans (Toml.failure?_ofData data)

/-- A defective value is stuck in a TOML file. -/
theorem stuck_of_defect (toml : file.format = .toml) (key : String) {value : Value}
    (defective : Toml.firstDefect (Toml.places false value) ≠ none) : file.Stuck key value := by
  intro data held
  obtain ⟨defect, first⟩ :=
    Option.ne_none_iff_exists'.mp (Toml.firstDefect_of_get? held defective)
  have failed := failure?_toml_write data
  rw [first] at failed
  exact ⟨Toml.unwritable defect, toml ▸ failure?_eq_some.mp failed⟩

/--
Data that TOML cannot represent never damages a TOML file.

Data is refused exactly when it has a defect, and for the first one.
Over a file that the system lets be made, a request that writes the whole data is kept in memory; it
succeeds exactly when the changed data has no defect, and then the file holds that data. Otherwise
the whole tree stays as it was. So after every run the tree is the first one, or the file holds
what was in memory at some time before. A defective value makes every write fail until it is
replaced, or all data is.
-/
theorem toml_write_never_damages :
    (∀ data, failure? (FileFormat.toml.write data) =
      (Toml.firstDefect (Toml.placesOfMembers data)).map Toml.unwritable) ∧
    ∀ (file : FileDestination) (store : SyncedStore FileTree)
      (requests : List (Side × StoreRequest)),
      file.format = .toml → store.fullSyncOnly = true → file.CanBeMade store.outside →
      let destination := file.destination
      let reached := store.performAll destination requests
      (reached.outside = store.outside ∨ ∃ earlier, earlier <+: requests ∧
        file.Holds (store.performAll destination earlier).cache reached.outside) ∧
      (∀ side request, request.writesWhole reached.writesByDefault = true →
        let data := request.changed reached.cache
        let outcome := reached.perform destination side request
        outcome.2.cache = data ∧
          match Toml.firstDefect (Toml.placesOfMembers data) with
          | none => outcome.1 = .ok .done ∧ file.Holds data outcome.2.outside
          | some defect =>
            outcome.1 = .error ((Toml.unwritable defect).inFile file.path) ∧
              outcome.2.outside = reached.outside) ∧
      ∀ key value later, reached.cache.get? key = some value →
        Toml.firstDefect (Toml.places false value) ≠ none →
        reached.Spares destination key later →
        let last := reached.performAll destination later
        last.outside = reached.outside ∧
          ∀ side request, request.writesWhole last.writesByDefault = true →
            let outcome := last.perform destination side request
            ¬ request.Replaces key outcome.1 →
            (∃ error, outcome.1 = .error error) ∧ outcome.2.outside = last.outside := by
  refine ⟨failure?_toml_write, fun file store requests toml restricted makes => ?_⟩
  intro destination reached
  obtain ⟨again, whole⟩ := performAll_keeps restricted makes requests
  have bulk : reached.fullSyncOnly = true :=
    (SyncedStore.performAll_fullSyncOnly requests).trans restricted
  refine ⟨whole, fun side request writes => ?_, fun key value later held defective spares => ?_⟩
  · intro data outcome
    have performed : outcome = _ := SyncedStore.perform_writesWhole bulk writes side
    rw [destination_writeAll] at performed
    have refused := failure?_toml_write data
    rw [← toml] at refused
    rcases writeAll_cases again data with ⟨after, written, holds, -⟩ | ⟨error, failed, written⟩
    · rw [written] at performed
      -- Data that was written has a text, and so no defect.
      obtain ⟨text, printed, -⟩ := id holds
      rw [printed, failure?_ok] at refused
      rw [performed, Option.map_eq_none_iff.mp refused.symm]
      exact ⟨rfl, rfl, holds⟩
    · rw [written] at performed
      -- Data that was not written has none, and its first defect is the error.
      rw [failed, failure?_error] at refused
      obtain ⟨defect, first, rfl⟩ := Option.map_eq_some_iff.mp refused.symm
      rw [performed, first]
      exact ⟨rfl, rfl, rfl⟩
  · intro last
    have stuck := stuck_of_defect toml key defective
    obtain ⟨still, same⟩ := performAll_of_stuck bulk again stuck held spares
    have bulk : last.fullSyncOnly = true :=
      (SyncedStore.performAll_fullSyncOnly later).trans bulk
    exact ⟨same, fun side request writes spared =>
      perform_of_stuck bulk stuck still side writes spared⟩

/-- A null in an array stops every write until it is replaced. -/
theorem toml_write_stopped_by_null :
    let file : FileDestination := ⟨.toml, "/data", "/data/store.toml"⟩
    let tree : FileTree :=
      ⟨[(["store.toml", "data"], .file (.text "a = true\n") FileTree.fileMode),
        (["data"], .directory FileTree.directoryMode)], []⟩
    let store : SyncedStore FileTree := ⟨[("a", .bool true)], tree, true, true⟩
    let reached := store.performAll file.destination
      [(.sync, .backend (.set "list" (.array [.bool true, .null]) .default))]
    let other := reached.perform file.destination .async (.backend (.set "b" .null .always))
    let replaced := reached.perform file.destination .sync (.backend (.set "list" .null .default))
    other.1 = .error (.serialization (some file.path) .nullInArray) ∧
      other.2.outside = reached.outside ∧
      replaced.1 = .ok .done ∧
      file.Holds [("a", .bool true), ("list", .null)] replaced.2.outside := by
  intro file tree store reached other replaced
  have makes : file.CanBeMade store.outside :=
    ⟨(tree.makeDirectories file.directory).2, ["store.toml", "data"],
      Prod.ext (by decide +kernel) rfl, by decide +kernel⟩
  obtain ⟨-, writing, -⟩ := toml_write_never_damages.2 file store
    [(.sync, .backend (.set "list" (.array [.bool true, .null]) .default))] rfl rfl makes
  obtain ⟨-, failed⟩ := writing .async (.backend (.set "b" .null .always)) rfl
  obtain ⟨-, written⟩ := writing .sync (.backend (.set "list" .null .default)) rfl
  exact ⟨failed.1, failed.2, written.1, written.2⟩

end FileDestination

end SyncStore
