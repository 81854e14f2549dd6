import SyncStore.Proofs.CommandLine.Answers
import SyncStore.Proofs.Files.Stored

/-! A command over a file reads it first, so what it writes keeps everything else. -/

namespace SyncStore.Command

variable {kind : BackendKind} {file : FileDestination} {tree : FileTree} {map data : Data}
  {command : Command}

/-- A file is read before anything but permissions is asked of it. -/
theorem onFile_of_read {after : FileTree} (read : file.readAll tree = (.ok data, after))
    (reading : ∀ mode, command ≠ .harden mode) :
    command.onFile file ⟨[], tree, true, true⟩ =
      command.execute file.destination ⟨data, after, true, true⟩ := by
  cases command with
  | harden mode => exact absurd rfl (reading mode)
  | _ => simp only [onFile, SyncedStore.readData_eq, FileDestination.destination_readAll, read]

section Loaded

variable (keeps : kind.format? = some file.format) (stores : file.Stores map tree)
  (order : (Value.object data).Reordered (.object map))
include keeps stores order

/-- Data with overriding entries is written as a whole, and the file stores the merged map. -/
theorem writeData_performs {overrides : Data} (writes : command.overrides? = some overrides) :
    let outcome := SyncedStore.writeData file.destination .async
      ⟨data.merge overrides, tree, true, true⟩
    (Report.ofAnswer (fun _ => .silent) outcome.1).Acknowledges (kind.takes (map.merge overrides)) ∧
      (command.Fits kind map → file.Stores (command.applied kind map) outcome.2.outside) := by
  intro outcome
  have distinct := distinct_merge stores.distinct writes
  have reordered := order.merge stores.distinct.here overrides
  have applied : command.applied kind map = kind.merged map overrides := by
    rw [Command.applied, writes]
  have written : outcome = _ := SyncedStore.writeData_eq file.destination .async _
  rw [FileDestination.destination_writeAll] at written
  rw [applied, BackendKind.merged]
  rcases FileDestination.writeAll_stores keeps stores.makes reordered distinct with
    ⟨taken, after, wrote, kept⟩ | ⟨refused, error, wrote⟩
  · rw [wrote] at written
    rw [written, taken]
    have follows := (stores.follows keeps).merge (overrides_sound writes).2
    -- The file is read back from what was written of it.
    exact ⟨rfl, fun fits =>
      kept ((fits overrides writes taken).printsBack keeps follows distinct reordered)⟩
  · rw [wrote] at written
    rw [written, refused]
    exact ⟨⟨error, rfl⟩, fun _ => stores⟩

/-- A command is performed over a file whose data is in memory. -/
theorem execute_performs (reads : file.Reads data tree) (reading : ∀ mode, command ≠ .harden mode) :
    command.Performs kind file.Stores map
      (command.execute file.destination ⟨data, tree, true, true⟩) := by
  have restricted : (⟨data, tree, true, true⟩ : SyncedStore FileTree).fullSyncOnly = true := rfl
  cases command with
  | get key default fallback =>
    rw [execute, SyncedStore.get_of_restricted restricted]
    -- The key is looked up in memory, where the file has just been read.
    have alike := order.get? (order.distinctKeys stores.distinct.here) key
    exact ⟨reportFound_finds stores.distinct key default alike, fun _ => stores⟩
  | set key raw policy =>
    rw [execute]
    cases writes : policy.resolve true with
    | true =>
      have overrides : (Command.set key raw policy).overrides? = some [(key, decodeValue raw)] :=
        if_pos writes
      have performed := writeData_performs keeps stores order overrides
      rw [SyncedStore.set_of_restricted restricted writes]
      refine ⟨?_, performed.2⟩
      rw [Answers, overrides]
      exact performed.1
    | false =>
      have overrides : (Command.set key raw policy).overrides? = none := if_neg (by simp [writes])
      rw [SyncedStore.set_of_unwritten writes]
      refine ⟨?_, fun _ => (applied_of_none overrides kind map).symm ▸ stores⟩
      rw [Answers, overrides]
      rfl
  | dump =>
    -- The file is read once more, and has not changed.
    rw [execute, SyncedStore.readData_eq, FileDestination.destination_readAll,
      FileDestination.readAll_of_reads reads]
    exact ⟨Report.prints_of_reordered order stores.distinct, fun _ => stores⟩
  | importObject raw =>
    rcases import_cases file.destination raw ⟨data, tree, true, true⟩ with
      ⟨overrides, writes, executed⟩ | ⟨unwritten, error, executed⟩
    · have performed := writeData_performs keeps stores order writes
      rw [executed]
      refine ⟨?_, performed.2⟩
      rw [Answers, writes]
      exact performed.1
    · rw [executed]
      refine ⟨?_, fun _ => (applied_of_none unwritten kind map).symm ▸ stores⟩
      rw [Answers, unwritten]
      exact ⟨error, rfl⟩
  | ping =>
    exact ⟨(if_neg (BackendKind.ne_redis keeps)).symm, fun _ => stores⟩
  | harden mode => exact absurd rfl (reading mode)

end Loaded

/-- A new process performs every command over a file that stores a map. -/
theorem onFile_performs (keeps : kind.format? = some file.format) (stores : file.Stores map tree)
    (command : Command) :
    command.Performs kind file.Stores map (command.onFile file ⟨[], tree, true, true⟩) := by
  by_cases hardens : ∃ mode, command = .harden mode
  · obtain ⟨mode, rfl⟩ := hardens
    -- Permissions are set on the file without a look into it.
    obtain ⟨after, hardened, kept⟩ := stores.harden keeps mode
    rw [onFile, hardened]
    exact ⟨(if_neg (BackendKind.ne_redis keeps)).symm, fun _ => kept⟩
  · have reading : ∀ mode, command ≠ .harden mode := fun mode same => hardens ⟨mode, same⟩
    obtain ⟨data, after, read, makes, reads, order⟩ := stores.readAll keeps
    rw [onFile_of_read read reading]
    -- The file was made if it was missing, and stores the same map.
    exact execute_performs keeps ⟨makes, stores.distinct, .inr ⟨data, reads, order⟩⟩ order reads
      reading

end SyncStore.Command
