import SyncStore.Files.FileDestination

/-! A file is read and written by the suspending text as by the blocking one. -/

namespace SyncStore

namespace FileDestination

variable (file : FileDestination)

/-- Data is written as by the blocking text, with the same failures. -/
theorem Suspending.writeAll_eq (data : Data) (tree : FileTree) :
    Suspending.writeAll file data tree = file.writeAll data tree := by
  unfold Suspending.writeAll FileDestination.writeAll
  cases file.format.write data with
  | error error => rfl
  | ok text =>
    dsimp only
    -- The one text leaves at the first fault, and the other one passes it on.
    rcases tree.makeDirectories file.directory with ⟨fault | _, made⟩
    · rfl
    · dsimp only [attempt, Except.mapError]
      rcases made.write file.path text with ⟨_ | _, _⟩ <;> rfl

/-- The file is read as by the blocking text, and made by it when it is missing. -/
theorem Suspending.readAll_eq (tree : FileTree) :
    Suspending.readAll file tree = file.readAll tree := by
  unfold Suspending.readAll FileDestination.readAll
  rw [Suspending.writeAll_eq]

/-- From either side the whole data is written to the file. -/
theorem destination_writeAll (side : Side) : file.destination.writeAll side = file.writeAll := by
  cases side with
  | sync => rfl
  | async => exact funext fun data => funext fun tree => Suspending.writeAll_eq file data tree

/-- From either side the whole data is read from the file. -/
theorem destination_readAll (side : Side) : file.destination.readAll side = file.readAll := by
  cases side with
  | sync => rfl
  | async => exact funext fun tree => Suspending.readAll_eq file tree

end FileDestination

end SyncStore
