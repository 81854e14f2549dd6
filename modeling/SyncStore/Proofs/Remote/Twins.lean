import SyncStore.Remote.RemoteDestination

/-! A remote destination works over its suspending connection as over its blocking one. -/

namespace SyncStore

namespace Remote

variable {σ : Type} (client : Client σ)

namespace Suspending

/-- Keys are taken into batches as by the blocking text. -/
theorem takeKeys_eq (size : Nat) (keys pending : List String) (data : Data) (state : σ) :
    takeKeys client size keys pending data state =
      Remote.takeKeys client size keys pending data state := by
  induction keys generalizing pending data state with
  | nil => rfl
  | cons key keys ih =>
    rw [takeKeys, Remote.takeKeys]
    -- Both texts fetch the same full batch, or let the key wait.
    split
    · rw [show fetch client = Remote.fetch client from rfl]
      cases Remote.fetch client (pending ++ [key]) data state with
      | mk answer after =>
        cases answer with
        | error error => rfl
        | ok data => exact ih [] data after
    · exact ih (pending ++ [key]) data state

/-- A scan goes on from every cursor as in the blocking text. -/
theorem scanFrom_eq (size steps : Nat) (cursor : Cursor) (pending : List String) (data : Data)
    (state : σ) :
    scanFrom client size steps cursor pending data state =
      Remote.scanFrom client size steps cursor pending data state := by
  -- The induction is on the scan steps left, for whatever waits by then.
  induction steps generalizing cursor pending data state with
  | zero => rfl
  | succ steps ih =>
    rw [scanFrom, Remote.scanFrom]
    cases client.scan cursor everyKey size state with
    | mk answer after =>
      cases answer with
      | error error => rfl
      | ok page =>
        obtain ⟨next, keys⟩ := page
        dsimp only
        rw [takeKeys_eq]
        cases Remote.takeKeys client size keys pending data after with
        | mk answer taken =>
          cases answer with
          | error error => rfl
          | ok filled =>
            -- One text asks whether the scan is over, and the other whether it goes on.
            obtain ⟨waiting, loaded⟩ := filled
            by_cases ended : next = 0
            · subst ended
              rfl
            · simp only [ended, ne_eq, not_false_eq_true, ↓reduceIte]
              exact ih next waiting loaded taken

/-- The whole service is read as by the blocking text. -/
theorem readAll_eq (size : BatchSize) : readAll client size = Remote.readAll client size :=
  funext fun state => scanFrom_eq client size.val _ 0 [] [] state

/-- All entries are written as by the blocking text. -/
theorem writeAll_eq : writeAll client = Remote.writeAll client := rfl

/-- A key is read as by the blocking text. -/
theorem readOne_eq : readOne client = Remote.readOne client := by
  funext key state
  rw [readOne, Remote.readOne]
  -- A failure is passed on by both texts, and a text is decoded by both.
  rcases client.get key state with ⟨_ | _, _⟩ <;> rfl

/-- A value is written as by the blocking text. -/
theorem writeOne_eq : writeOne client = Remote.writeOne client := rfl

end Suspending

section Destination

variable (clients : Side → Client σ) (size : BatchSize) (side : Side)

/-- From either side the whole service is read over the connection of that side. -/
theorem destination_readAll :
    (destination clients size).readAll side = readAll (clients side) size := by
  cases side with
  | sync => rfl
  | async => exact Suspending.readAll_eq (clients .async) size

/-- From either side all entries are written over the connection of that side. -/
theorem destination_writeAll :
    (destination clients size).writeAll side = writeAll (clients side) := by
  cases side with
  | sync => rfl
  | async => exact Suspending.writeAll_eq (clients .async)

/-- From either side a key is read over the connection of that side. -/
theorem destination_readOne :
    (destination clients size).readOne side = readOne (clients side) := by
  cases side with
  | sync => rfl
  | async => exact Suspending.readOne_eq (clients .async)

/-- From either side a value is written over the connection of that side. -/
theorem destination_writeOne :
    (destination clients size).writeOne side = writeOne (clients side) := by
  cases side with
  | sync => rfl
  | async => exact Suspending.writeOne_eq (clients .async)

end Destination

end Remote

end SyncStore
