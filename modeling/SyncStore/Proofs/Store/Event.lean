import SyncStore.Proofs.Store.Run

/-! What happens to a store is asked of it or changes its outside, and each event leaves a trace. -/

namespace SyncStore

/--
An event in the life of a store.

- `request`: something is asked of the store, from one side
- `change`: somebody else changes what is outside, whatever that is at the time
-/
inductive Event (σ : Type) where
  | request (side : Side) (request : StoreRequest)
  | change (change : σ → σ)

/-- What an event shows: its answer, if it asked for anything, and the store that it leaves. -/
structure Encounter (σ : Type) where
  answer : Option (Except StoreError Reply)
  store : SyncedStore σ

namespace SyncedStore

variable {σ : Type}

/-- A request is answered, and a change only replaces what is outside. -/
def meet (destination : Destination σ) (store : SyncedStore σ) : Event σ → Encounter σ
  | .request side request =>
    match store.perform destination side request with
    | (answer, after) => ⟨some answer, after⟩
  | .change change => ⟨none, { store with outside := change store.outside }⟩

/-- Events happen one after the other, and each of them leaves its own encounter. -/
def history (destination : Destination σ) (store : SyncedStore σ) :
    List (Event σ) → List (Encounter σ)
  | [] => []
  | event :: rest =>
    let encounter := store.meet destination event
    encounter :: encounter.store.history destination rest

/-- The store that events leave behind. -/
def live (destination : Destination σ) (store : SyncedStore σ) (events : List (Event σ)) :
    SyncedStore σ :=
  events.foldl (fun store event => (store.meet destination event).store) store

/-- No event changes whether a store is restricted to whole reads and writes. -/
theorem meet_fullSyncOnly (destination : Destination σ) (store : SyncedStore σ)
    (event : Event σ) :
    (store.meet destination event).store.fullSyncOnly = store.fullSyncOnly := by
  cases event with
  | request side request => exact perform_fullSyncOnly destination side store request
  -- A change from outside never reaches the store itself.
  | change change => rfl

end SyncedStore

end SyncStore
