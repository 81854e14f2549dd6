import SyncStore.Store.Backend

/-! A datastore owns one backend and remembers the version of its configuration. -/

namespace SyncStore

/-- A datastore is a version and the state of its backend. -/
structure Datastore (σ : Type) where
  version : UInt32
  state : σ

namespace Datastore

variable {σ τ : Type}

/-- Every request goes to the backend unchanged. -/
def perform (backend : Backend σ) (side : Side) (request : Request) (datastore : Datastore σ) :
    Outcome (Datastore σ) Reply :=
  match backend.perform side request datastore.state with
  | (answer, state) => (answer, { datastore with state := state })

/--
The data of a datastore replaces whatever a new backend held.

The answer is the datastore of the new version, or the failure of the write, beside the new state.
-/
def migrate (old : Backend σ) (new : Backend τ) (version : UInt32) (datastore : Datastore σ)
    (state : τ) : Outcome (Datastore τ) Unit :=
  match new.overwrite .sync (old.data datastore.state) state with
  | (answer, state) => (answer, ⟨version, state⟩)

end Datastore

end SyncStore
