import SyncStore.Store.Policy
import SyncStore.Store.StoreError

/-! A destination is a place outside a store that its data is written to and read from. -/

namespace SyncStore

/-- A call on some state answers or fails, and leaves a state either way. -/
abbrev Outcome (σ α : Type) := Except StoreError α × σ

/--
A destination over outside states of some type.

- `name`: the name told in failures
- `perKey`: single keys can be read and written
-/
structure Destination (σ : Type) where
  name : String
  perKey : Bool
  readAll : Side → σ → Outcome σ Data
  writeAll : Side → Data → σ → Outcome σ Unit
  readOne : Side → String → σ → Outcome σ (Option Value)
  writeOne : Side → String → Value → σ → Outcome σ Unit

end SyncStore
