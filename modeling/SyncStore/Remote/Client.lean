import SyncStore.Store.Destination

/-! A client is one connection to a remote key-value service that only knows text. -/

namespace SyncStore

/-- The position of a scan; zero starts a scan and ends one. -/
abbrev Cursor := Nat

/--
The calls of a connection over service states of some type.

- `getMany`: one slot is answered for each key, and it is empty for a key without a value
- `scan`: one step of a scan answers the next cursor and the keys of the step
- `stepsLeft`: more scan steps than this are never taken in a row, so a scan comes to its end
-/
structure Client (σ : Type) where
  get : String → σ → Outcome σ (Option String)
  set : String → String → σ → Outcome σ Unit
  getMany : List String → σ → Outcome σ (List (Option String))
  setMany : List (String × String) → σ → Outcome σ Unit
  scan : Cursor → String → Nat → σ → Outcome σ (Cursor × List String)
  ping : σ → Outcome σ String
  close : σ → Outcome σ Unit
  stepsLeft : σ → Nat

end SyncStore
