import SyncStore.Text.CasingTable

/-! Lower case replaces every capital letter, and a capital sigma looks at its neighbours. -/

namespace SyncStore

/-- The small letter of a capital that belongs to a run. -/
def lowerInRun? (code : Nat) : Nat × Nat × Nat × Nat → Option Nat
  | (first, last, step, small) =>
    if first ≤ code ∧ code ≤ last ∧ (code - first) % step = 0 then some (small + (code - first))
    else none

/-- A letter without a run stays as it is, and the dotted capital i has a two-character form. -/
def lowerLetter (c : Char) : List Char :=
  if c.toNat = 0x130 then ['i', '\u0307']
  else
    match CasingTable.capitalRuns.findSome? (lowerInRun? c.toNat) with
    | some small => [Char.ofNat small]
    | none => [c]

/-- Past the characters that casing ignores, the next one is a cased letter. -/
def casedNext (text : List Char) : Bool :=
  match text.dropWhile (fun c => CodeTable.within CasingTable.ignorableBounds c.toNat) with
  | [] => false
  | c :: _ => CodeTable.within CasingTable.casedBounds c.toNat

/-- Text behind a given reversed beginning is put into lower case. -/
def lowerFrom (before : List Char) : List Char → List Char
  | [] => []
  | c :: rest =>
    -- A capital sigma takes its final form at the end of a word.
    let lower :=
      if c = 'Σ' then (if casedNext before && !casedNext rest then ['ς'] else ['σ'])
      else lowerLetter c
    lower ++ lowerFrom (c :: before) rest

/-- Text in lower case. -/
def lowerCase (text : List Char) : List Char := lowerFrom [] text

end SyncStore
