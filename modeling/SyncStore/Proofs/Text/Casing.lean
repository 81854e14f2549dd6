import SyncStore.Proofs.Decimal.Digits
import SyncStore.Text.Blank
import SyncStore.Text.Casing

/-! Plain letters change as expected in lower case, and text without blanks is not trimmed. -/

namespace SyncStore

/-- Only the first run of capitals lies among the first 128 code points. -/
theorem capitalRuns_eq : ∃ rest, CasingTable.capitalRuns = (65, 90, 1, 97) :: rest ∧
    ∀ run ∈ rest, 128 ≤ run.1 := by
  refine ⟨CasingTable.capitalRuns.tail, ?_, ?_⟩
  -- The lines of the table are taken apart into characters first: computing on them is quick.
  all_goals
    simp only [CasingTable.capitalRuns, CodeTable.quadruples, CodeTable.numbers,
      CodeTable.numbersOf, List.flatMap_cons, List.flatMap_nil]
    repeat rw [String.toList_ofList]
    decide +kernel

/-- Capitals of the first 128 code points become their small letters, and all else stays. -/
theorem lowerLetter_of_plain {c : Char} (plain : c.toNat < 128) :
    lowerLetter c = [if 65 ≤ c.toNat ∧ c.toNat ≤ 90 then Char.ofNat (c.toNat + 32) else c] := by
  obtain ⟨rest, table, beyond⟩ := capitalRuns_eq
  have dotted : c.toNat ≠ 0x130 := by omega
  -- Only one run of the table has capitals this low.
  have others : rest.findSome? (lowerInRun? c.toNat) = none := by
    rw [List.findSome?_eq_none_iff]
    rintro ⟨first, last, step, small⟩ run
    have : 128 ≤ first := beyond _ run
    exact if_neg (by omega)
  rw [lowerLetter, if_neg dotted, table, List.findSome?_cons, others]
  by_cases capital : 65 ≤ c.toNat ∧ c.toNat ≤ 90
  · have inRun : lowerInRun? c.toNat (65, 90, 1, 97) = some (97 + (c.toNat - 65)) :=
      if_pos ⟨capital.1, capital.2, Nat.mod_one _⟩
    have same : 97 + (c.toNat - 65) = c.toNat + 32 := by omega
    simp only [inRun, same, if_pos capital]
  · have outside : lowerInRun? c.toNat (65, 90, 1, 97) = none :=
      if_neg fun run => capital ⟨run.1, run.2.1⟩
    simp only [outside, if_neg capital]

/-- A character that lower case leaves alone, of the first 128 code points. -/
def IsSmall (c : Char) : Prop := c.toNat < 128 ∧ ¬ (65 ≤ c.toNat ∧ c.toNat ≤ 90)

instance : DecidablePred IsSmall := fun c =>
  inferInstanceAs (Decidable (c.toNat < 128 ∧ ¬ (65 ≤ c.toNat ∧ c.toNat ≤ 90)))

/-- Text of small characters is in lower case already, whatever stands before it. -/
theorem lowerFrom_of_small (before : List Char) {text : List Char}
    (small : ∀ c ∈ text, IsSmall c) : lowerFrom before text = text := by
  induction text generalizing before with
  | nil => rfl
  | cons c rest ih =>
    obtain ⟨plain, letter⟩ := small c List.mem_cons_self
    have others := ih (c :: before) fun d inside => small d (List.mem_cons_of_mem c inside)
    -- A capital sigma is not among the first 128 code points.
    have sigma : c ≠ 'Σ' := by
      rintro rfl
      exact absurd plain (by decide)
    simp only [lowerFrom, if_neg sigma, lowerLetter_of_plain plain, if_neg letter, others,
      List.singleton_append]

/-- Text of small characters is in lower case already. -/
theorem lowerCase_of_small {text : List Char} (small : ∀ c ∈ text, IsSmall c) :
    lowerCase text = text :=
  lowerFrom_of_small [] small

/-- Text without blanks keeps both of its ends. -/
theorem trimBlanks_of_visible {text : List Char} (visible : ∀ c ∈ text, isBlank c = false) :
    trimBlanks text = text := by
  have keeps {letters : List Char} (all : ∀ c ∈ letters, isBlank c = false) :
      letters.dropWhile isBlank = letters := by
    cases letters with
    | nil => rfl
    | cons c rest => rw [List.dropWhile_cons_of_neg (by simp [all c List.mem_cons_self])]
  have reversed : ∀ c ∈ text.reverse, isBlank c = false := fun c inside =>
    visible c (List.mem_reverse.mp inside)
  rw [trimBlanks, keeps visible, keeps reversed, List.reverse_reverse]

/-- A digit is no blank. -/
theorem isBlank_digit {c : Char} (digit : c.isDigit = true) : isBlank c = false := by
  obtain ⟨lowest, highest⟩ : 48 ≤ c.toNat ∧ c.toNat ≤ 57 := by
    simpa [Char.isDigit, UInt32.le_iff_toNat_le] using digit
  simp only [isBlank, Bool.or_eq_false_iff, Bool.and_eq_false_iff, decide_eq_false_iff_not,
    beq_eq_false_iff_ne]
  omega

end SyncStore
