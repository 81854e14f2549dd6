import SyncStore.Proofs.Decimal.Rendered
import SyncStore.Proofs.Yaml.Resolution

/-! Every finite float is read back from its own text. -/

namespace SyncStore

/-- A magnitude is told from an integer by its point or the mark of its exponent. -/
theorem FloatLayout.exists_mark (layout : FloatLayout) (fraction : layout.fraction = true)
    (d : Decimal) :
    ∃ c rest mark, layout.magnitude d = c :: rest ∧ c.isDigit = true ∧
      (c = '0' → rest.head? = some '.') ∧ mark ∈ rest ∧ (mark = '.' ∨ mark = 'e') := by
  rcases layout.magnitude_cases fraction d with
    ⟨whole, back, around, -⟩ | ⟨-, nonzero, power, shape, -⟩
  · obtain ⟨c, rest, rfl⟩ := List.exists_cons_of_ne_nil around.starts
    refine ⟨c, rest ++ '.' :: back, '.', around.is, around.front c List.mem_cons_self, ?_,
      by simp, .inl rfl⟩
    rintro rfl
    -- A leading zero stands alone in front of the point.
    obtain rfl := (List.cons.inj (around.leads rfl)).2
    rfl
  · obtain ⟨c, rest, same, digit, zero⟩ := Decimal.toDigits_head d.coefficient
    rw [shape, Decimal.digits, same, scientific]
    refine ⟨c, _, 'e', rfl, digit, fun leading => absurd (zero leading).1 nonzero, ?_, .inr rfl⟩
    simp

namespace Yaml

/-- The marks of a float are no decimal digits. -/
theorem unsigned?_of_mark {c mark : Char} {rest : List Char}
    (leads : c = '0' → rest.head? = some '.') (inside : mark ∈ rest)
    (marks : mark = '.' ∨ mark = 'e') : unsigned? (c :: rest) = none := by
  have other : natural? 10 (c :: rest) = none := by
    have off : isDigitOf 10 mark = false := by rcases marks with rfl | rfl <;> decide
    have some : (c :: rest).all (isDigitOf 10) = false :=
      List.all_eq_false.mpr ⟨mark, List.mem_cons_of_mem _ inside, by simp [off]⟩
    rw [natural?, some, Bool.and_false]
    rfl
  rw [unsigned?]
  · rw [other, ite_self]
  -- Behind a leading zero comes a point, and no letter of a base.
  all_goals
    rintro tail same
    obtain ⟨rfl, rfl⟩ := List.cons.inj same
    cases leads rfl

/-- No text of a float is that of an integer. -/
theorem integer?_float (x : Binary64) : integer? (floats.render x) = none := by
  obtain ⟨c, rest, mark, same, digit, leads, inside, marks⟩ :=
    floats.exists_mark rfl (x.shortest floats.ties)
  have none := unsigned?_of_mark leads inside marks
  rw [FloatLayout.render, same]
  -- The sign is taken off, and what stands behind it has the mark of a float.
  cases x.negative with
  | true =>
    rw [if_pos rfl, List.singleton_append, integer?, none]
  | false =>
    rw [if_neg Bool.false_ne_true, List.nil_append, integer?]
    · rw [none, Option.bind_none]
    · exact fun _ same => ne_of_isDigit digit (by decide) (List.cons.inj same).1
    · exact fun _ same => ne_of_isDigit digit (by decide) (List.cons.inj same).1

/-- No text of a float is only digits behind a zero. -/
theorem isPadded_float (x : Binary64) : isPadded (floats.render x) = false := by
  obtain ⟨c, rest, mark, same, -, -, inside, marks⟩ :=
    floats.exists_mark rfl (x.shortest floats.ties)
  have noDigit : mark.isDigit = false := by rcases marks with rfl | rfl <;> rfl
  rw [isPadded, floats.splitSign_render x, same]
  dsimp only
  split
  · rename_i next tail zero
    obtain ⟨-, rfl⟩ := List.cons.inj zero
    exact List.all_eq_false.mpr ⟨mark, inside, by simp [noDigit]⟩
  · rfl

/-- No float is written with a plus sign. -/
theorem withoutPlus?_float (x : Binary64) :
    withoutPlus? (floats.render x) = some (floats.render x) := by
  obtain ⟨first, tail, shape, begins⟩ := floats.render_starts x
  have noPlus : first ≠ '+' := by
    rintro rfl
    rcases begins with sign | digit
    · cases sign
    · cases digit
  rw [shape, withoutPlus?]
  · exact fun _ _ same => noPlus (List.cons.inj same).1
  · exact fun same => noPlus (List.cons.inj same).1

/-- The text of a float is read as the float. -/
theorem float?_render (x : Binary64) : float? (floats.render x) = some (.finite x) := by
  have starts := floats.render_starts x
  obtain ⟨c, rest, mark, same, digit, -⟩ := floats.exists_mark rfl (x.shortest floats.ties)
  -- Behind its sign a float has a digit, and no name has.
  have negative : ["-.inf", "-.Inf", "-.INF"].contains (String.ofList (floats.render x)) =
      false := by
    have points : ∀ word ∈ ["-.inf", "-.Inf", "-.INF"],
        (splitSign word.toList).2.head? = some '.' := by decide +kernel
    rw [Bool.eq_false_iff]
    intro named
    have pointed := points _ (List.contains_iff_mem.mp named)
    rw [String.toList_ofList, floats.splitSign_render x, same] at pointed
    exact ne_of_isDigit digit (by decide) (Option.some.inj pointed)
  rw [float?, withoutPlus?_float]
  dsimp only
  rw [contains_number starts (by decide +kernel), negative,
    contains_number starts (by decide +kernel), floats.read?_render rfl x]
  rfl

/-- The text of a float is that of the same float. -/
theorem readsBack (x : Binary64) : ReadsBack x := by
  have starts := floats.render_starts x
  have filled : (String.ofList (floats.render x)).isEmpty = false := by
    obtain ⟨c, rest, same, -⟩ := starts
    simp [same]
  have null : isNull (String.ofList (floats.render x)) = false :=
    contains_number starts (by decide +kernel)
  have boolean : boolean? (String.ofList (floats.render x)) = none := by
    rw [boolean?, contains_number starts (by decide +kernel),
      contains_number starts (by decide +kernel)]
    rfl
  -- A plain word is tried as null, as a truth value and as an integer before it is a float.
  rw [ReadsBack, Plain.ofText, filled, null, boolean, String.toList_ofList, integer?_float,
    isPadded_float, float?_render]
  rfl

end Yaml

end SyncStore
