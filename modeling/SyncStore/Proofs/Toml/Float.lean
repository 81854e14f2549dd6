import SyncStore.Proofs.Decimal.Rendered
import SyncStore.Proofs.Toml.Scalar

/-! Every finite float is read back from its own text. -/

namespace SyncStore.Toml

/-- Digits around a point are read as a float. -/
theorem number?_aroundPoint {text whole back : List Char} (around : AroundPoint text whole back)
    (negative : Bool) {x : Binary64}
    (read : Real64.read? ((if negative then ['-'] else []) ++ text) = some (.finite x)) :
    number? negative text = some (.float (.finite x)) := by
  -- Neither a digit nor the point marks an exponent.
  have unmarked : ∀ c ∈ text, marksExponent c = false := by
    intro c inside
    rw [around.is, List.mem_append, List.mem_cons] at inside
    rcases inside with front | rfl | behind
    · exact marksExponent_of_isDigit (around.front c front)
    · rfl
    · exact marksExponent_of_isDigit (around.back c behind)
  have pointless : ∀ c ∈ whole, decide (c ≠ '.') = true := by
    rintro c inside
    refine decide_eq_true ?_
    rintro rfl
    cases around.front _ inside
  have mantissa : text.takeWhile (!marksExponent ·) = text :=
    List.takeWhile_eq_self_iff.mpr fun c inside => by simp [unmarked c inside]
  have exponent : text.dropWhile (!marksExponent ·) = [] :=
    List.dropWhile_eq_nil_iff.mpr fun c inside => by simp [unmarked c inside]
  have front : text.takeWhile (· ≠ '.') = whole := by
    rw [around.is, List.takeWhile_append_of_pos pointless, List.takeWhile_cons_of_neg (by simp),
      List.append_nil]
  have behind : text.dropWhile (· ≠ '.') = '.' :: back := by
    rw [around.is, List.dropWhile_append_of_pos pointless, List.dropWhile_cons_of_neg (by simp)]
  have unpadded : (whole.head? = some '0' && whole.length ≠ 1) = false := by
    by_cases zero : whole.head? = some '0'
    · simp [around.leads zero]
    · simp [zero]
  have pointed : text.any (fun c => c = '.' || marksExponent c) = true := by
    rw [around.is]
    simp
  rw [number?, pointed, if_pos rfl, float?]
  simp only [mantissa, exponent, front, behind, wholeDigits?, unpadded,
    ungrouped?_digits around.starts around.front, fraction?,
    ungrouped?_digits around.ends around.back, exponent?, Option.map_some, Option.getD_some,
    Option.map_none, Option.getD_none, List.append_nil, ← around.is, read, Option.bind_eq_bind,
    Option.bind_some, Bool.false_eq_true, ↓reduceIte]

/-- Digits around a point make a number, under a sign or without one. -/
theorem unquoted?_aroundPoint {text whole back : List Char}
    (around : AroundPoint text whole back) (negative : Bool) :
    unquoted? ((if negative then ['-'] else []) ++ text) = number? negative text := by
  obtain ⟨c, rest, rfl⟩ := List.exists_cons_of_ne_nil around.starts
  have digit := around.front c List.mem_cons_self
  have other : ∀ letter, letter.isDigit = false → c ≠ letter := fun _ => ne_of_isDigit digit
  have noSign : splitSign text = (false, text) := by
    rw [around.is, List.cons_append, splitSign]
    · exact fun _ same => other '-' rfl (List.cons.inj same).1
    · exact fun _ same => other '+' rfl (List.cons.inj same).1
  -- Behind its first digits a number goes on with its point, and not as a date or a time does.
  have noDatetime : isDatetime text = false := by
    rw [isDatetime, around.is, dropWhile_digits around.front (noDigitAhead_point back)]
    rfl
  cases negative with
  | true =>
    rw [if_pos rfl, around.is, List.singleton_append, List.cons_append, unquoted?]
    · simp [splitSign, digit, other 'i' rfl, other 'n' rfl]
    -- A sign is not the zero in front of a base.
    all_goals exact fun tail same => by cases (List.cons.inj same).1
  | false =>
    rw [if_neg Bool.false_ne_true, List.nil_append]
    rw [around.is, List.cons_append] at noSign noDatetime ⊢
    rw [unquoted?]
    · simp [noSign, noDatetime, digit, other 't' rfl, other 'f' rfl, other 'i' rfl, other 'n' rfl]
    -- A leading zero stands alone in front of the point.
    all_goals
      rintro tail same
      obtain ⟨rfl, next⟩ := List.cons.inj same
      obtain rfl := (List.cons.inj (around.leads rfl)).2
      cases next

/-- The text of a float is that of the same float. -/
theorem readsBack (x : Binary64) : ReadsBack x := by
  have read := floats.read?_render rfl x
  -- Without exponents the digits of a float stand around a point.
  obtain ⟨whole, back, around, -⟩ :=
    (floats.magnitude_cases rfl (x.shortest floats.ties)).resolve_right fun far => by
      cases far.1
  rw [ReadsBack, FloatLayout.render, unquoted?_aroundPoint around]
  exact number?_aroundPoint around x.negative read

end SyncStore.Toml
