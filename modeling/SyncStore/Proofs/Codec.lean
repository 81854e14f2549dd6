import SyncStore.Proofs.Json.NestingLimit

/-! Stored text decodes to the value it was encoded from, up to the nesting limit of the reader. -/

namespace SyncStore

/--
A value is exact when nothing in it is lost by writing it out.

- `distinct`: no object in it repeats a key
- `floats`: every float in it reads back from its own text
-/
structure Value.Exact (value : Value) : Prop where
  distinct : value.Throughout Value.DistinctKeys
  floats : value.Throughout (Value.FloatSatisfies Binary64.ReadsBack)

namespace Json

/-- The text of an exact value is read in whole up to the nesting limit. -/
theorem read_compactText {value : Value} (exact : value.Exact) (nested : value.nesting ≤ maxDepth) :
    Json.read value.compactText = .ok value := by
  have stops : StopsNumber [] := by simp [StopsNumber]
  -- The reader takes three steps for every character, and nothing follows the value.
  have found := readValue_compact exact.distinct exact.floats nested
    (3 * (compact value).length + 1) [] (by omega) stops
  rw [List.append_nil] at found
  simp only [Json.read, Value.compactText, String.toList_ofList, readText, found, skipGap,
    List.dropWhile_nil, mapError_ok]

/-- The text of an exact value is refused beyond the nesting limit. -/
theorem read_compactText_tooDeep {value : Value} (exact : value.Exact)
    (nested : maxDepth < value.nesting) : ∃ fault, Json.read value.compactText = .error fault := by
  have stops : StopsNumber [] := by simp [StopsNumber]
  -- The text is that of the value wherever enough levels are left.
  have found := readValue_compact exact.distinct exact.floats (Nat.le_refl _)
    (3 * (compact value).length + 1) [] (by omega) stops
  have text : value.compactText.toList = compact value := by
    rw [Value.compactText, String.toList_ofList]
  rw [List.append_nil, ← text] at found
  exact read_tooDeep nested found

end Json

/-- An exact value within the nesting limit is decoded from its own text. -/
theorem decodeValue_encodeValue {value : Value} (exact : value.Exact)
    (nested : value.nesting ≤ Json.maxDepth) : decodeValue (encodeValue value) = value := by
  rw [encodeValue, decodeValue, Json.read_compactText exact nested]

/-- An exact value beyond the nesting limit is decoded as the string that was stored for it. -/
theorem decodeValue_encodeValue_tooDeep {value : Value} (exact : value.Exact)
    (nested : Json.maxDepth < value.nesting) :
    decodeValue (encodeValue value) = .string (encodeValue value) := by
  -- A refused text is no JSON text, so it is kept as a string.
  obtain ⟨fault, failed⟩ := Json.read_compactText_tooDeep exact nested
  rw [decodeValue, encodeValue, failed]

/-- A scalar other than a float is exact. -/
theorem Value.exact_scalar {value : Value} (scalar : value.nesting = 0)
    (floats : value.FloatSatisfies Binary64.ReadsBack) : value.Exact := by
  -- There are no keys in a scalar, and at most one float.
  cases value with
  | array items => simp [Value.nesting] at scalar
  | object members => simp [Value.nesting] at scalar
  | _ => exact ⟨trivial, floats⟩

/-- What was decoded repeats no key and lies within the nesting limit, whatever the text was. -/
theorem decodeValue_sound (raw : String) : Json.Sound Json.maxDepth (decodeValue raw) := by
  unfold decodeValue
  split
  · rename_i read
    exact Json.read_sound read
  · -- A text that is no JSON text decodes to a string.
    exact Json.sound_scalar rfl _

/--
The codec is exact up to 127 nested composites and keeps deeper values as their text.

Strings are never taken for other values, different values have different texts,
and decoding a text whose floats read back is not changed by storing its value again.
-/
theorem codec_exact_up_to_nesting_limit :
    (∀ value : Value, value.Exact →
      decodeValue (encodeValue value) =
        if value.nesting ≤ 127 then value else .string (encodeValue value)) ∧
    (∀ s, decodeValue (encodeValue (.string s)) = .string s) ∧
    (∀ left right : Value, left.Exact → right.Exact → left.nesting ≤ 127 → right.nesting ≤ 127 →
      encodeValue left = encodeValue right → left = right) ∧
    (∀ raw, (decodeValue raw).Throughout (Value.FloatSatisfies Binary64.ReadsBack) →
      decodeValue (encodeValue (decodeValue raw)) = decodeValue raw) := by
  refine ⟨fun value exact => ?_, fun s => ?_,
    fun left right leftExact rightExact shallow flat same => ?_, fun raw floats => ?_⟩
  · -- The nesting limit decides whether the text is read or kept.
    split
    · rename_i nested
      exact decodeValue_encodeValue exact nested
    · rename_i nested
      exact decodeValue_encodeValue_tooDeep exact (Nat.lt_of_not_le nested)
  · -- A string is a scalar, so its text is always read.
    exact decodeValue_encodeValue (Value.exact_scalar rfl trivial) (Nat.zero_le _)
  · -- Both values are what their common text decodes to.
    rw [← decodeValue_encodeValue leftExact shallow, same, decodeValue_encodeValue rightExact flat]
  · -- What was decoded lies within the limit, so it is read from its own text.
    have sound := decodeValue_sound raw
    exact decodeValue_encodeValue ⟨sound.distinct, floats⟩ sound.nested

/-- An object with numbers, texts and nested parts decodes from its own text. -/
theorem codec_exact_nested_object :
    let value : Value := .object
      [("port", .number (.int ⟨-5, by decide, by decide⟩)), ("5", .array [.string "5", .null])]
    value.Exact ∧ decodeValue (encodeValue value) = value ∧
      encodeValue value ≠ encodeValue .null := by
  intro value
  -- No key repeats, and there is no float.
  have exact : value.Exact := by
    refine ⟨?_, ?_⟩ <;> simp [value, Value.Throughout, Value.ThroughoutMembers,
      Value.ThroughoutItems, Value.DistinctKeys, Value.FloatSatisfies, OrderedMap.Distinct]
  have shallow : value.nesting ≤ 127 := by decide
  obtain ⟨roundTrip, _, injective, _⟩ := codec_exact_up_to_nesting_limit
  refine ⟨exact, (roundTrip value exact).trans (if_pos shallow), fun same => ?_⟩
  exact Value.noConfusion
    (injective value .null exact (Value.exact_scalar rfl trivial) shallow (by decide) same)

/-- A text that starts like a number and is read to its end decodes to that number. -/
theorem decodeValue_number {text : List Char} {n : Number} (starts : StartsNumber text)
    (read : Json.readSigned text = .ok (n, [])) :
    decodeValue (String.ofList text) = .number n := by
  -- The number is all that is read, so nothing is left behind it.
  simp only [decodeValue, Json.read, String.toList_ofList, Json.readText,
    Json.readValue_of_startsNumber starts, read, Except.map, Json.skipGap, List.dropWhile_nil,
    mapError_ok]

set_option maxRecDepth 8192 in
/-- The number 1e-24 is rounded more than once when it is read, so it does not survive storing. -/
theorem decodeValue_not_stable_on_floats :
    ¬∀ raw, decodeValue (encodeValue (decodeValue raw)) = decodeValue raw := by
  intro stable
  let first : Binary64 := ⟨false, 4247835366853742248, by decide⟩
  let second : Binary64 := ⟨false, 4247835366853742247, by decide⟩
  let text := ['1', '.', '0', '0', '0', '0', '0', '0', '0', '0', '0', '0', '0', '0', '0', '0', '0',
    '1', 'e', '-', '2', '4']
  have readFirst : Json.readSigned ['1', 'e', '-', '2', '4'] = .ok (.float first, []) := rfl
  have readSecond : Json.readSigned text = .ok (.float second, []) := rfl
  -- The first reading rounds the number, and the second one rounds what was printed.
  have decoded : decodeValue "1e-24" = .number (.float first) :=
    decodeValue_number ⟨'1', _, rfl, Or.inr rfl⟩ readFirst
  have printed : encodeValue (.number (.float first)) = String.ofList text := by
    have digits : Json.compact (.number (.float first)) = text := by decide +kernel
    rw [encodeValue, Value.compactText, digits]
  have again : decodeValue (String.ofList text) = .number (.float second) :=
    decodeValue_number ⟨'1', _, rfl, Or.inr rfl⟩ readSecond
  -- The text of the first float is read as the float below it.
  have same := stable "1e-24"
  rw [decoded, printed, again] at same
  exact absurd same (by simp [first, second])

end SyncStore
