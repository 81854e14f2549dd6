import SyncStore.Proofs.Except
import SyncStore.Proofs.Json.RoundTrip

/-! The nesting limit of the reader: what is read lies within it, and is the same without it. -/

namespace SyncStore.Json

/--
A value is sound for a depth when the reader could have read it there.

- `distinct`: no object in it repeats a key
- `nested`: it is nested no deeper than the depth
-/
structure Sound (depth : Nat) (value : Value) : Prop where
  distinct : value.Throughout Value.DistinctKeys
  nested : value.nesting ≤ depth

/-- An array of sound items is sound one level above them. -/
theorem Sound.array {depth : Nat} {items : List Value} (sound : ∀ item ∈ items, Sound depth item) :
    Sound (depth + 1) (.array items) where
  distinct := Value.throughout_array.mpr ⟨trivial, fun item member => (sound item member).distinct⟩
  nested := Nat.succ_le_succ
    (Value.nestingOfItems_le.mpr fun item member => (sound item member).nested)

/-- An object made of sound members is sound one level above them. -/
theorem Sound.object {depth : Nat} {members : List (String × Value)}
    (sound : ∀ member ∈ members, Sound depth member.2) :
    Sound (depth + 1) (.object (OrderedMap.ofEntries members)) where
  distinct := Value.throughout_object.mpr ⟨OrderedMap.distinct_ofEntries members,
    fun _ member => (sound _ (OrderedMap.mem_of_mem_ofEntries member)).distinct⟩
  nested := Nat.succ_le_succ (Value.nestingOfMembers_le.mpr
    fun _ member => (sound _ (OrderedMap.mem_of_mem_ofEntries member)).nested)

/-- What the readers answer within a number of steps is sound. -/
structure ReadsSound (steps : Nat) : Prop where
  value : ∀ {depth text value rest}, readValue steps depth text = .ok (value, rest) →
    Sound depth value
  items : ∀ {depth text items rest}, readItems steps depth text = .ok (items, rest) →
    ∀ item ∈ items, Sound depth item
  moreItems : ∀ {depth text items rest}, readMoreItems steps depth text = .ok (items, rest) →
    ∀ item ∈ items, Sound depth item
  members : ∀ {depth text members rest}, readMembers steps depth text = .ok (members, rest) →
    ∀ member ∈ members, Sound depth member.2
  moreMembers : ∀ {depth text members rest},
    readMoreMembers steps depth text = .ok (members, rest) →
    ∀ member ∈ members, Sound depth member.2

/-- A word is read as the value that it names. -/
theorem of_readWord_ok {word value : Value} {letters text rest : List Char}
    (read : readWord word letters text = .ok (value, rest)) : value = word := by
  induction letters generalizing text with
  | nil => exact (Prod.mk.inj (Except.ok.inj read)).1.symm
  | cons letter letters ih =>
    cases text with
    | nil => cases read
    | cons c text =>
      rw [readWord] at read
      -- Another letter is read on, and any other character fails.
      split at read
      · exact ih read
      · cases read

/-- Scalars are sound for every depth. -/
theorem sound_scalar {value : Value} (scalar : value.nesting = 0) (depth : Nat) :
    Sound depth value := by
  -- A composite has a nesting of its own, and in a scalar there are no keys.
  cases value with
  | array items => simp [Value.nesting] at scalar
  | object members => simp [Value.nesting] at scalar
  | _ => exact ⟨trivial, Nat.zero_le depth⟩

/-- One more step reads a sound value, by its first character. -/
theorem ReadsSound.readValue_succ {steps : Nat} (sound : ReadsSound steps) {depth : Nat}
    {text rest : List Char} {value : Value}
    (read : readValue (steps + 1) depth text = .ok (value, rest)) : Sound depth value := by
  rw [readValue] at read
  split at read
  · cases read
  · -- A word, a string and a number are scalars.
    exact sound_scalar (of_readWord_ok read ▸ rfl) depth
  · exact sound_scalar (of_readWord_ok read ▸ rfl) depth
  · exact sound_scalar (of_readWord_ok read ▸ rfl) depth
  · obtain ⟨_, _, same⟩ := map_eq_ok.mp read
    exact sound_scalar ((Prod.mk.inj same).1 ▸ rfl) depth
  · obtain ⟨_, _, same⟩ := map_eq_ok.mp read
    exact sound_scalar ((Prod.mk.inj same).1 ▸ rfl) depth
  · -- An array takes one level of the depth from its items.
    cases depth with
    | zero => cases read
    | succ depth =>
      obtain ⟨⟨items, left⟩, inner, same⟩ := map_eq_ok.mp read
      exact (Prod.mk.inj same).1 ▸ Sound.array (sound.items inner)
  · -- So does an object from its members.
    cases depth with
    | zero => cases read
    | succ depth =>
      obtain ⟨⟨members, left⟩, inner, same⟩ := map_eq_ok.mp read
      exact (Prod.mk.inj same).1 ▸ Sound.object (sound.members inner)
  · split at read
    · obtain ⟨_, _, same⟩ := map_eq_ok.mp read
      exact sound_scalar ((Prod.mk.inj same).1 ▸ rfl) depth
    · cases read

/-- One more step reads sound items, which are none or follow one another. -/
theorem ReadsSound.readItems_succ {steps : Nat} (sound : ReadsSound steps) {depth : Nat}
    {text rest : List Char} {items : List Value}
    (read : readItems (steps + 1) depth text = .ok (items, rest)) :
    ∀ item ∈ items, Sound depth item := by
  -- The array is cut off, or empty, or has a first item.
  rw [readItems] at read
  split at read
  · cases read
  · obtain ⟨rfl, rfl⟩ := Prod.mk.inj (Except.ok.inj read)
    simp
  · exact sound.moreItems read

/-- One more step reads a sound item, and sound items behind its comma. -/
theorem ReadsSound.readMoreItems_succ {steps : Nat} (sound : ReadsSound steps) {depth : Nat}
    {text rest : List Char} {items : List Value}
    (read : readMoreItems (steps + 1) depth text = .ok (items, rest)) :
    ∀ item ∈ items, Sound depth item := by
  rw [readMoreItems] at read
  cases first : readValue steps depth text with
  | error fault => simp [first] at read
  | ok found =>
    obtain ⟨item, left⟩ := found
    -- The first item is sound, and so are those behind a comma.
    have head := sound.value first
    simp only [first] at read
    split at read
    · cases read
    · obtain ⟨rfl, rfl⟩ := Prod.mk.inj (Except.ok.inj read)
      simpa using head
    · split at read
      · cases read
      · cases read
      · obtain ⟨⟨others, left⟩, later, same⟩ := map_eq_ok.mp read
        obtain ⟨rfl, rfl⟩ := Prod.mk.inj same
        exact List.forall_mem_cons.mpr ⟨head, sound.moreItems later⟩
    · cases read

/-- One more step reads sound members, which are none or follow one another. -/
theorem ReadsSound.readMembers_succ {steps : Nat} (sound : ReadsSound steps) {depth : Nat}
    {text rest : List Char} {members : List (String × Value)}
    (read : readMembers (steps + 1) depth text = .ok (members, rest)) :
    ∀ member ∈ members, Sound depth member.2 := by
  -- The object is cut off, or empty, or has a first key, or goes wrong.
  rw [readMembers] at read
  split at read
  · cases read
  · obtain ⟨rfl, rfl⟩ := Prod.mk.inj (Except.ok.inj read)
    simp
  · exact sound.moreMembers read
  · cases read

/-- One more step reads a sound member, and sound members behind its comma. -/
theorem ReadsSound.readMoreMembers_succ {steps : Nat} (sound : ReadsSound steps) {depth : Nat}
    {text rest : List Char} {members : List (String × Value)}
    (read : readMoreMembers (steps + 1) depth text = .ok (members, rest)) :
    ∀ member ∈ members, Sound depth member.2 := by
  rw [readMoreMembers] at read
  split at read
  · cases read
  split at read
  · cases read
  · split at read
    · cases read
    · rename_i first
      -- The first member is sound, and so are those behind a comma.
      have head := sound.value first
      split at read
      · cases read
      · obtain ⟨rfl, rfl⟩ := Prod.mk.inj (Except.ok.inj read)
        simpa using head
      · split at read
        · cases read
        · cases read
        · obtain ⟨⟨others, left⟩, later, same⟩ := map_eq_ok.mp read
          obtain ⟨rfl, rfl⟩ := Prod.mk.inj same
          exact List.forall_mem_cons.mpr ⟨head, sound.moreMembers later⟩
        · cases read
      · cases read
  · cases read

/-- The readers answer nothing but what is sound, however many steps they take. -/
theorem readsSound (steps : Nat) : ReadsSound steps := by
  -- The readers call each other with one step less, so all five are handed on together.
  induction steps with
  | zero =>
    constructor <;> intro _ _ _ _ read <;>
      simp [readValue, readItems, readMoreItems, readMembers, readMoreMembers, failAt] at read
  | succ steps sound =>
    exact ⟨sound.readValue_succ, sound.readItems_succ, sound.readMoreItems_succ,
      sound.readMembers_succ, sound.readMoreMembers_succ⟩

/-- A text that is read gives a value without repeated keys, nested within the limit. -/
theorem read_sound {text : String} {value : Value} (read : Json.read text = .ok value) :
    Sound maxDepth value := by
  unfold Json.read readText at read
  split at read
  · cases read
  · rename_i found
    split at read
    · -- Nothing but gaps stands behind the value.
      cases read
      exact (readsSound _).value found
    · cases read

/-- An attempt is kept up by another one that succeeds in the same way. -/
def KeptUp {α : Type} (before after : Except Fault α) : Prop :=
  ∀ answer, before = .ok answer → after = .ok answer

/-- An attempt keeps itself up. -/
theorem KeptUp.same {α : Type} (attempt : Except Fault α) : KeptUp attempt attempt :=
  fun _ found => found

/-- There is nothing to keep up about a failure. -/
theorem KeptUp.of_error {α : Type} (fault : Fault) (after : Except Fault α) :
    KeptUp (.error fault) after := by
  intro answer found
  cases found

/-- What is made of an answer is kept up with it. -/
theorem KeptUp.map {α β : Type} {before after : Except Fault α} (kept : KeptUp before after)
    (f : α → β) : KeptUp (before.map f) (after.map f) := by
  intro answer found
  obtain ⟨inner, read, rfl⟩ := map_eq_ok.mp found
  rw [kept inner read]
  rfl

/-- What the readers answer within a number of steps they also answer one level deeper. -/
structure ReadsDeeper (steps : Nat) : Prop where
  value : ∀ depth text, KeptUp (readValue steps depth text) (readValue steps (depth + 1) text)
  items : ∀ depth text, KeptUp (readItems steps depth text) (readItems steps (depth + 1) text)
  moreItems : ∀ depth text,
    KeptUp (readMoreItems steps depth text) (readMoreItems steps (depth + 1) text)
  members : ∀ depth text,
    KeptUp (readMembers steps depth text) (readMembers steps (depth + 1) text)
  moreMembers : ∀ depth text,
    KeptUp (readMoreMembers steps depth text) (readMoreMembers steps (depth + 1) text)

namespace ReadsDeeper

variable {steps : Nat} (deeper : ReadsDeeper steps) (depth : Nat) (text : List Char)
include deeper

/-- One more step reads the same value. -/
theorem readValue_succ :
    KeptUp (readValue (steps + 1) depth text) (readValue (steps + 1) (depth + 1) text) := by
  rw [readValue, readValue]
  split
  -- Only a composite asks for the depth that is left.
  case h_7 rest opened =>
    cases depth with
    | zero => exact .of_error _ _
    | succ depth => exact (deeper.items depth rest).map _
  case h_8 rest opened =>
    cases depth with
    | zero => exact .of_error _ _
    | succ depth => exact (deeper.members depth rest).map _
  all_goals exact .same _

/-- One more step reads the same items. -/
theorem readItems_succ :
    KeptUp (readItems (steps + 1) depth text) (readItems (steps + 1) (depth + 1) text) := by
  rw [readItems, readItems]
  split
  · exact .same _
  · exact .same _
  · exact deeper.moreItems depth _

/-- One more step reads the same first item, and the same items behind its comma. -/
theorem readMoreItems_succ :
    KeptUp (readMoreItems (steps + 1) depth text) (readMoreItems (steps + 1) (depth + 1) text) := by
  rw [readMoreItems, readMoreItems]
  cases first : readValue steps depth text with
  | error fault => exact .of_error _ _
  | ok found =>
    rw [deeper.value depth text found first]
    dsimp only
    -- The first item leaves the same rest, so both readers see the same comma or bracket.
    split
    · exact .same _
    · exact .same _
    · split
      · exact .same _
      · exact .same _
      · exact (deeper.moreItems depth _).map _
    · exact .same _

/-- One more step reads the same members. -/
theorem readMembers_succ :
    KeptUp (readMembers (steps + 1) depth text) (readMembers (steps + 1) (depth + 1) text) := by
  rw [readMembers, readMembers]
  split
  · exact .same _
  · exact .same _
  · exact deeper.moreMembers depth _
  · exact .same _

/-- One more step reads the same first member, and the same members behind its comma. -/
theorem readMoreMembers_succ :
    KeptUp (readMoreMembers (steps + 1) depth text)
      (readMoreMembers (steps + 1) (depth + 1) text) := by
  rw [readMoreMembers, readMoreMembers]
  -- Keys are no values, so they are read alike at every depth.
  split
  · exact .of_error _ _
  split
  · exact .of_error _ _
  · rename_i rest _
    cases first : readValue steps depth rest with
    | error fault => exact .of_error _ _
    | ok found =>
      rw [deeper.value depth rest found first]
      dsimp only
      split
      · exact .same _
      · exact .same _
      · split
        · exact .same _
        · exact .same _
        · exact (deeper.moreMembers depth _).map _
        · exact .same _
      · exact .same _
  · exact .of_error _ _

end ReadsDeeper

/-- The readers answer the same one level deeper, however many steps they take. -/
theorem readsDeeper (steps : Nat) : ReadsDeeper steps := by
  induction steps with
  | zero =>
    constructor <;> intro _ _ _ read <;>
      simp [readValue, readItems, readMoreItems, readMembers, readMoreMembers, failAt] at read
  | succ steps deeper =>
    exact ⟨deeper.readValue_succ, deeper.readItems_succ, deeper.readMoreItems_succ,
      deeper.readMembers_succ, deeper.readMoreMembers_succ⟩

/-- A value that is read is also read where more levels are left. -/
theorem readValue_of_le {steps depth more : Nat} (within : depth ≤ more) (text : List Char) :
    KeptUp (readValue steps depth text) (readValue steps more text) := by
  induction within with
  | refl => exact .same _
  | step _ ih => exact fun answer found => (readsDeeper steps).value _ text answer (ih answer found)

/-- A text is refused when it could only be read as a value that is nested beyond the limit. -/
theorem read_tooDeep {text : String} {value : Value} {depth : Nat} {rest : List Char}
    (deep : maxDepth < value.nesting)
    (found : readValue (3 * text.toList.length + 1) depth text.toList = .ok (value, rest)) :
    ∃ error, Json.read text = .error error := by
  cases read : Json.read text with
  | error error => exact ⟨error, rfl⟩
  | ok other =>
    exfalso
    -- Both are read where enough levels are left, so they are the same.
    have nested := (read_sound read).nested
    unfold Json.read readText at read
    split at read
    · cases read
    · rename_i shallow
      have same := (readValue_of_le (Nat.le_max_left depth maxDepth) _ _ found).symm.trans
        (readValue_of_le (Nat.le_max_right depth maxDepth) _ _ shallow)
      obtain ⟨rfl, -⟩ := Prod.mk.inj (Except.ok.inj same)
      split at read
      · cases read
        omega
      · cases read

end SyncStore.Json
