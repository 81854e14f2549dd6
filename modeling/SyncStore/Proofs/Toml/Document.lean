import SyncStore.Proofs.OrderedMap
import SyncStore.Proofs.Toml.Scalar

/-! Sound documents are those that the reader accepts, and it gives them back in printed order. -/

namespace SyncStore.Toml

/-- A value is sound for a depth when its text is accepted with that many levels left. -/
inductive Inline.Sound : Nat → Inline → Prop where
  | string {depth : Nat} (s : String) : Sound depth (.string s)
  | integer {depth : Nat} (n : SignedInt) : Sound depth (.integer n)
  | float {depth : Nat} {x : Binary64} (back : ReadsBack x) : Sound depth (.float (.finite x))
  | boolean {depth : Nat} (b : Bool) : Sound depth (.boolean b)
  | array {depth : Nat} {items : List Inline} (sound : ∀ item ∈ items, Sound depth item) :
    Sound (depth + 1) (.array items)
  | table {depth : Nat} {entries : List (String × Inline)} (distinct : OrderedMap.Distinct entries)
    (sound : ∀ entry ∈ entries, Sound depth entry.2) : Sound (depth + 1) (.table entries)

/--
An item is sound for a depth when its headers are accepted with that many more keys.

The depth of a value starts anew, and a list of tables is never empty.
-/
inductive Item.Sound : Nat → Item → Prop where
  | value {depth : Nat} {v : Inline} (sound : v.Sound maxDepth) : Sound depth (.value v)
  | table {depth : Nat} {entries : List (String × Item)} (distinct : OrderedMap.Distinct entries)
    (sound : ∀ entry ∈ entries, Sound depth entry.2) : Sound (depth + 1) (.table entries)
  | tables {depth : Nat} {elements : List (List (String × Item))} (nonempty : elements ≠ [])
    (distinct : ∀ entries ∈ elements, OrderedMap.Distinct entries)
    (sound : ∀ entries ∈ elements, ∀ entry ∈ entries, Sound depth entry.2) :
    Sound (depth + 1) (.tables elements)

/--
The entries of a table are sound for a depth when no key is repeated and each item is sound.
-/
structure SoundEntries (depth : Nat) (entries : List (String × Item)) : Prop where
  distinct : OrderedMap.Distinct entries
  sound : ∀ entry ∈ entries, entry.2.Sound depth

/-- A table is sound when its entries are, with one key less. -/
theorem Item.sound_table {depth : Nat} {entries : List (String × Item)}
    (sound : Item.Sound depth (.table entries)) :
    ∃ fewer, depth = fewer + 1 ∧ SoundEntries fewer entries := by
  cases sound with
  | table distinct sound => exact ⟨_, rfl, distinct, sound⟩

/-- A list of tables is sound when the entries of each are, with one key less. -/
theorem Item.sound_tables {depth : Nat} {elements : List (List (String × Item))}
    (sound : Item.Sound depth (.tables elements)) :
    ∃ fewer, depth = fewer + 1 ∧ elements ≠ [] ∧
      ∀ entries ∈ elements, SoundEntries fewer entries := by
  cases sound with
  | tables nonempty distinct sound =>
    exact ⟨_, rfl, nonempty, fun entries member => ⟨distinct entries member, sound entries member⟩⟩

/-- The values among the entries of a table. -/
def valuesOf : List (String × Item) → List (String × Inline)
  | [] => []
  | (key, .value v) :: rest => (key, v) :: valuesOf rest
  | _ :: rest => valuesOf rest

/-- A value is an item of its own. -/
def valueItem (entry : String × Inline) : String × Item := (entry.1, .value entry.2)

mutual

/-- The sections among the entries of a table in printed order. -/
def printedSections : List (String × Item) → List (String × Item)
  | [] => []
  | (_, .value _) :: rest => printedSections rest
  | (key, .table entries) :: rest =>
    (key, .table ((valuesOf entries).map valueItem ++ printedSections entries)) ::
      printedSections rest
  | (key, .tables elements) :: rest =>
    (key, .tables (printedElements elements)) :: printedSections rest

/-- The tables of a list in printed order. -/
def printedElements : List (List (String × Item)) → List (List (String × Item))
  | [] => []
  | entries :: rest =>
    ((valuesOf entries).map valueItem ++ printedSections entries) :: printedElements rest

end

/-- A table is printed with its values first and its sections after them. -/
def printed (entries : List (String × Item)) : List (String × Item) :=
  (valuesOf entries).map valueItem ++ printedSections entries

/-- Tables and lists of tables are sections. -/
def Item.isSection : Item → Bool
  | .value _ => false
  | .table _ => true
  | .tables _ => true

/-- An item with its tables in printed order. -/
def Item.asPrinted : Item → Item
  | .value v => .value v
  | .table entries => .table (printed entries)
  | .tables elements => .tables (elements.map printed)

/-- An entry with the tables of its item in printed order. -/
def entryAsPrinted (entry : String × Item) : String × Item := (entry.1, entry.2.asPrinted)

/-- Every table of a list is put in printed order. -/
theorem printedElements_eq_map (elements : List (List (String × Item))) :
    printedElements elements = elements.map printed := by
  induction elements with
  | nil => rw [printedElements, List.map_nil]
  | cons entries rest ih => rw [printedElements, ih, List.map_cons, printed]

/-- The values of a table are those of its entries that are no sections. -/
theorem valuesOf_eq_filter (entries : List (String × Item)) :
    (valuesOf entries).map valueItem =
      (entries.map entryAsPrinted).filter fun entry => !entry.2.isSection := by
  induction entries with
  | nil => rfl
  | cons entry rest ih =>
    obtain ⟨key, item⟩ := entry
    cases item with
    -- A value is kept, and a section is left to the others.
    | value v =>
      rw [valuesOf, List.map_cons, List.map_cons, ih, List.filter_cons_of_pos rfl]
      rfl
    | table entries =>
      rw [valuesOf, ih, List.map_cons, List.filter_cons_of_neg Bool.false_ne_true]
      simp
    | tables elements =>
      rw [valuesOf, ih, List.map_cons, List.filter_cons_of_neg Bool.false_ne_true]
      simp

/-- The sections of a table are its entries that are sections, printed in their turn. -/
theorem printedSections_eq_filter (entries : List (String × Item)) :
    printedSections entries =
      (entries.map entryAsPrinted).filter fun entry => entry.2.isSection := by
  induction entries with
  | nil => rw [printedSections, List.map_nil, List.filter_nil]
  | cons entry rest ih =>
    obtain ⟨key, item⟩ := entry
    cases item with
    -- A value is left out, and a section is printed in its turn.
    | value v => rw [printedSections, ih, List.map_cons, List.filter_cons_of_neg Bool.false_ne_true]
    | table entries =>
      rw [printedSections, ih, List.map_cons, List.filter_cons_of_pos rfl]
      rfl
    | tables elements =>
      rw [printedSections, ih, printedElements_eq_map, List.map_cons, List.filter_cons_of_pos rfl]
      rfl

end SyncStore.Toml
