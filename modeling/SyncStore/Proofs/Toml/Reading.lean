import SyncStore.Proofs.Reordering
import SyncStore.Proofs.Toml.Representable
import SyncStore.Proofs.Toml.RoundTrip

/-! Which TOML documents hold data, and what that data is up to the order of its members. -/

namespace SyncStore.Toml

/-- A value on one line holds a float that is not finite. -/
inductive Inline.HoldsNonFinite : Inline → Prop where
  | float {x : Real64} (special : ∀ y, x ≠ .finite y) : HoldsNonFinite (.float x)
  | array {items : List Inline} {item : Inline} (inside : item ∈ items)
    (holds : HoldsNonFinite item) : HoldsNonFinite (.array items)
  | table {entries : List (String × Inline)} {entry : String × Inline} (inside : entry ∈ entries)
    (holds : HoldsNonFinite entry.2) : HoldsNonFinite (.table entries)

/-- An item holds a float that is not finite, at any depth. -/
inductive Item.HoldsNonFinite : Item → Prop where
  | value {v : Inline} (holds : v.HoldsNonFinite) : HoldsNonFinite (.value v)
  | table {entries : List (String × Item)} {entry : String × Item} (inside : entry ∈ entries)
    (holds : HoldsNonFinite entry.2) : HoldsNonFinite (.table entries)
  | tables {elements : List (List (String × Item))} {entries : List (String × Item)}
    {entry : String × Item} (listed : entries ∈ elements) (inside : entry ∈ entries)
    (holds : HoldsNonFinite entry.2) : HoldsNonFinite (.tables elements)

/-- A document holds a float that is not finite among its items. -/
def HoldsNonFinite (document : Document) : Prop := ∃ entry ∈ document, entry.2.HoldsNonFinite

/-- Whatever is part of a row that was converted has been converted itself. -/
theorem exists_converted {α β : Type} {R : α → β → Prop} {whole : List α} {parts : List β}
    (row : List.Forall₂ R whole parts) {a : α} (inside : a ∈ whole) : ∃ b, R a b := by
  induction row with
  | nil => simp at inside
  | cons same row ih =>
    rcases List.mem_cons.mp inside with rfl | inside
    · exact ⟨_, same⟩
    · exact ih inside

/-- A value that holds a special float has no value. -/
theorem Inline.HoldsNonFinite.refused {v : Inline} (holds : v.HoldsNonFinite) (value : Value) :
    inlineValue v ≠ .ok value := by
  induction holds generalizing value with
  | @float x special =>
    rw [inlineValue]
    cases x with
    | finite y => exact absurd rfl (special y)
    | _ => simp [floatValue]
  | array inside holds ih =>
    rw [inlineValue]
    intro converted
    -- The items would all have values, and one of them has none.
    obtain ⟨values, row, -⟩ := map_eq_ok.mp converted
    obtain ⟨value, found⟩ := exists_converted (itemValues_eq_ok.mp row) inside
    exact ih value found
  | table inside holds ih =>
    rw [inlineValue]
    intro converted
    obtain ⟨members, row, -⟩ := map_eq_ok.mp converted
    obtain ⟨member, found⟩ := exists_converted (inlineEntries_eq_ok.mp row) inside
    exact ih member.2 found.2

/-- A table has no value when one of its entries has none. -/
theorem table_refused {entries : List (String × Item)} {entry : String × Item}
    (inside : entry ∈ entries) (refused : ∀ value, itemValue entry.2 ≠ .ok value) (value : Value) :
    itemValue (.table entries) ≠ .ok value := by
  rw [itemValue]
  intro converted
  -- Every entry of a table that has a value has one itself.
  obtain ⟨members, row, -⟩ := map_eq_ok.mp converted
  obtain ⟨member, found⟩ := exists_converted (entryValues_eq_ok.mp row) inside
  exact refused member.2 found.2

/-- An item that holds a special float has no value. -/
theorem Item.HoldsNonFinite.refused {item : Item} (holds : item.HoldsNonFinite) (value : Value) :
    itemValue item ≠ .ok value := by
  induction holds generalizing value with
  | value holds =>
    rw [itemValue]
    exact holds.refused value
  | table inside holds ih => exact table_refused inside ih value
  | tables listed inside holds ih =>
    rw [itemValue]
    intro converted
    -- Each table of the list would have a value, and one of them has none.
    obtain ⟨values, row, -⟩ := map_eq_ok.mp converted
    obtain ⟨value, found⟩ := exists_converted (elementValues_eq_ok.mp row) listed
    exact table_refused inside ih value found

/-- What holds of scalars, and of composites whose parts have it, holds on every line. -/
theorem Inline.parts_induction {motive : Inline → Prop} (string : ∀ s, motive (.string s))
    (integer : ∀ n, motive (.integer n)) (float : ∀ x, motive (.float x))
    (boolean : ∀ b, motive (.boolean b)) (datetime : ∀ text, motive (.datetime text))
    (array : ∀ items, (∀ item ∈ items, motive item) → motive (.array items))
    (table : ∀ entries, (∀ entry ∈ entries, motive entry.2) → motive (.table entries))
    (v : Inline) : motive v := by
  refine @Inline.rec motive (fun items => ∀ item ∈ items, motive item)
    (fun entries => ∀ entry ∈ entries, motive entry.2) (fun entry => motive entry.2)
    string integer float boolean datetime array table ?_ ?_ ?_ ?_ ?_ v
  · simp
  · exact fun first rest head tail => List.forall_mem_cons.mpr ⟨head, tail⟩
  · simp
  · exact fun first rest head tail => List.forall_mem_cons.mpr ⟨head, tail⟩
  · exact fun key value holds => holds

/-- What holds of values, and of sections whose entries have it, holds of every item. -/
theorem Item.parts_induction {motive : Item → Prop} (value : ∀ v, motive (.value v))
    (table : ∀ entries, (∀ entry ∈ entries, motive entry.2) → motive (.table entries))
    (tables : ∀ elements, (∀ entries ∈ elements, ∀ entry ∈ entries, motive entry.2) →
      motive (.tables elements))
    (item : Item) : motive item := by
  refine @Item.rec motive (fun entries => ∀ entry ∈ entries, motive entry.2)
    (fun elements => ∀ entries ∈ elements, ∀ entry ∈ entries, motive entry.2)
    (fun entry => motive entry.2) value table tables ?_ ?_ ?_ ?_ ?_ item
  · simp
  · exact fun first rest head tail => List.forall_mem_cons.mpr ⟨head, tail⟩
  · simp
  · exact fun first rest head tail => List.forall_mem_cons.mpr ⟨head, tail⟩
  · exact fun key item holds => holds

/-- A row can be converted when each of its parts can. -/
theorem exists_row {α β : Type} {R : α → β → Prop} {whole : List α}
    (converted : ∀ a ∈ whole, ∃ b, R a b) : ∃ parts, List.Forall₂ R whole parts := by
  induction whole with
  | nil => exact ⟨[], .nil⟩
  | cons a rest ih =>
    obtain ⟨⟨b, first⟩, others⟩ := List.forall_mem_cons.mp converted
    obtain ⟨parts, row⟩ := ih others
    exact ⟨b :: parts, .cons first row⟩

/-- Entries can be converted when what is under their keys can. -/
theorem exists_keyed_row {α β : Type} {f : α → Except StoreError β} {entries : List (String × α)}
    (converted : ∀ entry ∈ entries, ∃ b, f entry.2 = .ok b) :
    ∃ parts, List.Forall₂ (Keyed fun a b => f a = .ok b) entries parts := by
  refine exists_row fun entry inside => ?_
  obtain ⟨b, found⟩ := converted entry inside
  exact ⟨(entry.1, b), rfl, found⟩

/-- A value on one line whose floats are all finite has a value. -/
theorem exists_inlineValue {v : Inline} (finite : ¬ v.HoldsNonFinite) :
    ∃ value, inlineValue v = .ok value := by
  -- Only a float can be refused, so the induction looks for one in the parts.
  induction v using Inline.parts_induction with
  | float x =>
    cases x with
    | finite x => exact ⟨_, rfl⟩
    | _ => exact absurd (.float (by simp)) finite
  | array items ih =>
    -- No item holds what the array does not.
    obtain ⟨values, row⟩ := exists_row fun item inside =>
      ih item inside fun holds => finite (.array inside holds)
    exact ⟨.array values, by rw [inlineValue, itemValues_eq_ok.mpr row]; rfl⟩
  | table entries ih =>
    obtain ⟨members, row⟩ := exists_keyed_row fun entry inside =>
      ih entry inside fun holds => finite (.table inside holds)
    exact ⟨.object members, by rw [inlineValue, inlineEntries_eq_ok.mpr row]; rfl⟩
  | _ => exact ⟨_, by rw [inlineValue]⟩

/-- A table has a value when each of its entries has one. -/
theorem exists_tableValue {entries : List (String × Item)}
    (parts : ∀ entry ∈ entries, ∃ value, itemValue entry.2 = .ok value) :
    ∃ value, itemValue (.table entries) = .ok value := by
  obtain ⟨members, row⟩ := exists_keyed_row parts
  exact ⟨.object members, by rw [itemValue, entryValues_eq_ok.mpr row]; rfl⟩

/-- An item whose floats are all finite has a value. -/
theorem exists_itemValue {item : Item} (finite : ¬ item.HoldsNonFinite) :
    ∃ value, itemValue item = .ok value := by
  -- A part of the item holds no special float, because the item would hold it as well.
  induction item using Item.parts_induction with
  | value v =>
    obtain ⟨value, found⟩ := exists_inlineValue fun holds => finite (.value holds)
    exact ⟨value, by rw [itemValue, found]⟩
  | table entries ih =>
    exact exists_tableValue fun entry inside =>
      ih entry inside fun holds => finite (.table inside holds)
  | tables elements ih =>
    -- Every table of the list has a value, with all its entries.
    obtain ⟨values, row⟩ := exists_row fun entries listed =>
      exists_tableValue fun entry inside =>
        ih entries listed entry inside fun holds => finite (.tables listed inside holds)
    exact ⟨.array values, by rw [itemValue, elementValues_eq_ok.mpr row]; rfl⟩

/-- A document has no data exactly when one of its floats is not finite. -/
theorem toData_eq_error {document : Document} :
    (∃ error, toData document = .error error) ↔ HoldsNonFinite document := by
  constructor
  · rintro ⟨error, refused⟩
    by_contra finite
    -- Every entry would have a value, and so there would be data.
    obtain ⟨data, row⟩ := exists_keyed_row fun entry inside =>
      exists_itemValue fun holds => finite ⟨entry, inside, holds⟩
    have converted : toData document = .ok data := entryValues_eq_ok.mpr row
    rw [converted] at refused
    cases refused
  · rintro ⟨entry, inside, holds⟩
    cases converted : toData document with
    | error error => exact ⟨error, rfl⟩
    | ok data =>
      -- Data would have a value for the item that has none.
      obtain ⟨member, found⟩ := exists_converted (entryValues_eq_ok.mp converted) inside
      exact absurd found.2 (holds.refused member.2)

/-- A value as documents hold them is no null, and representable. -/
def Plain (value : Value) : Prop := value.isNull = false ∧ Representable value

/-- A word of a document is signed. -/
theorem SignedInt.isSigned_toWord (n : SignedInt) : n.toWord.isSigned = true :=
  decide_eq_true n.upper

/-- An array of plain values is plain. -/
theorem plain_array {items : List Value} (parts : ∀ item ∈ items, item.Throughout Plain) :
    (Value.array items).Throughout Plain :=
  Value.throughout_array.mpr ⟨⟨rfl, fun item inside => (parts item inside).here.1⟩, parts⟩

/-- An object of plain values is plain. -/
theorem plain_object {members : List (String × Value)}
    (parts : ∀ member ∈ members, member.2.Throughout Plain) :
    (Value.object members).Throughout Plain :=
  Value.throughout_object.mpr ⟨⟨rfl, trivial⟩, parts⟩

/-- Every value that is read from one line is plain throughout. -/
theorem plain_of_inlineValue {v : Inline} {value : Value} (found : inlineValue v = .ok value) :
    value.Throughout Plain := by
  induction v using Inline.parts_induction generalizing value with
  | float x =>
    rw [inlineValue] at found
    cases x with
    | finite x => cases found; exact ⟨rfl, trivial⟩
    | _ => cases found
  | array items ih =>
    rw [inlineValue] at found
    obtain ⟨values, row, rfl⟩ := map_eq_ok.mp found
    -- Each of the values comes from one of the items.
    exact plain_array (forall_mem_converted (itemValues_eq_ok.mp row)
      fun item inside value found => ih item inside found)
  | table entries ih =>
    rw [inlineValue] at found
    obtain ⟨members, row, rfl⟩ := map_eq_ok.mp found
    exact plain_object (forall_mem_converted (inlineEntries_eq_ok.mp row)
      fun entry inside member found => ih entry inside found.2)
  | integer n =>
    rw [inlineValue] at found
    cases found
    exact ⟨rfl, n.isSigned_toWord⟩
  | _ => rw [inlineValue] at found; cases found; exact ⟨rfl, trivial⟩

/-- A table is read as a plain value when each of its entries is. -/
theorem plain_of_tableValue {entries : List (String × Item)} {value : Value}
    (found : itemValue (.table entries) = .ok value)
    (parts : ∀ entry ∈ entries, ∀ {value : Value}, itemValue entry.2 = .ok value →
      value.Throughout Plain) :
    value.Throughout Plain := by
  rw [itemValue] at found
  obtain ⟨members, row, rfl⟩ := map_eq_ok.mp found
  -- Each of the members comes from one of the entries.
  exact plain_object (forall_mem_converted (entryValues_eq_ok.mp row)
    fun entry inside member found => parts entry inside found.2)

/-- Every value that is read from an item is plain throughout. -/
theorem plain_of_itemValue {item : Item} {value : Value} (found : itemValue item = .ok value) :
    value.Throughout Plain := by
  induction item using Item.parts_induction generalizing value with
  | value v =>
    rw [itemValue] at found
    exact plain_of_inlineValue found
  | table entries ih => exact plain_of_tableValue found ih
  | tables elements ih =>
    rw [itemValue] at found
    obtain ⟨values, row, rfl⟩ := map_eq_ok.mp found
    -- Each element of the list is read as the table that it is.
    exact plain_array (forall_mem_converted (elementValues_eq_ok.mp row)
      fun entries listed value found => plain_of_tableValue found (ih entries listed))

/-- A plain value loses nothing with its null members. -/
theorem withoutNulls_of_plain {value : Value} (plain : value.Throughout Plain) :
    withoutNulls value = value := by
  induction value using Value.parts_induction with
  | array items ih =>
    have parts := (Value.throughout_array.mp plain).2
    have same : items.map withoutNulls = items.map id :=
      List.map_congr_left fun item inside => ih item inside (parts item inside)
    rw [withoutNulls, itemsWithoutNulls_eq_map, same, List.map_id]
  | object members ih =>
    have parts := (Value.throughout_object.mp plain).2
    -- Every member is written, and keeps its value.
    have written : members.filter isWritten = members :=
      List.filter_eq_self.mpr fun member inside => by simp [isWritten, (parts member inside).here.1]
    have same : members.map (fun member => (member.1, withoutNulls member.2)) = members.map id :=
      List.map_congr_left fun member inside => by
        rw [ih member inside (parts member inside)]
        rfl
    rw [withoutNulls, membersWithoutNulls_eq_map, written, same, List.map_id]
  | _ => simp only [withoutNulls]

/-- The data of a document is plain throughout. -/
theorem plain_of_toData {document : Document} {data : Data}
    (converted : toData document = .ok data) : (Value.object data).Throughout Plain := by
  -- The document is read like any table.
  have table : itemValue (.table document) = .ok (.object data) := by
    rw [itemValue]
    exact map_eq_ok.mpr ⟨data, converted, rfl⟩
  exact plain_of_itemValue table

/-- The data of a document has no null members. -/
theorem membersWithoutNulls_of_toData {document : Document} {data : Data}
    (converted : toData document = .ok data) : membersWithoutNulls data = data := by
  have same := withoutNulls_of_plain (plain_of_toData converted)
  rw [withoutNulls] at same
  exact Value.object.inj same

/-- Putting the sections last keeps all members. -/
theorem sectionsLast_perm (members : List (String × Value)) :
    (sectionsLast members).Perm members :=
  List.perm_append_comm.trans (List.filter_append_perm _ members)

/-- A value is printed with all its members but the null ones, in some order. -/
theorem asPrinted_reordered (value : Value) : (asPrinted value).Reordered (withoutNulls value) := by
  induction value using Value.parts_induction with
  | array items ih =>
    rw [asPrinted, withoutNulls, itemsAsPrinted_eq_map, itemsWithoutNulls_eq_map]
    -- Only the tables of a list are reordered in themselves.
    split
    · exact .array (Value.reorderedItems_map ih)
    · exact .same _
  | object members ih =>
    rw [asPrinted, withoutNulls, membersAsPrinted_eq_map, membersWithoutNulls_eq_map]
    exact .object (sectionsLast_perm _) (Value.reorderedMembers_map fun member kept =>
      ih member (List.mem_of_mem_filter kept))
  | _ => simp only [asPrinted, withoutNulls]; exact .same _

/-- Data is printed with all its members but the null ones, in some order. -/
theorem dataAsPrinted_reordered (data : Data) :
    (Value.object (dataAsPrinted data)).Reordered (.object (membersWithoutNulls data)) := by
  have table := asPrinted_reordered (.object data)
  rwa [asPrinted, withoutNulls] at table

end SyncStore.Toml
