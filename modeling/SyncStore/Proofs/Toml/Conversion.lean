import SyncStore.Proofs.Except
import SyncStore.Proofs.Toml.Document
import SyncStore.Proofs.Toml.Printed

/-! Data as it is printed and the printed document are converted to each other. -/

namespace SyncStore.Toml

/-- Entries match when they have the same key and what is under it matches. -/
def Keyed {α β : Type} (R : α → β → Prop) (left : String × α) (right : String × β) : Prop :=
  left.1 = right.1 ∧ R left.2 right.2

/-- The items of an array are written inline one by one. -/
theorem inlineItems_eq_ok {items : List Value} {forms : List Inline} :
    inlineItems items = .ok forms ↔
      List.Forall₂ (fun item form => inlineOf item = .ok form) items forms := by
  -- A row of items converts when its first one does and so do the others.
  refine full_row_eq_ok (by rw [inlineItems]) fun item rest forms => ?_
  rw [inlineItems]
  cases inlineOf item <;> simp [map_eq_ok]

/-- The members of an object that are not null are written inline one by one. -/
theorem inlineMembers_eq_ok {members : List (String × Value)} {entries : List (String × Inline)} :
    inlineMembers members = .ok entries ↔
      List.Forall₂ (Keyed fun value form => inlineOf value = .ok form)
        (members.filter isWritten) entries := by
  apply row_eq_ok
  · -- No members make no entries.
    rw [inlineMembers]
  · -- A null is passed over.
    rintro ⟨key, value⟩ rest
    cases value <;> simp [isWritten, Value.isNull, inlineMembers]
  · -- Any other value makes an entry under its key, or its fault is that of the row.
    rintro ⟨key, value⟩ rest entries written
    rw [inlineMembers]
    · cases found : inlineOf value <;> simp [map_eq_ok, Keyed, found]
    · rintro rfl
      cases written

/-- A value that is no section is written on one line, if it is written at all. -/
theorem itemOf_of_not_section {value : Value} (written : value.isNull = false)
    (line : isSection value = false) :
    itemOf value = (inlineOf value).map fun form => some (.value form) := by
  cases value with
  | null => cases written
  | object members => cases line
  -- An array that is no list of tables is written on one line.
  | array items =>
    rw [isSection] at line
    rw [itemOf, line, inlineOf]
    cases inlineItems items <;> rfl
  | bool b => rw [itemOf, inlineOf]; rfl
  | number n => rw [itemOf, inlineOf]
  | string s => rw [itemOf, inlineOf]; rfl

/-- Only null has no item. -/
theorem isNull_of_itemOf {value : Value} (none : itemOf value = .ok none) :
    value.isNull = true := by
  by_contra written
  have written : value.isNull = false := by simpa using written
  cases place : isSection value with
  -- A written value on one line has an item.
  | false =>
    rw [itemOf_of_not_section written place] at none
    obtain ⟨_, _, impossible⟩ := map_eq_ok.mp none
    cases impossible
  -- So has a table, and so has a list of tables.
  | true =>
    cases value with
    | object members =>
      rw [itemOf] at none
      obtain ⟨_, _, impossible⟩ := map_eq_ok.mp none
      cases impossible
    | array items =>
      rw [isSection] at place
      rw [itemOf, place, if_pos rfl] at none
      obtain ⟨_, _, impossible⟩ := map_eq_ok.mp none
      cases impossible
    | _ => cases place

/-- The members of a table that are not null become items one by one. -/
theorem tableOf_eq_ok {members : List (String × Value)} {entries : List (String × Item)} :
    tableOf members = .ok entries ↔
      List.Forall₂ (Keyed fun value item => itemOf value = .ok (some item))
        (members.filter isWritten) entries := by
  apply row_eq_ok
  · rw [tableOf]
  · rintro ⟨key, value⟩ rest
    cases value <;> simp [isWritten, Value.isNull, tableOf, itemOf]
  · rintro ⟨key, value⟩ rest entries written
    rw [tableOf]
    cases found : itemOf value with
    | error e => simp [Keyed, found]
    | ok item =>
      cases item with
      -- Only null has no item, and null is not written.
      | none =>
        rw [isWritten, isNull_of_itemOf found] at written
        cases written
      | some item => simp [map_eq_ok, Keyed, found]

/-- The objects among some values become tables one by one. -/
theorem tablesOf_eq_ok {items : List Value} {elements : List (List (String × Item))} :
    tablesOf items = .ok elements ↔
      List.Forall₂ (fun item entries => itemOf item = .ok (some (.table entries)))
        (items.filter Value.isObject) elements := by
  apply row_eq_ok
  · rw [tablesOf]
  · intro item rest
    -- An item that is no object is passed over.
    cases item <;> simp [Value.isObject, tablesOf]
  · intro item rest elements object
    -- An object converts as a table does.
    cases item with
    | object members =>
      rw [tablesOf]
      cases found : tableOf members <;> simp [map_eq_ok, itemOf, found]
    | _ => cases object

/-- The items of an inline array have their values one by one. -/
theorem itemValues_eq_ok {forms : List Inline} {values : List Value} :
    itemValues forms = .ok values ↔
      List.Forall₂ (fun form value => inlineValue form = .ok value) forms values := by
  refine full_row_eq_ok (by rw [itemValues]) fun form rest values => ?_
  rw [itemValues]
  cases inlineValue form <;> simp [map_eq_ok]

/-- The entries of an inline table have their values one by one. -/
theorem inlineEntries_eq_ok {entries : List (String × Inline)} {members : List (String × Value)} :
    inlineEntries entries = .ok members ↔
      List.Forall₂ (Keyed fun form value => inlineValue form = .ok value) entries members := by
  -- An entry keeps its key while its form becomes a value.
  refine full_row_eq_ok (by rw [inlineEntries]) fun entry rest members => ?_
  rw [inlineEntries]
  cases found : inlineValue entry.2 <;> simp [map_eq_ok, Keyed, found]

/-- The entries of a table have their values one by one. -/
theorem entryValues_eq_ok {entries : List (String × Item)} {members : List (String × Value)} :
    entryValues entries = .ok members ↔
      List.Forall₂ (Keyed fun item value => itemValue item = .ok value) entries members := by
  refine full_row_eq_ok (by rw [entryValues]) fun entry rest members => ?_
  rw [entryValues]
  cases found : itemValue entry.2 <;> simp [map_eq_ok, Keyed, found]

/-- The tables of a list have their values one by one. -/
theorem elementValues_eq_ok {elements : List (List (String × Item))} {values : List Value} :
    elementValues elements = .ok values ↔
      List.Forall₂ (fun entries value => itemValue (.table entries) = .ok value)
        elements values := by
  refine full_row_eq_ok (by rw [elementValues]) fun entries rest values => ?_
  rw [elementValues]
  -- The entries of an element become the members of one object.
  cases found : entryValues entries <;> simp [map_eq_ok, itemValue, found]

/-- A value matches an inline form when each is converted to the other. -/
structure MatchesInline (value : Value) (form : Inline) : Prop where
  converts : inlineOf value = .ok form
  back : inlineValue form = .ok value

/-- A value matches an item when each is converted to the other. -/
structure MatchesItem (value : Value) (item : Item) : Prop where
  converts : itemOf value = .ok (some item)
  back : itemValue item = .ok value

/-- A value that matches anything is written. -/
theorem MatchesInline.written {value : Value} {form : Inline} (same : MatchesInline value form) :
    value.isNull = false := by
  -- A null has no inline form.
  have form := same.converts
  cases value with
  | null => rw [inlineOf] at form; cases form
  | _ => rfl

/-- A value that matches anything is written. -/
theorem MatchesItem.written {value : Value} {item : Item} (same : MatchesItem value item) :
    value.isNull = false := by
  -- A null is no item either.
  have item := same.converts
  cases value with
  | null => rw [itemOf] at item; cases item
  | _ => rfl

/-- Members that match entries are all written. -/
theorem filter_isWritten {β : Type} {R : Value → β → Prop}
    (written : ∀ {value : Value} {form : β}, R value form → value.isNull = false)
    {members : List (String × Value)} {entries : List (String × β)}
    (parts : List.Forall₂ (Keyed R) members entries) : members.filter isWritten = members := by
  -- Each member matches something, so none of them is a null.
  induction parts with
  | nil => rfl
  | cons same parts ih =>
    rw [List.filter_cons_of_pos, ih]
    rw [isWritten, written same.2]
    rfl

/-- Arrays match when their items do. -/
theorem matchesInline_array {items : List Value} {forms : List Inline}
    (parts : List.Forall₂ MatchesInline items forms) :
    MatchesInline (.array items) (.array forms) where
  converts := by
    -- The items convert because each of them does.
    rw [inlineOf, inlineItems_eq_ok.mpr (parts.imp fun _ _ same => same.converts)]
    rfl
  back := by
    -- Read the other way, each form gives its item back.
    have flipped : List.Forall₂ (fun form value => MatchesInline value form) forms items :=
      parts.flip
    rw [inlineValue, itemValues_eq_ok.mpr (flipped.imp fun _ _ same => same.back)]
    rfl

/-- An object matches an inline table when its members match the entries. -/
theorem matchesInline_object {members : List (String × Value)} {entries : List (String × Inline)}
    (parts : List.Forall₂ (Keyed MatchesInline) members entries) :
    MatchesInline (.object members) (.table entries) where
  converts := by
    -- No member is a null, so each makes one entry.
    have row : inlineMembers members = .ok entries := by
      rw [inlineMembers_eq_ok, filter_isWritten MatchesInline.written parts]
      exact parts.imp fun _ _ same => ⟨same.1, same.2.converts⟩
    rw [inlineOf, row]
    rfl
  back := by
    -- Read the other way, each entry gives its member back.
    have flipped : List.Forall₂ (fun entry member => Keyed MatchesInline member entry)
        entries members := parts.flip
    rw [inlineValue,
      inlineEntries_eq_ok.mpr (flipped.imp fun _ _ same => ⟨same.1.symm, same.2.back⟩)]
    rfl

/-- A number that TOML can represent matches its form. -/
theorem matchesInline_number {n : Number} {form : Inline} (converted : inlineNumber n = .ok form) :
    MatchesInline (.number n) form := by
  refine ⟨by rw [inlineOf, converted], ?_⟩
  cases n with
  | float x =>
    rw [inlineNumber] at converted
    cases converted
    rfl
  | int n =>
    rw [inlineNumber] at converted
    rw [SignedInt.ofInt?] at converted
    split at converted
    · -- The word that fits has the same value, so that it is the same number.
      rename_i fits
      split at fits
      · cases fits
        cases converted
        rfl
      · cases fits
    · cases converted

/-- A value that is written on one line matches its form when its null members are gone. -/
theorem matchesInline_withoutNulls {value : Value} {form : Inline}
    (converted : inlineOf value = .ok form) : MatchesInline (withoutNulls value) form := by
  induction value using Value.parts_induction generalizing form with
  | null => rw [inlineOf] at converted; cases converted
  | bool b =>
    rw [inlineOf] at converted
    cases converted
    exact ⟨by simp only [withoutNulls, inlineOf], by simp only [inlineValue, withoutNulls]⟩
  | number n =>
    rw [inlineOf] at converted
    simp only [withoutNulls]
    exact matchesInline_number converted
  | string s =>
    rw [inlineOf] at converted
    cases converted
    exact ⟨by simp only [withoutNulls, inlineOf], by simp only [inlineValue, withoutNulls]⟩
  | array items ih =>
    rw [inlineOf] at converted
    obtain ⟨forms, row, rfl⟩ := map_eq_ok.mp converted
    -- The items match one by one, and so do the arrays.
    have parts := (List.forall₂_and_left _ _).mpr ⟨ih, inlineItems_eq_ok.mp row⟩
    rw [withoutNulls, itemsWithoutNulls_eq_map]
    exact matchesInline_array
      (List.forall₂_map_left_iff.mpr (parts.imp fun _ _ both => both.1 both.2))
  | object members ih =>
    rw [inlineOf] at converted
    obtain ⟨entries, row, rfl⟩ := map_eq_ok.mp converted
    -- The members that are kept match one by one, and so do the objects.
    have kept : ∀ member ∈ members.filter isWritten, _ := fun member kept =>
      @ih member (List.mem_of_mem_filter kept)
    have parts := (List.forall₂_and_left _ _).mpr ⟨kept, inlineMembers_eq_ok.mp row⟩
    rw [withoutNulls, membersWithoutNulls_eq_map]
    exact matchesInline_object (List.forall₂_map_left_iff.mpr
      (parts.imp fun _ _ both => ⟨both.2.1, both.1 both.2.2⟩))

/-- A value becomes an item on one line, as a table or as a list of tables. -/
inductive Becomes : Value → Item → Prop where
  | line {value : Value} {form : Inline} (line : isSection value = false)
    (converted : inlineOf value = .ok form) : Becomes value (.value form)
  | table {members : List (String × Value)} {entries : List (String × Item)}
    (converted : tableOf members = .ok entries) : Becomes (.object members) (.table entries)
  | tables {items : List Value} {elements : List (List (String × Item))}
    (list : isTableList items = true) (converted : tablesOf items = .ok elements) :
    Becomes (.array items) (.tables elements)

/-- There is no other way to convert a value to an item. -/
theorem becomes_of_itemOf {value : Value} {item : Item}
    (converted : itemOf value = .ok (some item)) : Becomes value item := by
  cases place : isSection value with
  | false =>
    -- Null becomes nothing.
    have written : value.isNull = false := by
      cases value with
      | null => rw [itemOf] at converted; cases converted
      | _ => rfl
    rw [itemOf_of_not_section written place] at converted
    obtain ⟨form, found, same⟩ := map_eq_ok.mp converted
    cases same
    exact .line place found
  | true =>
    cases value with
    -- A section is an object or an array of objects.
    | object members =>
      rw [itemOf] at converted
      obtain ⟨entries, found, same⟩ := map_eq_ok.mp converted
      cases same
      exact .table found
    | array items =>
      rw [isSection] at place
      rw [itemOf, place, if_pos rfl] at converted
      obtain ⟨elements, found, same⟩ := map_eq_ok.mp converted
      cases same
      exact .tables place found
    | _ => cases place

/-- The item of a value is a section when the value is printed as one. -/
theorem isSection_of_itemOf {value : Value} {item : Item}
    (converted : itemOf value = .ok (some item)) : isSection value = item.isSection := by
  -- What a value becomes tells how it was laid out.
  cases becomes_of_itemOf converted with
  | line line => exact line
  | table => rfl
  | tables list => exact list

/-- Only an object becomes a table. -/
theorem isObject_of_itemOf {value : Value} {entries : List (String × Item)}
    (converted : itemOf value = .ok (some (.table entries))) : value.isObject = true := by
  cases becomes_of_itemOf converted with
  | table => rfl

/-- A value on one line matches its item. -/
theorem matchesItem_line {value : Value} {form : Inline} (same : MatchesInline value form)
    (line : isSection value = false) : MatchesItem value (.value form) where
  converts := by
    rw [itemOf_of_not_section same.written line, same.converts]
    rfl
  back := by rw [itemValue, same.back]

/-- Members and entries that match are each converted to the other. -/
theorem convert_of_matches {members : List (String × Value)} {entries : List (String × Item)}
    (parts : List.Forall₂ (Keyed MatchesItem) members entries) :
    tableOf members = .ok entries ∧ entryValues entries = .ok members := by
  constructor
  · -- No member is a null, so each makes one entry.
    rw [tableOf_eq_ok, filter_isWritten MatchesItem.written parts]
    exact parts.imp fun _ _ same => ⟨same.1, same.2.converts⟩
  · -- Read the other way, each entry gives its member back.
    have flipped : List.Forall₂ (fun entry member => Keyed MatchesItem member entry)
        entries members := parts.flip
    rw [entryValues_eq_ok]
    exact flipped.imp fun _ _ same => ⟨same.1.symm, same.2.back⟩

/-- An object matches a table when its members match the entries. -/
theorem matchesItem_object {members : List (String × Value)} {entries : List (String × Item)}
    (parts : List.Forall₂ (Keyed MatchesItem) members entries) :
    MatchesItem (.object members) (.table entries) := by
  obtain ⟨table, back⟩ := convert_of_matches parts
  constructor
  · rw [itemOf, table]
    rfl
  · rw [itemValue, back]
    rfl

/-- A non-empty array matches a list of tables when its items match the tables. -/
theorem matchesItem_tables {items : List Value} {elements : List (List (String × Item))}
    (nonempty : items ≠ [])
    (parts : List.Forall₂ (fun item entries => MatchesItem item (.table entries)) items elements) :
    MatchesItem (.array items) (.tables elements) := by
  -- Only objects match tables, so the array is a list of tables.
  have objects : ∀ item ∈ items, item.isObject = true := by
    clear nonempty
    induction parts with
    | nil => simp
    | cons same parts ih =>
      exact List.forall_mem_cons.mpr ⟨isObject_of_itemOf same.converts, ih⟩
  have list : isTableList items = true := by
    rw [isTableList, List.all_eq_true.mpr objects]
    simpa using nonempty
  constructor
  · have row : tablesOf items = .ok elements := by
      rw [tablesOf_eq_ok, List.filter_eq_self.mpr objects]
      exact parts.imp fun _ _ same => same.converts
    rw [itemOf, list, if_pos rfl, row]
    rfl
  · have flipped : List.Forall₂ (fun entries item => MatchesItem item (.table entries))
        elements items := parts.flip
    rw [itemValue, elementValues_eq_ok.mpr (flipped.imp fun _ _ same => same.back)]
    rfl

/-- Members that match entries still do when the sections of both are put last. -/
theorem matches_sectionsLast {members : List (String × Value)} {entries : List (String × Item)}
    (parts : List.Forall₂ (Keyed MatchesItem) members entries) :
    List.Forall₂ (Keyed MatchesItem) (sectionsLast members)
      (entries.filter (fun entry => !entry.2.isSection) ++
        entries.filter fun entry => entry.2.isSection) := by
  -- A value and its item agree on whether they are sections, so both rows are sorted alike.
  have place {member : String × Value} {entry : String × Item}
      (same : Keyed MatchesItem member entry) : isSection member.2 = entry.2.isSection :=
    isSection_of_itemOf same.2.converts
  apply List.rel_append
  · exact List.rel_filter (fun _ _ same => by simp [place same]) parts
  · exact List.rel_filter (fun _ _ same => by simp [place same]) parts

/-- The members of a table match its entries when both are put in printed order. -/
theorem matches_printed {members : List (String × Value)} {entries : List (String × Item)}
    (matching : ∀ member ∈ members, ∀ {item}, itemOf member.2 = .ok (some item) →
      MatchesItem (asPrinted member.2) item.asPrinted)
    (converted : tableOf members = .ok entries) :
    List.Forall₂ (Keyed MatchesItem) (sectionsLast (membersAsPrinted members))
      (printed entries) := by
  -- The members that are kept match the entries one by one, and sorting keeps it that way.
  have kept : ∀ member ∈ members.filter isWritten, ∀ {item}, itemOf member.2 = .ok (some item) →
      MatchesItem (asPrinted member.2) item.asPrinted :=
    fun member kept => matching member (List.mem_of_mem_filter kept)
  have parts := (List.forall₂_and_left _ _).mpr ⟨kept, tableOf_eq_ok.mp converted⟩
  rw [printed, valuesOf_eq_filter, printedSections_eq_filter, membersAsPrinted_eq_map]
  apply matches_sectionsLast
  rw [List.forall₂_map_left_iff, List.forall₂_map_right_iff]
  exact parts.imp fun _ _ both => ⟨both.2.1, both.1 both.2.2⟩

/-- A value that is no section matches its item without its null members. -/
theorem matchesItem_asPrinted_line {value : Value} {form : Inline} (line : isSection value = false)
    (converted : inlineOf value = .ok form) : MatchesItem (asPrinted value) (.value form) := by
  -- A value on one line only loses its nulls, and stays on one line without them.
  rw [asPrinted_of_not_section line]
  rw [← isSection_withoutNulls] at line
  exact matchesItem_line (matchesInline_withoutNulls converted) line

/-- A member as it is printed matches its item as it is printed. -/
theorem matchesItem_asPrinted {value : Value} {item : Item}
    (converted : itemOf value = .ok (some item)) :
    MatchesItem (asPrinted value) item.asPrinted := by
  induction value using Value.parts_induction generalizing item with
  | array items ih =>
    cases becomes_of_itemOf converted with
    | line line found => exact matchesItem_asPrinted_line line found
    | @tables _ elements list found =>
      -- The list has a table, and each of its tables matches in printed order.
      have nonempty : items.map asPrinted ≠ [] := by
        rintro empty
        rw [List.map_eq_nil_iff.mp empty] at list
        cases list
      have objects : ∀ item ∈ items, item.isObject = true := by
        rw [isTableList, Bool.and_eq_true] at list
        exact List.all_eq_true.mp list.2
      rw [tablesOf_eq_ok, List.filter_eq_self.mpr objects] at found
      have parts := (List.forall₂_and_left _ _).mpr ⟨ih, found⟩
      rw [asPrinted, if_pos list, itemsAsPrinted_eq_map, Item.asPrinted]
      apply matchesItem_tables nonempty
      rw [List.forall₂_map_left_iff, List.forall₂_map_right_iff]
      exact parts.imp fun _ _ both => both.1 both.2
  | object members ih =>
    cases becomes_of_itemOf converted with
    | line line => cases line
    | table found =>
      rw [asPrinted, Item.asPrinted]
      exact matchesItem_object (matches_printed (fun member inside => @ih member inside) found)
  | _ =>
    cases becomes_of_itemOf converted with
    | line line found => exact matchesItem_asPrinted_line line found

/-- Data as it is printed and the printed document are each converted to the other. -/
theorem printed_round_trip {data : Data} {document : Document}
    (converted : ofData data = .ok document) :
    ofData (dataAsPrinted data) = .ok (printed document) ∧
      toData (printed document) = .ok (dataAsPrinted data) := by
  -- What is printed and what is read back match member by member.
  have parts := matches_printed (fun _ _ _ => matchesItem_asPrinted) converted
  exact convert_of_matches parts

end SyncStore.Toml
