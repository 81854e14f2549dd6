import SyncStore.Files.FileFormat
import SyncStore.Proofs.Toml.Conversion
import SyncStore.Proofs.Toml.Statements

/-! A TOML file gives back the data that was written to it, as it is printed. -/

namespace SyncStore

namespace Toml

mutual

/--
A member of a table is readable when the reader follows all its headers and all its lines.

`keys` is how many more keys its headers may have.
-/
def Readable (keys : Nat) : Value → Prop
  | .object members => 0 < keys ∧ ReadableMembers (keys - 1) members
  | .array items =>
    if isTableList items then ReadableItems keys items
    else (Value.array items).nesting ≤ maxDepth
  | _ => True

/-- Every table of a list is readable. -/
def ReadableItems (keys : Nat) : List Value → Prop
  | [] => True
  | item :: rest => Readable keys item ∧ ReadableItems keys rest

/-- Every member of a table is readable. -/
def ReadableMembers (keys : Nat) : List (String × Value) → Prop
  | [] => True
  | (_, value) :: rest => Readable keys value ∧ ReadableMembers keys rest

end

/-- Tables are readable when each of them is. -/
theorem readableItems_iff {keys : Nat} {items : List Value} :
    ReadableItems keys items ↔ ∀ item ∈ items, Readable keys item := by
  induction items with
  | nil => simp [ReadableItems]
  | cons item rest ih => simp [ReadableItems, ih]

/-- Members are readable when the value of each is. -/
theorem readableMembers_iff {keys : Nat} {members : List (String × Value)} :
    ReadableMembers keys members ↔ ∀ member ∈ members, Readable keys member.2 := by
  induction members with
  | nil => simp [ReadableMembers]
  | cons member rest ih =>
    obtain ⟨key, value⟩ := member
    simp [ReadableMembers, ih]

/-- A line that can be read is nested no deeper than the reader goes. -/
theorem nesting_le_of_readable {keys : Nat} {value : Value} (readable : Readable keys value)
    (line : isSection value = false) : value.nesting ≤ maxDepth := by
  -- An array on one line was bounded by its nesting, and a scalar has none.
  cases value with
  | array items =>
    rw [isSection] at line
    rw [Readable, line, if_neg Bool.false_ne_true] at readable
    exact readable
  | object members => cases line
  | _ => simp [Value.nesting]

/-- Entries have the keys of the members that they are converted from. -/
theorem keys_converted {α β : Type} {R : α → β → Prop} {members : List (String × α)}
    {entries : List (String × β)} (row : List.Forall₂ (Keyed R) members entries) :
    OrderedMap.keys entries = OrderedMap.keys members := by
  induction row with
  | nil => rfl
  | cons same row ih => rw [OrderedMap.keys_cons, OrderedMap.keys_cons, ih, same.1]

/-- The entries that members with distinct keys are converted to have distinct keys. -/
theorem distinct_converted {β : Type} {R : Value → β → Prop} {members : List (String × Value)}
    {entries : List (String × β)} (distinct : OrderedMap.Distinct members)
    (row : List.Forall₂ (Keyed R) (members.filter isWritten) entries) :
    OrderedMap.Distinct entries := by
  -- The entries have the keys of the members that are written, in their order.
  rw [OrderedMap.Distinct, keys_converted row]
  exact distinct.sublist (List.filter_sublist.map Prod.fst)

/-- A value nested no deeper than the levels that are left becomes a sound form. -/
theorem sound_of_inlineOf {depth : Nat} {value : Value} {form : Inline}
    (converted : inlineOf value = .ok form) (shallow : value.nesting ≤ depth)
    (distinct : value.Throughout Value.DistinctKeys)
    (back : value.Throughout (Value.FloatSatisfies ReadsBack)) : form.Sound depth := by
  induction value using Value.parts_induction generalizing depth form with
  | null => rw [inlineOf] at converted; cases converted
  | bool b => rw [inlineOf] at converted; cases converted; exact .boolean b
  | number n =>
    rw [inlineOf] at converted
    cases n with
    | float x => cases converted; exact .float back.here
    | int n =>
      rw [inlineNumber] at converted
      split at converted
      · cases converted; exact .integer _
      · cases converted
  | string s => rw [inlineOf] at converted; cases converted; exact .string s
  | array items ih =>
    rw [inlineOf] at converted
    obtain ⟨forms, row, rfl⟩ := map_eq_ok.mp converted
    rw [Value.nesting] at shallow
    obtain ⟨fewer, rfl⟩ : ∃ fewer, depth = fewer + 1 := ⟨depth - 1, by omega⟩
    -- The brackets take one level, and the items have the others.
    have inner := Value.nestingOfItems_le.mp (Nat.le_of_succ_le_succ shallow)
    refine .array (forall_mem_converted (inlineItems_eq_ok.mp row) fun item inside form found => ?_)
    exact ih item inside found (inner item inside)
      ((Value.throughout_array.mp distinct).2 item inside)
      ((Value.throughout_array.mp back).2 item inside)
  | object members ih =>
    rw [inlineOf] at converted
    obtain ⟨entries, row, rfl⟩ := map_eq_ok.mp converted
    rw [Value.nesting] at shallow
    obtain ⟨fewer, rfl⟩ : ∃ fewer, depth = fewer + 1 := ⟨depth - 1, by omega⟩
    -- The braces take one level, and the members have the others.
    have inner := Value.nestingOfMembers_le.mp (Nat.le_of_succ_le_succ shallow)
    have row := inlineMembers_eq_ok.mp row
    obtain ⟨here, distinct⟩ := Value.throughout_object.mp distinct
    refine .table (distinct_converted here row)
      (forall_mem_converted row fun member kept entry found => ?_)
    have inside := List.mem_of_mem_filter kept
    exact ih member inside found.2 (inner member inside) (distinct member inside)
      ((Value.throughout_object.mp back).2 member inside)

/-- Members that become sound items make a sound table. -/
theorem soundEntries_of_tableOf {keys : Nat} {members : List (String × Value)}
    {entries : List (String × Item)} (converted : tableOf members = .ok entries)
    (distinct : OrderedMap.Distinct members)
    (sound : ∀ member ∈ members, ∀ item, itemOf member.2 = .ok (some item) → item.Sound keys) :
    SoundEntries keys entries := by
  -- Each entry is the converted form of a member that was kept.
  have row := tableOf_eq_ok.mp converted
  refine ⟨distinct_converted distinct row,
    forall_mem_converted row fun member kept entry found => ?_⟩
  exact sound member (List.mem_of_mem_filter kept) entry.2 found.2

/-- A readable member becomes a sound item. -/
theorem sound_of_itemOf {keys : Nat} {value : Value} {item : Item}
    (converted : itemOf value = .ok (some item)) (readable : Readable keys value)
    (distinct : value.Throughout Value.DistinctKeys)
    (back : value.Throughout (Value.FloatSatisfies ReadsBack)) : item.Sound keys := by
  induction value using Value.parts_induction generalizing keys item with
  | array items ih =>
    cases becomes_of_itemOf converted with
    | line line found =>
      exact .value (sound_of_inlineOf found (nesting_le_of_readable readable line) distinct back)
    | @tables _ elements list found =>
      rw [isTableList, Bool.and_eq_true] at list
      rw [tablesOf_eq_ok, List.filter_eq_self.mpr (List.all_eq_true.mp list.2)] at found
      rw [Readable, if_pos (by rw [isTableList, list.1, list.2]; rfl)] at readable
      have tables : ∀ entries ∈ elements, (Item.table entries).Sound keys :=
        forall_mem_converted found fun item inside entries found =>
          ih item inside found (readableItems_iff.mp readable item inside)
            ((Value.throughout_array.mp distinct).2 item inside)
            ((Value.throughout_array.mp back).2 item inside)
      -- The list is not empty, so that one of its tables takes a key off the headers.
      cases found with
      | nil => cases list.1
      | @cons _ first _ others _ rest =>
        obtain ⟨fewer, rfl, _⟩ := Item.sound_table (tables first List.mem_cons_self)
        have sound : ∀ entries ∈ first :: others, SoundEntries fewer entries := by
          intro entries inside
          obtain ⟨_, same, table⟩ := Item.sound_table (tables entries inside)
          obtain rfl := Nat.succ.inj same
          exact table
        exact .tables (by simp) (fun entries inside => (sound entries inside).distinct)
          fun entries inside => (sound entries inside).sound
  | object members ih =>
    cases becomes_of_itemOf converted with
    | line line => cases line
    | table found =>
      rw [Readable] at readable
      -- The key of the table is one of those that its headers may have.
      obtain ⟨fewer, rfl⟩ : ∃ fewer, keys = fewer + 1 := ⟨keys - 1, by omega⟩
      obtain ⟨here, distinct⟩ := Value.throughout_object.mp distinct
      have table := @soundEntries_of_tableOf fewer _ _ found here fun member inside item found =>
        ih member inside found (readableMembers_iff.mp readable.2 member inside)
          (distinct member inside) ((Value.throughout_object.mp back).2 member inside)
      exact .table table.distinct table.sound
  | _ =>
    cases becomes_of_itemOf converted with
    | line line found =>
      exact .value (sound_of_inlineOf found (nesting_le_of_readable readable line) distinct back)

/-- Readable data becomes a sound document. -/
theorem sound_of_ofData {data : Data} {document : Document} (converted : ofData data = .ok document)
    (readable : ReadableMembers maxDepth data)
    (distinct : (Value.object data).Throughout Value.DistinctKeys)
    (back : (Value.object data).Throughout (Value.FloatSatisfies ReadsBack)) :
    SoundEntries maxDepth document := by
  -- What holds all through the data holds for each of its members.
  obtain ⟨here, distinct⟩ := Value.throughout_object.mp distinct
  exact soundEntries_of_tableOf converted here fun member inside item found =>
    sound_of_itemOf found (readableMembers_iff.mp readable member inside) (distinct member inside)
      ((Value.throughout_object.mp back).2 member inside)

/-- The values of a row of values are these. -/
theorem valuesOf_append_map_valueItem (values : List (String × Inline))
    (entries : List (String × Item)) :
    valuesOf (values.map valueItem ++ entries) = values ++ valuesOf entries := by
  -- A value in front is found first.
  induction values with
  | nil => rfl
  | cons entry rest ih => rw [List.map_cons, List.cons_append, valueItem, valuesOf, ih]; rfl

/-- There are no values among the sections of a table. -/
theorem valuesOf_printedSections (entries : List (String × Item)) :
    valuesOf (printedSections entries) = [] := by
  induction entries with
  | nil => rw [printedSections, valuesOf]
  | cons entry rest ih =>
    obtain ⟨key, item⟩ := entry
    -- Values were left out, and sections hold none of this table.
    cases item <;> simp [printedSections, valuesOf, ih]

/-- Printed order keeps the order of the values. -/
theorem valuesOf_printed (entries : List (String × Item)) :
    valuesOf (printed entries) = valuesOf entries := by
  rw [printed, valuesOf_append_map_valueItem, valuesOf_printedSections, List.append_nil]

/-- The lines of a table depend on its values only. -/
theorem valueLines_eq_valuesOf (entries : List (String × Item)) :
    valueLines entries = (valuesOf entries).flatMap fun entry => renderEntry entry ++ ['\n'] := by
  induction entries with
  | nil => rfl
  | cons entry rest ih =>
    obtain ⟨key, item⟩ := entry
    -- A value makes one line, and a section makes none.
    cases item <;> simp [valueLines, valuesOf, renderEntry, ih]

/-- A table has a value when there is one among its values. -/
theorem hasValue_eq_valuesOf (entries : List (String × Item)) :
    hasValue entries = !(valuesOf entries).isEmpty := by
  induction entries with
  | nil => rfl
  | cons entry rest ih =>
    obtain ⟨key, item⟩ := entry
    rw [hasValue] at ih
    -- A value is found at once, and a section is passed over.
    cases item <;> simp [hasValue, valuesOf, ih]

/-- No value in front of sections changes how they are printed. -/
theorem renderSections_append_map_valueItem (path : List String) (isFirst : Bool)
    (values : List (String × Inline)) (entries : List (String × Item)) :
    renderSections path isFirst (values.map valueItem ++ entries) =
      renderSections path isFirst entries := by
  -- Values are printed in front of all sections, so none is printed among them.
  induction values with
  | nil => rfl
  | cons entry rest ih => rw [List.map_cons, List.cons_append, valueItem, renderSections, ih]

mutual

/-- Sections are printed as they are in printed order. -/
theorem renderSections_printedSections (path : List String) (isFirst : Bool) :
    ∀ entries, renderSections path isFirst (printedSections entries) =
      renderSections path isFirst entries
  | [] => by rw [printedSections]
  | (_, .value _) :: rest => by
    rw [printedSections, renderSections, renderSections_printedSections path isFirst rest]
  | (key, .table entries) :: rest => by
    -- The lines of a table depend on its values only, which printing keeps in order.
    have values := valuesOf_printed entries
    rw [printed] at values
    rw [printedSections, renderSections, renderSections, valueLines_eq_valuesOf, values,
      ← valueLines_eq_valuesOf, renderSections_append_map_valueItem,
      renderSections_printedSections (path ++ [key]) false entries,
      renderSections_printedSections path false rest]
  | (key, .tables elements) :: rest => by
    -- A list has as many tables in printed order as before.
    have empty : (printedElements elements).isEmpty = elements.isEmpty := by
      rw [printedElements_eq_map, List.isEmpty_map]
    rw [printedSections, renderSections, renderSections, empty,
      renderElements_printedElements (path ++ [key]) isFirst elements,
      renderSections_printedSections path (isFirst && elements.isEmpty) rest]

/-- Lists of tables are printed as they are in printed order. -/
theorem renderElements_printedElements (path : List String) (isFirst : Bool) :
    ∀ elements, renderElements path isFirst (printedElements elements) =
      renderElements path isFirst elements
  | [] => by rw [printedElements]
  | entries :: rest => by
    -- An element has the same values whichever order it was printed from.
    have values := valuesOf_printed entries
    rw [printed] at values
    rw [printedElements, renderElements, renderElements, valueLines_eq_valuesOf, values,
      ← valueLines_eq_valuesOf, renderSections_append_map_valueItem,
      renderSections_printedSections path false entries,
      renderElements_printedElements path false rest]

end

/-- A document has the same text in printed order. -/
theorem render_printed (document : Document) : render (printed document) = render document := by
  rw [render, render, valueLines_eq_valuesOf, hasValue_eq_valuesOf, valuesOf_printed,
    ← valueLines_eq_valuesOf, ← hasValue_eq_valuesOf, printed, renderSections_append_map_valueItem,
    renderSections_printedSections]

end Toml

namespace FileFormat

/-- A written TOML file reads back as its data is printed, and that is written as the same text. -/
theorem toml_round_trip {data : Data} {raw : String} (written : toml.write data = .ok raw)
    (distinct : (Value.object data).Throughout Value.DistinctKeys)
    (back : (Value.object data).Throughout (Value.FloatSatisfies Toml.ReadsBack))
    (readable : Toml.ReadableMembers Toml.maxDepth data) :
    toml.read raw = .ok (Toml.dataAsPrinted data) ∧
      toml.write (Toml.dataAsPrinted data) = .ok raw := by
  -- The text is that of a sound document, so it is read as the document in printed order.
  obtain ⟨document, converted, rfl⟩ := map_eq_ok.mp written
  have sound := Toml.sound_of_ofData converted readable distinct back
  obtain ⟨again, value⟩ := Toml.printed_round_trip converted
  constructor
  · -- The printed document is converted to the data as it is printed.
    change readToml (Toml.render document) = _
    rw [readToml, Toml.read?_render sound]
    exact value
  · -- The data as it is printed becomes the printed document, which has the same text.
    change (Toml.ofData (Toml.dataAsPrinted data)).map Toml.render = _
    rw [again, ← Toml.render_printed]
    rfl

/-- Sections move behind the values of their table, and null members go. -/
theorem toml_round_trip_mixed :
    let ratio : Value := .number (.float ⟨false, 4609434218613702656, by decide⟩)
    let port : Value := .number (.int ⟨80, by decide, by decide⟩)
    let hosts : Value := .array [.object [("name", .string "a")]]
    let data : Data :=
      [("server", .object [("hosts", hosts), ("port", port), ("note", .null)]),
        ("mixed", .array [.bool true,
          .object [("o", .object []), ("k", .string "v"), ("n", .null)]]),
        ("ratio", ratio)]
    let printed : Data :=
      [("mixed", .array [.bool true, .object [("o", .object []), ("k", .string "v")]]),
        ("ratio", ratio), ("server", .object [("port", port), ("hosts", hosts)])]
    let raw := "mixed = [true, \x7b o = \x7b\x7d, k = \"v\" \x7d]\nratio = 1.5\n\n" ++
      "[server]\nport = 80\n\n[[server.hosts]]\nname = \"a\"\n"
    toml.write data = .ok raw ∧ toml.read raw = .ok printed ∧ toml.write printed = .ok raw := by
  intro ratio port hosts data printed raw
  let document : Toml.Document :=
    [("server", .table [("hosts", .tables [[("name", .value (.string "a"))]]),
        ("port", .value (.integer ⟨80, by decide, by decide⟩))]),
      ("mixed", .value (.array [.boolean true, .table [("o", .table []), ("k", .string "v")]])),
      ("ratio", .value (.float (.finite ⟨false, 4609434218613702656, by decide⟩)))]
  have converted : Toml.ofData data = .ok document := rfl
  -- The text is computed from the document that the data becomes.
  have text : Toml.valueLines document ++
      Toml.renderSections [] (!Toml.hasValue document) document = raw.toList := by decide +kernel
  have written : toml.write data = .ok raw := by
    change (Toml.ofData data).map Toml.render = _
    rw [converted, ← String.ofList_toList (s := raw), ← text]
    rfl
  have distinct : (Value.object data).Throughout Value.DistinctKeys := by
    simp [data, hosts, port, ratio, Value.Throughout, Value.ThroughoutMembers,
      Value.ThroughoutItems, Value.DistinctKeys, OrderedMap.Distinct]
  have back : (Value.object data).Throughout (Value.FloatSatisfies Toml.ReadsBack) := by
    simp only [data, hosts, port, ratio, Value.Throughout, Value.ThroughoutMembers,
      Value.ThroughoutItems, Value.FloatSatisfies, true_and, and_true]
    rfl
  have readable : Toml.ReadableMembers Toml.maxDepth data := by
    simp [data, hosts, port, ratio, Toml.ReadableMembers, Toml.Readable, Toml.ReadableItems,
      Toml.isTableList, Toml.maxDepth, Value.isObject, Value.nesting, Value.nestingOfItems,
      Value.nestingOfMembers]
  exact ⟨written, toml_round_trip written distinct back readable⟩

end FileFormat

end SyncStore
