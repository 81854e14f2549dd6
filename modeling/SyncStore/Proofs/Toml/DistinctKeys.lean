import SyncStore.Proofs.Toml.Reading
import SyncStore.Toml.Reader

/-! No table of a TOML document repeats a key, because no key is defined twice. -/

namespace SyncStore

namespace OrderedMap

variable {α : Type} {map : OrderedMap α} {key : String}

/-- An entry that is left after a key was erased is an old one. -/
theorem mem_of_mem_erase {entry : String × α} (member : entry ∈ erase key map) : entry ∈ map := by
  induction map with
  | nil => exact member
  | cons first rest ih =>
    rw [erase] at member
    split at member
    · exact List.mem_cons_of_mem first member
    · exact (List.mem_cons.mp member).elim (· ▸ List.mem_cons_self)
        fun later => List.mem_cons_of_mem first (ih later)

/-- Erasing a key keeps all other keys distinct. -/
theorem Distinct.erase (distinct : Distinct map) (key : String) : Distinct (erase key map) := by
  induction map with
  | nil => exact distinct
  | cons first rest ih =>
    obtain ⟨fresh, others⟩ := distinct_cons.mp distinct
    rw [OrderedMap.erase]
    split
    · exact others
    · refine distinct_cons.mpr ⟨fun later => ?_, ih others⟩
      obtain ⟨entry, member, same⟩ := List.mem_map.mp later
      exact fresh (List.mem_map.mpr ⟨entry, mem_of_mem_erase member, same⟩)

/-- A key that was erased from a map with distinct keys is gone. -/
theorem not_mem_keys_erase (distinct : Distinct map) : key ∉ keys (erase key map) := by
  induction map with
  | nil => simp [OrderedMap.erase]
  | cons first rest ih =>
    obtain ⟨fresh, others⟩ := distinct_cons.mp distinct
    rw [OrderedMap.erase]
    split
    · rename_i same
      exact same ▸ fresh
    · rename_i differ
      rw [keys_cons, List.mem_cons, not_or]
      exact ⟨Ne.symm differ, ih others⟩

end OrderedMap

namespace Toml

/-- No table inside a value on one line repeats a key. -/
inductive Inline.DistinctKeys : Inline → Prop where
  | string (s : String) : DistinctKeys (.string s)
  | integer (n : SignedInt) : DistinctKeys (.integer n)
  | float (x : Real64) : DistinctKeys (.float x)
  | boolean (b : Bool) : DistinctKeys (.boolean b)
  | datetime (text : String) : DistinctKeys (.datetime text)
  | array {items : List Inline} (parts : ∀ item ∈ items, DistinctKeys item) :
    DistinctKeys (.array items)
  | table {entries : List (String × Inline)} (distinct : OrderedMap.Distinct entries)
    (parts : ∀ entry ∈ entries, DistinctKeys entry.2) : DistinctKeys (.table entries)

/-- No table under construction repeats a key. -/
inductive Draft.DistinctKeys : Draft → Prop where
  | value {v : Inline} (holds : v.DistinctKeys) : DistinctKeys (.value v)
  | table {kind : TableKind} {entries : Drafts} (distinct : OrderedMap.Distinct entries)
    (parts : ∀ entry ∈ entries, DistinctKeys entry.2) : DistinctKeys (.table kind entries)
  | tables {earlier : List Drafts} {last : Drafts}
    (distinct : ∀ entries ∈ earlier ++ [last], OrderedMap.Distinct entries)
    (parts : ∀ entries ∈ earlier ++ [last], ∀ entry ∈ entries, DistinctKeys entry.2) :
    DistinctKeys (.tables earlier last)

/-- The entries of a table under construction have distinct keys, and so do all tables in them. -/
structure Drafts.DistinctKeys (entries : Drafts) : Prop where
  here : OrderedMap.Distinct entries
  parts : ∀ entry ∈ entries, entry.2.DistinctKeys

namespace Drafts

variable {entries after : Drafts} {key : String} {draft : Draft}

theorem distinctKeys_nil : DistinctKeys [] := ⟨OrderedMap.distinct_nil, nofun⟩

/-- What is found under a key has distinct keys itself. -/
theorem DistinctKeys.of_get? (holds : entries.DistinctKeys)
    (found : OrderedMap.get? key entries = some draft) : draft.DistinctKeys :=
  holds.parts _ (OrderedMap.mem_of_get? found)

/-- Keys stay distinct when one is given something else. -/
theorem DistinctKeys.insert (holds : entries.DistinctKeys) (key : String)
    (inner : draft.DistinctKeys) : DistinctKeys (OrderedMap.insert key draft entries) where
  here := holds.here.insert key draft
  parts entry member := (OrderedMap.mem_insert member).elim (· ▸ inner) (holds.parts entry)

/-- Keys stay distinct when a new one is put behind them. -/
theorem DistinctKeys.concat (holds : entries.DistinctKeys) (fresh : key ∉ OrderedMap.keys entries)
    (inner : draft.DistinctKeys) : DistinctKeys (entries ++ [(key, draft)]) := by
  rw [← OrderedMap.insert_of_not_mem fresh]
  exact holds.insert key inner

/-- A table that is opened again is put behind the others under its old key. -/
theorem DistinctKeys.move (holds : entries.DistinctKeys) (key : String)
    (inner : draft.DistinctKeys) :
    DistinctKeys (OrderedMap.erase key entries ++ [(key, draft)]) :=
  concat ⟨holds.here.erase key, fun entry member =>
    holds.parts entry (OrderedMap.mem_of_mem_erase member)⟩
    (OrderedMap.not_mem_keys_erase holds.here) inner

/-- The entries of a table have distinct keys when the table does. -/
theorem distinctKeys_of_table {kind : TableKind} (holds : (Draft.table kind entries).DistinctKeys) :
    entries.DistinctKeys := by
  cases holds with
  | table distinct parts => exact ⟨distinct, parts⟩

/-- The last table of a list has distinct keys when the list does. -/
theorem distinctKeys_of_tables {earlier : List Drafts}
    (holds : (Draft.tables earlier entries).DistinctKeys) :
    entries.DistinctKeys ∧ ∀ other ∈ earlier, other.DistinctKeys := by
  cases holds with
  | tables distinct parts =>
    refine ⟨⟨distinct _ (by simp), parts _ (by simp)⟩, fun other member => ?_⟩
    exact ⟨distinct other (by simp [member]), parts other (by simp [member])⟩

/-- A list of tables has distinct keys when each of them does. -/
theorem distinctKeys_tables {earlier : List Drafts} (last : entries.DistinctKeys)
    (others : ∀ other ∈ earlier, other.DistinctKeys) :
    (Draft.tables earlier entries).DistinctKeys := by
  -- Every table of the list is an earlier one or the last one.
  have all : ∀ table ∈ earlier ++ [entries], table.DistinctKeys := by
    simp only [List.mem_append, List.mem_singleton]
    rintro table (member | rfl)
    · exact others table member
    · exact last
  exact .tables (fun table member => (all table member).here)
    fun table member => (all table member).parts

/-- A change at the end of a path keeps keys distinct when it does so where it is made. -/
theorem changeAt_distinctKeys {dotted : Bool} {change : TableKind → Drafts → Option Drafts}
    (keeps : ∀ kind entries after, DistinctKeys entries → change kind entries = some after →
      after.DistinctKeys)
    {path : List String} {kind : TableKind} (before : entries.DistinctKeys)
    (changed : changeAt dotted change path kind entries = some after) : after.DistinctKeys := by
  -- Each step of the path leads into a new table, a table or the last table of a list.
  induction path generalizing kind entries after with
  | nil => exact keeps kind entries after before changed
  | cons key path ih =>
    rw [changeAt] at changed
    -- Nothing may be under the key yet, or a table, or a list of tables.
    split at changed
    · obtain ⟨inner, found, rfl⟩ := Option.map_eq_some_iff.mp changed
      have inside := ih distinctKeys_nil found
      exact before.insert key (.table inside.here inside.parts)
    · rename_i kind inner found
      obtain ⟨-, changed⟩ := Option.ite_none_left_eq_some.mp changed
      obtain ⟨inner, found', rfl⟩ := Option.map_eq_some_iff.mp changed
      have inside := ih (distinctKeys_of_table (before.of_get? found)) found'
      exact before.insert key (.table inside.here inside.parts)
    · rename_i earlier last found
      obtain ⟨inner, found', rfl⟩ := Option.map_eq_some_iff.mp changed
      obtain ⟨open', others⟩ := distinctKeys_of_tables (before.of_get? found)
      exact before.insert key (distinctKeys_tables (ih open' found') others)
    · cases changed

/-- An entry is added under a key of its own. -/
theorem addEntry_distinctKeys {entry : Entry} (before : entries.DistinctKeys)
    (value : entry.value.DistinctKeys) (added : addEntry entries entry = some after) :
    after.DistinctKeys := by
  -- The key must be new, or the entry would be refused.
  refine changeAt_distinctKeys (fun kind entries after before changed => ?_) before added
  obtain ⟨-, same⟩ := Option.ite_none_right_eq_some.mp changed
  obtain rfl := Option.some.inj same
  exact before.insert entry.key (.value value)

/-- Entries are added one after the other. -/
theorem addEntries_distinctKeys {added : List Entry} (before : entries.DistinctKeys)
    (values : ∀ entry ∈ added, entry.value.DistinctKeys)
    (done : addEntries entries added = some after) : after.DistinctKeys := by
  induction added generalizing entries with
  | nil => cases done; exact before
  | cons entry rest ih =>
    obtain ⟨first, others⟩ := List.forall_mem_cons.mp values
    rw [addEntries, List.foldlM_cons] at done
    obtain ⟨middle, here, later⟩ := Option.bind_eq_some_iff.mp done
    exact ih (addEntry_distinctKeys before first here) others later

section Opened

variable {added : List Entry} (values : ∀ entry ∈ added, entry.value.DistinctKeys)
  (before : entries.DistinctKeys)
include values before

/-- The next table of a list is opened, and closes the one before it. -/
theorem openElement_distinctKeys (opened : openElement key added entries = some after) :
    after.DistinctKeys := by
  unfold openElement at opened
  split at opened
  · rename_i none
    obtain ⟨inner, found, rfl⟩ := Option.map_eq_some_iff.mp opened
    -- The first element of a list stands under a new key.
    exact before.concat (OrderedMap.get?_eq_none_iff.mp none)
      (distinctKeys_tables (addEntries_distinctKeys distinctKeys_nil values found) nofun)
  · rename_i earlier last there
    obtain ⟨inner, found, rfl⟩ := Option.map_eq_some_iff.mp opened
    obtain ⟨closed, others⟩ := distinctKeys_of_tables (before.of_get? there)
    -- A later element is put behind the others, which stay as they are.
    refine before.insert _
      (distinctKeys_tables (addEntries_distinctKeys distinctKeys_nil values found) ?_)
    simp only [List.mem_append, List.mem_singleton]
    rintro table (member | rfl)
    · exact others table member
    · exact closed
  · cases opened

/-- A table is opened under a new key, or moved when it was only implied. -/
theorem openTable_distinctKeys (opened : openTable key added entries = some after) :
    after.DistinctKeys := by
  unfold openTable at opened
  split at opened
  · rename_i none
    obtain ⟨inner, found, rfl⟩ := Option.map_eq_some_iff.mp opened
    have inside := addEntries_distinctKeys distinctKeys_nil values found
    exact before.concat (OrderedMap.get?_eq_none_iff.mp none) (.table inside.here inside.parts)
  · rename_i inner there
    obtain ⟨filled, found, rfl⟩ := Option.map_eq_some_iff.mp opened
    -- A table that was only implied holds entries already.
    have inside :=
      addEntries_distinctKeys (distinctKeys_of_table (before.of_get? there)) values found
    exact before.move _ (.table inside.here inside.parts)
  · cases opened

end Opened

/-- A section is added where no other defined the same. -/
theorem addSection_distinctKeys {added : Section} (before : entries.DistinctKeys)
    (values : ∀ entry ∈ added.entries, entry.value.DistinctKeys)
    (done : addSection entries added = some after) : after.DistinctKeys := by
  refine changeAt_distinctKeys (fun kind entries after before changed => ?_) before done
  split at changed
  · exact openElement_distinctKeys values before changed
  · exact openTable_distinctKeys values before changed

/-- Sections are added one after the other. -/
theorem addSections_distinctKeys {sections : List Section} (before : entries.DistinctKeys)
    (values : ∀ added ∈ sections, ∀ entry ∈ added.entries, entry.value.DistinctKeys)
    (done : sections.foldlM addSection entries = some after) : after.DistinctKeys := by
  induction sections generalizing entries with
  | nil => cases done; exact before
  | cons added rest ih =>
    obtain ⟨first, others⟩ := List.forall_mem_cons.mp values
    rw [List.foldlM_cons] at done
    obtain ⟨middle, here, later⟩ := Option.bind_eq_some_iff.mp done
    exact ih (addSection_distinctKeys before first here) others later

end Drafts

/-- Entries are finished one by one. -/
theorem finishedEntries_eq_map (entries : Drafts) :
    finishedEntries entries = entries.map fun entry => (entry.1, entry.2.item) := by
  induction entries with
  | nil => rw [finishedEntries]; rfl
  | cons entry rest ih => rw [finishedEntries, ih]; rfl

/-- The tables of a list are finished one by one. -/
theorem finishedTables_eq_map (tables : List Drafts) :
    finishedTables tables = tables.map finishedEntries := by
  induction tables with
  | nil => rw [finishedTables]; rfl
  | cons entries rest ih => rw [finishedTables, ih]; rfl

/-- The entries of an inline table are finished one by one. -/
theorem inlineDrafts_eq_map (entries : Drafts) :
    inlineDrafts entries = entries.map fun entry => (entry.1, entry.2.inline) := by
  induction entries with
  | nil => rw [inlineDrafts]; rfl
  | cons entry rest ih => rw [inlineDrafts, ih]; rfl

/-- An inline table keeps the keys of what was built for it. -/
theorem Drafts.inline_distinctKeys {entries : Drafts} (distinct : OrderedMap.Distinct entries)
    (parts : ∀ entry ∈ entries, entry.2.inline.DistinctKeys) :
    (Inline.table (inlineDrafts entries)).DistinctKeys := by
  rw [inlineDrafts_eq_map]
  refine .table ?_ (List.forall_mem_map.mpr parts)
  -- Finishing an entry leaves its key alone.
  change (List.map Prod.fst _).Nodup
  rw [List.map_map]
  exact distinct

/-- What was built for an inline table has distinct keys there. -/
theorem Draft.DistinctKeys.inline {draft : Draft} (holds : draft.DistinctKeys) :
    draft.inline.DistinctKeys := by
  induction holds with
  | value holds => rwa [Draft.inline]
  | table distinct parts ih =>
    rw [Draft.inline]
    exact Drafts.inline_distinctKeys distinct ih
  | tables distinct parts ih =>
    rw [Draft.inline]
    exact Drafts.inline_distinctKeys (distinct _ (by simp)) (ih _ (by simp))

/-- An inline table that is assembled has distinct keys. -/
theorem assembleInline_distinctKeys {entries : List Entry} {table : Inline}
    (values : ∀ entry ∈ entries, entry.value.DistinctKeys)
    (assembled : assembleInline entries = some table) : table.DistinctKeys := by
  obtain ⟨drafts, added, rfl⟩ := Option.map_eq_some_iff.mp assembled
  -- The table starts empty, and every entry is added where it repeats no key.
  have holds := Drafts.addEntries_distinctKeys Drafts.distinctKeys_nil values added
  exact Drafts.inline_distinctKeys holds.here fun entry member => (holds.parts entry member).inline

/-- An object has distinct keys when the table that it is read from has. -/
theorem distinctKeys_of_row {α : Type} {R : α → Value → Prop} {entries : List (String × α)}
    {members : List (String × Value)} (row : List.Forall₂ (Keyed R) entries members)
    (distinct : OrderedMap.Distinct entries)
    (parts : ∀ entry ∈ entries, ∀ value, R entry.2 value → value.Throughout Value.DistinctKeys) :
    (Value.object members).Throughout Value.DistinctKeys := by
  refine Value.throughout_object.mpr ⟨?_, forall_mem_converted row fun entry inside member same =>
    parts entry inside member.2 same.2⟩
  rw [Value.DistinctKeys, OrderedMap.Distinct, keys_converted row]
  exact distinct

/-- The value of a line has distinct keys when the line has. -/
theorem Inline.DistinctKeys.value {v : Inline} (holds : v.DistinctKeys) {value : Value}
    (found : inlineValue v = .ok value) : value.Throughout Value.DistinctKeys := by
  induction holds generalizing value with
  | array parts ih =>
    rw [inlineValue] at found
    obtain ⟨values, row, rfl⟩ := map_eq_ok.mp found
    exact Value.throughout_array.mpr ⟨trivial, forall_mem_converted (itemValues_eq_ok.mp row)
      fun item inside value same => ih item inside same⟩
  | table distinct parts ih =>
    rw [inlineValue] at found
    obtain ⟨members, row, rfl⟩ := map_eq_ok.mp found
    exact distinctKeys_of_row (inlineEntries_eq_ok.mp row) distinct
      fun entry inside value same => ih entry inside same
  | float x =>
    -- Only a finite float has a value.
    rw [inlineValue] at found
    cases x <;> cases found
    trivial
  | _ => rw [inlineValue] at found; cases found; trivial

/-- A finished table has a value with distinct keys. -/
theorem distinctKeys_of_finished {entries : Drafts} (distinct : OrderedMap.Distinct entries)
    (parts : ∀ entry ∈ entries, ∀ value, itemValue entry.2.item = .ok value →
      value.Throughout Value.DistinctKeys)
    {value : Value} (found : itemValue (.table (finishedEntries entries)) = .ok value) :
    value.Throughout Value.DistinctKeys := by
  rw [itemValue, finishedEntries_eq_map] at found
  obtain ⟨members, row, rfl⟩ := map_eq_ok.mp found
  refine distinctKeys_of_row (entryValues_eq_ok.mp row) ?_ (List.forall_mem_map.mpr parts)
  change (List.map Prod.fst _).Nodup
  rw [List.map_map]
  exact distinct

/-- What was built for a document has a value with distinct keys. -/
theorem Draft.DistinctKeys.ofItem {draft : Draft} (holds : draft.DistinctKeys) {value : Value}
    (found : itemValue draft.item = .ok value) : value.Throughout Value.DistinctKeys := by
  induction holds generalizing value with
  | value holds =>
    rw [Draft.item, itemValue] at found
    exact Inline.DistinctKeys.value holds found
  | table distinct parts ih =>
    rw [Draft.item] at found
    exact distinctKeys_of_finished distinct (fun entry inside value => ih entry inside) found
  | @tables earlier last distinct parts ih =>
    -- The earlier tables and the last one are finished alike.
    have all : finishedTables earlier ++ [finishedEntries last] =
        (earlier ++ [last]).map finishedEntries := by
      rw [finishedTables_eq_map, List.map_append, List.map_singleton]
    rw [Draft.item, itemValue, all] at found
    obtain ⟨values, row, rfl⟩ := map_eq_ok.mp found
    refine Value.throughout_array.mpr ⟨trivial, forall_mem_converted (elementValues_eq_ok.mp row)
      (List.forall_mem_map.mpr fun entries inside value same => ?_)⟩
    exact distinctKeys_of_finished (distinct entries inside)
      (fun entry member value => ih entries inside entry member) same

/-- An integer of any base is a scalar. -/
theorem integer?_distinctKeys {negative : Bool} {magnitude : Nat} {v : Inline}
    (read : integer? negative magnitude = some v) : v.DistinctKeys := by
  obtain ⟨n, -, rfl⟩ := Option.map_eq_some_iff.mp read
  exact .integer n

/-- An integer with a base in front of it is a scalar. -/
theorem basedInteger?_distinctKeys {base : Nat} {text : List Char} {v : Inline}
    (read : basedInteger? base text = some v) : v.DistinctKeys := by
  obtain ⟨digits, -, read⟩ := Option.bind_eq_some_iff.mp read
  exact integer?_distinctKeys read

/-- A float is a scalar. -/
theorem float?_distinctKeys {negative : Bool} {text : List Char} {v : Inline}
    (read : float? negative text = some v) : v.DistinctKeys := by
  obtain ⟨whole, -, read⟩ := Option.bind_eq_some_iff.mp read
  obtain ⟨fraction, -, read⟩ := Option.bind_eq_some_iff.mp read
  obtain ⟨exponent, -, read⟩ := Option.bind_eq_some_iff.mp read
  obtain ⟨x, -, read⟩ := Option.bind_eq_some_iff.mp read
  -- A float past the largest one was refused.
  split at read
  · cases read
    exact .float _
  · cases read

/-- A value without quotes is a scalar. -/
theorem unquoted?_distinctKeys {text : List Char} {v : Inline} (read : unquoted? text = some v) :
    v.DistinctKeys := by
  unfold unquoted? at read
  split at read
  · exact basedInteger?_distinctKeys read
  · exact basedInteger?_distinctKeys read
  · exact basedInteger?_distinctKeys read
  · dsimp only at read
    -- The words come first, then dates and times, and numbers last.
    split_ifs at read
    · cases read; exact .boolean _
    · cases read; exact .boolean _
    · cases read; exact .float _
    · cases read; exact .float _
    · obtain ⟨datetime, -, rfl⟩ := Option.map_eq_some_iff.mp read
      exact .datetime _
    · rw [number?] at read
      split at read
      · exact float?_distinctKeys read
      · obtain ⟨digits, -, read⟩ := Option.bind_eq_some_iff.mp read
        exact integer?_distinctKeys read

/-- With so many steps, no table that is read from a line repeats a key. -/
structure ReadsDistinct (steps : Nat) : Prop where
  value : ∀ {depth text v rest}, readInline steps depth text = some (v, rest) → v.DistinctKeys
  items : ∀ {depth text items rest}, readItems steps depth text = some (items, rest) →
    ∀ item ∈ items, item.DistinctKeys
  entries : ∀ {depth text entries rest}, readEntries steps depth text = some (entries, rest) →
    ∀ entry ∈ entries, entry.value.DistinctKeys
  entry : ∀ {depth text entry rest}, readEntry steps depth text = some (entry, rest) →
    entry.value.DistinctKeys

namespace ReadsDistinct

variable {steps depth : Nat} {text rest : List Char} (known : ReadsDistinct steps)
include known

/-- One more step reads a value by its first character. -/
theorem readInline_succ {v : Inline} (read : readInline (steps + 1) depth text = some (v, rest)) :
    v.DistinctKeys := by
  rw [readInline.eq_def] at read
  dsimp only at read
  -- A quote opens a string, a bracket an array and a brace a table.
  split at read
  · obtain ⟨_, -, same⟩ := Option.map_eq_some_iff.mp read
    exact (Prod.mk.inj same).1 ▸ .string _
  · obtain ⟨_, -, same⟩ := Option.map_eq_some_iff.mp read
    exact (Prod.mk.inj same).1 ▸ .string _
  · split at read
    · cases read
    · obtain ⟨_, inner, same⟩ := Option.map_eq_some_iff.mp read
      exact (Prod.mk.inj same).1 ▸ .array (known.items inner)
  · split at read
    · cases read
    · -- No key of the table is there twice, or it could not be assembled.
      obtain ⟨_, inner, read⟩ := Option.bind_eq_some_iff.mp read
      obtain ⟨table, assembled, same⟩ := Option.bind_eq_some_iff.mp read
      cases same
      exact assembleInline_distinctKeys (known.entries inner) assembled
  · obtain ⟨_, word, same⟩ := Option.map_eq_some_iff.mp read
    exact (Prod.mk.inj same).1 ▸ unquoted?_distinctKeys word

/-- One more step reads the first item, and the others behind its comma. -/
theorem readItems_succ {items : List Inline}
    (read : readItems (steps + 1) depth text = some (items, rest)) :
    ∀ item ∈ items, item.DistinctKeys := by
  rw [readItems] at read
  obtain ⟨start, -, read⟩ := Option.bind_eq_some_iff.mp read
  split at read
  · cases read
    exact List.forall_mem_nil _
  · obtain ⟨⟨item, behind⟩, first, read⟩ := Option.bind_eq_some_iff.mp read
    obtain ⟨next, -, read⟩ := Option.bind_eq_some_iff.mp read
    split at read
    -- The item is the last one, or a comma leads on.
    · cases read
      exact List.forall_mem_singleton.mpr (known.value first)
    · obtain ⟨_, later, same⟩ := Option.map_eq_some_iff.mp read
      cases same
      exact List.forall_mem_cons.mpr ⟨known.value first, known.items later⟩
    · cases read

/-- One more step reads the first entry, and the others behind its comma. -/
theorem readEntries_succ {entries : List Entry}
    (read : readEntries (steps + 1) depth text = some (entries, rest)) :
    ∀ entry ∈ entries, entry.value.DistinctKeys := by
  rw [readEntries] at read
  obtain ⟨start, -, read⟩ := Option.bind_eq_some_iff.mp read
  split at read
  · cases read
    exact List.forall_mem_nil _
  · obtain ⟨⟨entry, behind⟩, first, read⟩ := Option.bind_eq_some_iff.mp read
    obtain ⟨next, -, read⟩ := Option.bind_eq_some_iff.mp read
    split at read
    -- The entry is the last one, or a comma leads on.
    · cases read
      exact List.forall_mem_singleton.mpr (known.entry first)
    · obtain ⟨_, later, same⟩ := Option.map_eq_some_iff.mp read
      cases same
      exact List.forall_mem_cons.mpr ⟨known.entry first, known.entries later⟩
    · cases read

/-- One more step reads the value behind the equals sign. -/
theorem readEntry_succ {entry : Entry}
    (read : readEntry (steps + 1) depth text = some (entry, rest)) : entry.value.DistinctKeys := by
  rw [readEntry] at read
  obtain ⟨⟨⟨path, key⟩, behind⟩, -, read⟩ := Option.bind_eq_some_iff.mp read
  -- A key without an equals sign is refused.
  dsimp only at read
  split at read
  · obtain ⟨_, inner, same⟩ := Option.map_eq_some_iff.mp read
    cases same
    exact known.value inner
  · cases read

end ReadsDistinct

/-- No table that is read from a line repeats a key, however many steps there are. -/
theorem readsDistinct (steps : Nat) : ReadsDistinct steps := by
  -- The readers call each other with one step less, so all four are handed on together.
  induction steps with
  | zero =>
    constructor <;> intro _ _ _ _ read <;>
      simp [readInline, readItems, readEntries, readEntry] at read
  | succ steps known =>
    exact ⟨known.readInline_succ, known.readItems_succ, known.readEntries_succ,
      known.readEntry_succ⟩

/-- The value that a statement gives a key repeats none itself. -/
def Statement.DistinctKeys (statement : Statement) : Prop :=
  match statement with
  | .entry added => added.value.DistinctKeys
  | .header _ => True

/-- A statement is read as a header, or as an entry with a value. -/
theorem readStatement_distinctKeys {text rest : List Char} {statement : Statement}
    (read : readStatement text = some (statement, rest)) : statement.DistinctKeys := by
  unfold readStatement at read
  split at read
  · obtain ⟨_, -, same⟩ := Option.map_eq_some_iff.mp read
    cases same
    trivial
  · obtain ⟨_, entry, same⟩ := Option.map_eq_some_iff.mp read
    cases same
    exact (readsDistinct _).entry entry

/-- Statements are read one after the other. -/
theorem readStatements_distinctKeys {steps : Nat} {text : List Char} {statements : List Statement}
    (read : readStatements steps text = some statements) :
    ∀ statement ∈ statements, statement.DistinctKeys := by
  induction steps generalizing text statements with
  | zero => cases read
  | succ steps ih =>
    rw [readStatements] at read
    -- The text is over, or a statement stands in front of others.
    obtain ⟨start, -, read⟩ := Option.bind_eq_some_iff.mp read
    split at read
    · cases read
      exact List.forall_mem_nil _
    · obtain ⟨_, first, read⟩ := Option.bind_eq_some_iff.mp read
      obtain ⟨behind, -, read⟩ := Option.bind_eq_some_iff.mp read
      obtain ⟨others, later, rfl⟩ := Option.map_eq_some_iff.mp read
      exact List.forall_mem_cons.mpr ⟨readStatement_distinctKeys first, ih later⟩

/-- The entries of all statements are in front of the headers or in one of the sections. -/
theorem sectioned_distinctKeys {statements : List Statement}
    (holds : ∀ statement ∈ statements, statement.DistinctKeys) :
    (∀ entry ∈ (sectioned statements).1, entry.value.DistinctKeys) ∧
      ∀ added ∈ (sectioned statements).2, ∀ entry ∈ added.entries, entry.value.DistinctKeys := by
  induction statements with
  | nil => exact ⟨nofun, nofun⟩
  | cons statement rest ih =>
    obtain ⟨first, others⟩ := List.forall_mem_cons.mp holds
    -- An entry goes to the front, and a header takes the entries there as its own.
    obtain ⟨entries, sections⟩ := ih others
    cases statement with
    | entry entry =>
      rw [Statement.DistinctKeys] at first
      exact ⟨List.forall_mem_cons.mpr ⟨first, entries⟩, sections⟩
    | header header => exact ⟨nofun, List.forall_mem_cons.mpr ⟨entries, sections⟩⟩

/-- The value of a document that is read has distinct keys. -/
theorem distinctKeys_of_read? {text : String} {document : Document}
    (read : read? text = some document) {value : Value}
    (found : itemValue (.table document) = .ok value) : value.Throughout Value.DistinctKeys := by
  obtain ⟨statements, stated, assembled⟩ := Option.bind_eq_some_iff.mp read
  obtain ⟨root, added, sections⟩ := Option.bind_eq_some_iff.mp assembled
  obtain ⟨drafts, done, rfl⟩ := Option.map_eq_some_iff.mp sections
  obtain ⟨entries, values⟩ := sectioned_distinctKeys (readStatements_distinctKeys stated)
  -- The entries are added before the sections, to a root without any key.
  have holds := Drafts.addSections_distinctKeys
    (Drafts.addEntries_distinctKeys Drafts.distinctKeys_nil entries added) values done
  exact distinctKeys_of_finished holds.here
    (fun entry member value => (holds.parts entry member).ofItem) found

end Toml

/-- Data that is read from TOML repeats no key at any depth. -/
theorem FileFormat.distinctKeys_readToml {text : String} {data : Data}
    (read : readToml text = .ok data) : (Value.object data).Throughout Value.DistinctKeys := by
  rw [readToml] at read
  split at read
  · cases read
  · rename_i document known
    refine Toml.distinctKeys_of_read? known ?_
    rw [Toml.itemValue]
    exact map_eq_ok.mpr ⟨data, read, rfl⟩

end SyncStore
