import SyncStore.Proofs.Toml.Document

/-! The statements of a printed document assemble to the document that was printed. -/

namespace SyncStore.Toml

/-- A key with its value is an entry without a path. -/
def plainEntry (entry : String × Inline) : Entry := ⟨[], entry.1, entry.2⟩

/-- A key with its value under construction. -/
def valueDraft (entry : String × Inline) : String × Draft := (entry.1, .value entry.2)

mutual

/-- The sections that a table states at a path, one for every header in it. -/
def sectionsAt (path : List String) : List (String × Item) → List Section
  | [] => []
  -- A value stands under the header of the table it is in.
  | (_, .value _) :: rest => sectionsAt path rest
  -- The header of a table comes first, then what is inside it, then what comes behind it.
  | (key, .table entries) :: rest =>
    ⟨⟨path, key, false⟩, (valuesOf entries).map plainEntry⟩ ::
      (sectionsAt (path ++ [key]) entries ++ sectionsAt path rest)
  | (key, .tables elements) :: rest => elementsAt path key elements ++ sectionsAt path rest

/-- The sections of the tables of a list under a key at a path. -/
def elementsAt (path : List String) (key : String) : List (List (String × Item)) → List Section
  | [] => []
  | entries :: rest =>
    ⟨⟨path, key, true⟩, (valuesOf entries).map plainEntry⟩ ::
      (sectionsAt (path ++ [key]) entries ++ elementsAt path key rest)

end

/-- A section is moved under a key. -/
def Section.under (key : String) (added : Section) : Section :=
  { added with header := { added.header with path := key :: added.header.path } }

mutual

/-- Sections under a key are those without it, moved there. -/
theorem sectionsAt_cons (key : String) (path : List String) :
    ∀ entries, sectionsAt (key :: path) entries = (sectionsAt path entries).map (Section.under key)
  | [] => by rw [sectionsAt, sectionsAt, List.map_nil]
  | (_, .value _) :: rest => by
    rw [sectionsAt, sectionsAt, sectionsAt_cons key path rest]
  | (name, .table entries) :: rest => by
    rw [sectionsAt, sectionsAt, sectionsAt_cons key path rest, List.cons_append,
      sectionsAt_cons key (path ++ [name]) entries]
    simp [Section.under]
  | (name, .tables elements) :: rest => by
    rw [sectionsAt, sectionsAt, sectionsAt_cons key path rest,
      elementsAt_cons key path name elements, List.map_append]

/-- The tables of a list under a key are those without it, moved there. -/
theorem elementsAt_cons (key : String) (path : List String) (name : String) :
    ∀ elements,
      elementsAt (key :: path) name elements =
        (elementsAt path name elements).map (Section.under key)
  | [] => by rw [elementsAt, elementsAt, List.map_nil]
  | entries :: rest => by
    rw [elementsAt, elementsAt, elementsAt_cons key path name rest, List.cons_append,
      sectionsAt_cons key (path ++ [name]) entries]
    simp [Section.under]

end

/-- A fresh value is put last. -/
theorem addEntry_plain {drafts : Drafts} {entry : String × Inline}
    (fresh : entry.1 ∉ OrderedMap.keys drafts) :
    drafts.addEntry (plainEntry entry) = some (drafts ++ [valueDraft entry]) := by
  -- Nothing stands under the key yet, so the value goes in behind the others.
  have absent : OrderedMap.get? entry.1 drafts = none := OrderedMap.get?_eq_none_iff.mpr fresh
  simp [Drafts.addEntry, plainEntry, Drafts.changeAt, OrderedMap.contains, absent,
    OrderedMap.insert_of_not_mem fresh, valueDraft]

/-- Fresh values with distinct keys are put last in their order. -/
theorem addEntries_plain {drafts : Drafts} {entries : List (String × Inline)}
    (distinct : (OrderedMap.keys drafts ++ OrderedMap.keys entries).Nodup) :
    drafts.addEntries (entries.map plainEntry) = some (drafts ++ entries.map valueDraft) := by
  induction entries generalizing drafts with
  | nil => simp [Drafts.addEntries]
  | cons entry rest ih =>
    rw [OrderedMap.keys_cons] at distinct
    -- The first key is not among those that are there, and the next ones are not either.
    have fresh : entry.1 ∉ OrderedMap.keys drafts := fun member =>
      (List.nodup_append.mp distinct).2.2 _ member _ List.mem_cons_self rfl
    have later :
        (OrderedMap.keys (drafts ++ [valueDraft entry]) ++ OrderedMap.keys rest).Nodup := by
      rw [OrderedMap.keys_append, List.append_assoc]
      exact distinct
    have added := ih later
    rw [Drafts.addEntries] at added ⊢
    rw [List.map_cons, List.foldlM_cons, addEntry_plain fresh]
    exact added.trans (by simp)

/-- The keys of the values of a table are among its keys, in their order. -/
theorem keys_valuesOf (entries : List (String × Item)) :
    (OrderedMap.keys (valuesOf entries)).Sublist (OrderedMap.keys entries) := by
  induction entries with
  | nil => exact List.Sublist.slnil
  | cons entry rest ih =>
    obtain ⟨key, item⟩ := entry
    cases item with
    -- The key of a value is kept, and that of a section is left out.
    | value v => exact ih.cons_cons key
    | table inner => exact ih.cons key
    | tables elements => exact ih.cons key

/-- The values of a table with distinct keys make a table of their own. -/
theorem addEntries_valuesOf {entries : List (String × Item)}
    (distinct : OrderedMap.Distinct entries) :
    Drafts.addEntries [] ((valuesOf entries).map plainEntry) =
      some ((valuesOf entries).map valueDraft) := by
  -- The keys of the values are some of those of the table, so none of them repeats.
  have values : (OrderedMap.keys (valuesOf entries)).Nodup :=
    distinct.sublist (keys_valuesOf entries)
  exact @addEntries_plain [] (valuesOf entries) values

/-- A change at the end of a path does not depend on the kind of the table at its start. -/
theorem changeAt_kind (change : Drafts → Option Drafts) (path : List String)
    (kind other : TableKind) (entries : Drafts) :
    Drafts.changeAt false (fun _ entries => change entries) path kind entries =
      Drafts.changeAt false (fun _ entries => change entries) path other entries := by
  -- Without dots in the key the kind of the table around it does not matter.
  cases path <;> rfl

/-- A section under a key is added to the table of that key. -/
theorem addSection_under_table {key : String} {base : Drafts} (fresh : key ∉ OrderedMap.keys base)
    (kind : TableKind) (inner : Drafts) (added : Section) :
    Drafts.addSection (base ++ [(key, .table kind inner)]) (added.under key) =
      (inner.addSection added).map fun inner => base ++ [(key, .table kind inner)] := by
  simp only [Drafts.addSection, Section.under, Drafts.changeAt, OrderedMap.get?_concat fresh,
    Bool.false_and, Bool.false_eq_true, ↓reduceIte, OrderedMap.insert_concat fresh]
  -- The change goes on inside the table, whatever kind of table it is.
  rw [changeAt_kind _ _ kind .stated]
  rfl

/-- A section under a key is added to the last table of the list of that key. -/
theorem addSection_under_tables {key : String} {base : Drafts} (fresh : key ∉ OrderedMap.keys base)
    (earlier : List Drafts) (last : Drafts) (added : Section) :
    Drafts.addSection (base ++ [(key, .tables earlier last)]) (added.under key) =
      (last.addSection added).map fun last => base ++ [(key, .tables earlier last)] := by
  -- The path leads into the last element of the list, and only that one changes.
  simp only [Drafts.addSection, Section.under, Drafts.changeAt, OrderedMap.get?_concat fresh,
    OrderedMap.insert_concat fresh]
  rfl

/-- Sections under a key are added one after the other to what the key holds open. -/
theorem addSections_under {key : String} {base : Drafts} {hold : Drafts → Draft}
    (enters : ∀ inner added, Drafts.addSection (base ++ [(key, hold inner)]) (added.under key) =
      (inner.addSection added).map fun inner => base ++ [(key, hold inner)])
    (sections : List Section) (inner : Drafts) :
    (sections.map (Section.under key)).foldlM Drafts.addSection (base ++ [(key, hold inner)]) =
      (sections.foldlM Drafts.addSection inner).map fun inner => base ++ [(key, hold inner)] := by
  induction sections generalizing inner with
  | nil => rfl
  | cons added rest ih =>
    rw [List.map_cons, List.foldlM_cons, List.foldlM_cons, enters]
    -- The first section changes what the key holds open, and the rest find it changed.
    cases inner.addSection added with
    | none => rfl
    | some inner => exact ih inner

/-- Further tables of a list are pushed behind its last one. -/
def pushTables (earlier : List Drafts) (last : Drafts) : List Drafts → Draft
  | [] => .tables earlier last
  | next :: rest => pushTables (earlier ++ [last]) next rest

/-- A list of tables is open at its last one. -/
def listDraft : List Drafts → Draft
  | [] => .tables [] []
  | first :: rest => pushTables [] first rest

mutual

/-- The sections among the entries of a table as they are assembled. -/
def draftSections : List (String × Item) → Drafts
  | [] => []
  | (_, .value _) :: rest => draftSections rest
  | (key, .table entries) :: rest =>
    (key, .table .stated ((valuesOf entries).map valueDraft ++ draftSections entries)) ::
      draftSections rest
  | (key, .tables elements) :: rest =>
    (key, listDraft (draftElements elements)) :: draftSections rest

/-- The tables of a list as they are assembled. -/
def draftElements : List (List (String × Item)) → List Drafts
  | [] => []
  | entries :: rest => ((valuesOf entries).map valueDraft ++ draftSections entries) ::
      draftElements rest

end

/-- Printing moves keys about, but neither adds nor drops any. -/
theorem keys_printed (entries : List (String × Item)) :
    (OrderedMap.keys (valuesOf entries) ++ OrderedMap.keys (printedSections entries)).Perm
      (OrderedMap.keys entries) := by
  induction entries with
  | nil => simp [valuesOf, printedSections]
  | cons entry rest ih =>
    obtain ⟨key, item⟩ := entry
    cases item with
    | value v => simpa [valuesOf, printedSections] using ih
    -- The key of a section moves behind those of the values.
    | table inner =>
      simp only [valuesOf, printedSections, OrderedMap.keys_cons]
      exact List.perm_middle.trans (ih.cons key)
    | tables elements =>
      simp only [valuesOf, printedSections, OrderedMap.keys_cons]
      exact List.perm_middle.trans (ih.cons key)

/-- The first table of a list is opened under a fresh key. -/
theorem addSection_opens {key : String} {base : Drafts} (fresh : key ∉ OrderedMap.keys base)
    {entries : List (String × Item)} (distinct : OrderedMap.Distinct entries) :
    base.addSection ⟨⟨[], key, false⟩, (valuesOf entries).map plainEntry⟩ =
        some (base ++ [(key, .table .stated ((valuesOf entries).map valueDraft))]) ∧
      base.addSection ⟨⟨[], key, true⟩, (valuesOf entries).map plainEntry⟩ =
        some (base ++ [(key, .tables [] ((valuesOf entries).map valueDraft))]) := by
  -- A table or a list of tables is opened under a key that is still free.
  have absent : OrderedMap.get? key base = none := OrderedMap.get?_eq_none_iff.mpr fresh
  simp [Drafts.addSection, Drafts.changeAt, Drafts.openTable, Drafts.openElement, absent,
    addEntries_valuesOf distinct]

/-- A further table of a list is opened behind its last one. -/
theorem addSection_continues {key : String} {base : Drafts} (fresh : key ∉ OrderedMap.keys base)
    (earlier : List Drafts) (last : Drafts) {entries : List (String × Item)}
    (distinct : OrderedMap.Distinct entries) :
    Drafts.addSection (base ++ [(key, .tables earlier last)])
        ⟨⟨[], key, true⟩, (valuesOf entries).map plainEntry⟩ =
      some (base ++ [(key, .tables (earlier ++ [last]) ((valuesOf entries).map valueDraft))]) := by
  -- The element that was last is finished, and the new one takes its place.
  simp [Drafts.addSection, Drafts.changeAt, Drafts.openElement, OrderedMap.get?_concat fresh,
    addEntries_valuesOf distinct, OrderedMap.insert_concat fresh]

/-- Values under construction have the keys of the values. -/
@[simp] theorem keys_map_valueDraft (entries : List (String × Inline)) :
    OrderedMap.keys (entries.map valueDraft) = OrderedMap.keys entries := by
  simp [OrderedMap.keys, valueDraft]

/-- The sections of a table are added under other keys than its values have. -/
theorem nodup_keys_printed {entries : List (String × Item)}
    (distinct : OrderedMap.Distinct entries) :
    (OrderedMap.keys ((valuesOf entries).map valueDraft) ++
      OrderedMap.keys (printedSections entries)).Nodup := by
  -- Values and sections together have the keys of the table in another order.
  rw [keys_map_valueDraft]
  exact (keys_printed entries).nodup_iff.mpr distinct

/-- A key that is still to come is fresh. -/
theorem key_fresh {base : Drafts} {key : String} {later : List String}
    (distinct : (OrderedMap.keys base ++ key :: later).Nodup) : key ∉ OrderedMap.keys base :=
  fun member => (List.nodup_append.mp distinct).2.2 key member key List.mem_cons_self rfl

/-- Keys that are still to come stay fresh when the first of them is put last. -/
theorem nodup_keys_next {base : Drafts} {key : String} {later : List String}
    (distinct : (OrderedMap.keys base ++ key :: later).Nodup) (draft : Draft) :
    (OrderedMap.keys (base ++ [(key, draft)]) ++ later).Nodup := by
  simpa using distinct

mutual

/-- The sections of sound entries are added behind what is there under other keys. -/
theorem addSections_sectionsAt : ∀ {depth : Nat} {entries : List (String × Item)} {base : Drafts},
    (∀ entry ∈ entries, entry.2.Sound depth) →
    (OrderedMap.keys base ++ OrderedMap.keys (printedSections entries)).Nodup →
    (sectionsAt [] entries).foldlM Drafts.addSection base = some (base ++ draftSections entries)
  | depth, [], base, _, _ => by simp [sectionsAt, draftSections]
  | depth, (_, .value _) :: rest, base, sound, distinct => by
    rw [sectionsAt, draftSections]
    rw [printedSections] at distinct
    exact addSections_sectionsAt (List.forall_mem_cons.mp sound).2 distinct
  | depth, (key, .table entries) :: rest, base, sound, distinct => by
    obtain ⟨first, later⟩ := List.forall_mem_cons.mp sound
    rw [printedSections, OrderedMap.keys_cons] at distinct
    have fresh := key_fresh distinct
    obtain ⟨_, _, table⟩ := Item.sound_table first
    -- The header opens the table, and the sections in it are added to the open table.
    have inner := addSections_sectionsAt table.sound (nodup_keys_printed table.distinct)
    have others := addSections_sectionsAt later (nodup_keys_next distinct
      (.table .stated ((valuesOf entries).map valueDraft ++ draftSections entries)))
    rw [sectionsAt, List.foldlM_cons, (addSection_opens fresh table.distinct).1, List.nil_append,
      sectionsAt_cons]
    rw [Option.bind_eq_bind, Option.bind_some, List.foldlM_append,
      addSections_under (addSection_under_table fresh .stated), inner, Option.map_some,
      Option.bind_eq_bind, Option.bind_some, others, draftSections, List.append_assoc,
      List.singleton_append]
  | depth, (key, .tables []) :: rest, base, sound, distinct => by
    -- No sound list of tables is empty.
    obtain ⟨_, _, nonempty, _⟩ := Item.sound_tables (List.forall_mem_cons.mp sound).1
    exact absurd rfl nonempty
  | depth, (key, .tables (entries :: elements)) :: rest, base, sound, distinct => by
    obtain ⟨first, later⟩ := List.forall_mem_cons.mp sound
    rw [printedSections, OrderedMap.keys_cons] at distinct
    have fresh := key_fresh distinct
    obtain ⟨_, _, _, tables⟩ := Item.sound_tables first
    obtain ⟨table, tables⟩ := List.forall_mem_cons.mp tables
    -- The first header opens the list, and the others continue it.
    have inner := addSections_sectionsAt table.sound (nodup_keys_printed table.distinct)
    have pushed := addSections_elementsAt []
      ((valuesOf entries).map valueDraft ++ draftSections entries) tables fresh
    have others := addSections_sectionsAt later (nodup_keys_next distinct
      (listDraft (draftElements (entries :: elements))))
    rw [sectionsAt, elementsAt, List.cons_append, List.foldlM_cons,
      (addSection_opens fresh table.distinct).2, List.nil_append, sectionsAt_cons]
    rw [Option.bind_eq_bind, Option.bind_some, List.foldlM_append, List.foldlM_append,
      addSections_under (addSection_under_tables fresh []), inner, Option.map_some,
      Option.bind_eq_bind, Option.bind_some, pushed, Option.bind_some]
    rw [draftElements, listDraft] at others
    rw [others, draftSections, draftElements, listDraft, List.append_assoc, List.singleton_append]

/-- The tables of a list are pushed behind the last one of their key. -/
theorem addSections_elementsAt : ∀ {depth : Nat} {elements : List (List (String × Item))}
    {base : Drafts} {key : String} (earlier : List Drafts) (last : Drafts),
    (∀ entries ∈ elements, SoundEntries depth entries) → key ∉ OrderedMap.keys base →
    (elementsAt [] key elements).foldlM Drafts.addSection (base ++ [(key, .tables earlier last)]) =
      some (base ++ [(key, pushTables earlier last (draftElements elements))])
  | depth, [], base, key, earlier, last, _, _ => by simp [elementsAt, draftElements, pushTables]
  | depth, entries :: rest, base, key, earlier, last, sound, fresh => by
    obtain ⟨table, later⟩ := List.forall_mem_cons.mp sound
    -- The header closes the table that was last, and opens the next one behind it.
    have inner := addSections_sectionsAt table.sound (nodup_keys_printed table.distinct)
    have others := addSections_elementsAt (earlier ++ [last])
      ((valuesOf entries).map valueDraft ++ draftSections entries) later fresh
    rw [elementsAt, List.foldlM_cons, addSection_continues fresh earlier last table.distinct,
      List.nil_append, sectionsAt_cons]
    rw [Option.bind_eq_bind, Option.bind_some, List.foldlM_append,
      addSections_under (addSection_under_tables fresh (earlier ++ [last])), inner, Option.map_some,
      Option.bind_eq_bind, Option.bind_some, others, draftElements, pushTables]

end

/-- Entries are finished one by one. -/
theorem finishedEntries_append (front back : Drafts) :
    finishedEntries (front ++ back) = finishedEntries front ++ finishedEntries back := by
  induction front with
  | nil => rfl
  | cons entry rest ih =>
    rw [List.cons_append, finishedEntries, finishedEntries, ih, List.cons_append]

/-- Tables are finished one by one. -/
theorem finishedTables_append (front back : List Drafts) :
    finishedTables (front ++ back) = finishedTables front ++ finishedTables back := by
  induction front with
  | nil => rfl
  | cons entries rest ih =>
    rw [List.cons_append, finishedTables, finishedTables, ih, List.cons_append]

/-- Values are finished from the start. -/
theorem finishedEntries_map_valueDraft (entries : List (String × Inline)) :
    finishedEntries (entries.map valueDraft) = entries.map valueItem := by
  induction entries with
  | nil => rfl
  | cons entry rest ih => rw [List.map_cons, List.map_cons, ← ih]; rfl

/-- Values in an inline table are what they are. -/
theorem inlineDrafts_map_valueDraft (entries : List (String × Inline)) :
    inlineDrafts (entries.map valueDraft) = entries := by
  induction entries with
  | nil => rfl
  | cons entry rest ih =>
    -- Only the entries behind the first one are still to be collected.
    conv => rhs; rw [← ih]
    rfl

/-- A list of tables holds the earlier ones, the last one and those pushed behind it. -/
theorem item_pushTables (earlier : List Drafts) (last : Drafts) (later : List Drafts) :
    (pushTables earlier last later).item =
      .tables (finishedTables earlier ++ finishedEntries last :: finishedTables later) := by
  -- Each element that is pushed moves the last one to those that are finished.
  induction later generalizing earlier last with
  | nil => rw [pushTables, Draft.item, finishedTables]
  | cons next rest ih =>
    rw [pushTables, ih, finishedTables_append, finishedTables, finishedTables, finishedTables,
      List.append_assoc, List.singleton_append]

mutual

/-- What the sections of sound entries assemble to is finished in printed order. -/
theorem finishedEntries_draftSections : ∀ {depth : Nat} {entries : List (String × Item)},
    (∀ entry ∈ entries, entry.2.Sound depth) →
    finishedEntries (draftSections entries) = printedSections entries
  | depth, [], _ => by rw [draftSections, printedSections, finishedEntries]
  | depth, (_, .value _) :: rest, sound => by
    rw [draftSections, printedSections]
    exact finishedEntries_draftSections (List.forall_mem_cons.mp sound).2
  | depth, (key, .table entries) :: rest, sound => by
    obtain ⟨first, later⟩ := List.forall_mem_cons.mp sound
    obtain ⟨_, _, table⟩ := Item.sound_table first
    rw [draftSections, printedSections, finishedEntries, Draft.item, finishedEntries_append,
      finishedEntries_map_valueDraft, finishedEntries_draftSections table.sound,
      finishedEntries_draftSections later]
  | depth, (key, .tables []) :: rest, sound => by
    -- No sound list of tables is empty.
    obtain ⟨_, _, nonempty, _⟩ := Item.sound_tables (List.forall_mem_cons.mp sound).1
    exact absurd rfl nonempty
  | depth, (key, .tables (entries :: elements)) :: rest, sound => by
    obtain ⟨first, later⟩ := List.forall_mem_cons.mp sound
    obtain ⟨_, _, _, tables⟩ := Item.sound_tables first
    have finished := finishedTables_draftElements tables
    rw [draftElements, finishedTables] at finished
    rw [draftSections, printedSections, finishedEntries, draftElements, listDraft, item_pushTables,
      finishedTables, List.nil_append, finished, finishedEntries_draftSections later]

/-- What the tables of a sound list assemble to is finished in printed order. -/
theorem finishedTables_draftElements : ∀ {depth : Nat} {elements : List (List (String × Item))},
    (∀ entries ∈ elements, SoundEntries depth entries) →
    finishedTables (draftElements elements) = printedElements elements
  | depth, [], _ => by rw [draftElements, printedElements, finishedTables]
  | depth, entries :: rest, sound => by
    -- Each element is finished on its own, in the order of the list.
    obtain ⟨table, later⟩ := List.forall_mem_cons.mp sound
    rw [draftElements, printedElements, finishedTables, finishedEntries_append,
      finishedEntries_map_valueDraft, finishedEntries_draftSections table.sound,
      finishedTables_draftElements later]

end

/-- The values and the sections of a sound table assemble to the table in printed order. -/
theorem assemble_sectionsAt {depth : Nat} {entries : List (String × Item)}
    (table : SoundEntries depth entries) :
    assemble ((valuesOf entries).map plainEntry) (sectionsAt [] entries) =
      some (printed entries) := by
  have added := addSections_sectionsAt table.sound (nodup_keys_printed table.distinct)
  -- The values are the root table, and the sections are added to it.
  rw [assemble, addEntries_valuesOf table.distinct, Option.bind_some, added, Option.map_some,
    finishedEntries_append, finishedEntries_map_valueDraft,
    finishedEntries_draftSections table.sound, printed]

/-- Values with distinct keys assemble to the inline table of them. -/
theorem assembleInline_plain {entries : List (String × Inline)}
    (distinct : OrderedMap.Distinct entries) :
    assembleInline (entries.map plainEntry) = some (.table entries) := by
  -- Every key is plain and new, so each entry becomes a draft of its value.
  have added : Drafts.addEntries [] (entries.map plainEntry) = some (entries.map valueDraft) :=
    @addEntries_plain [] entries distinct
  rw [assembleInline, added, Option.map_some, inlineDrafts_map_valueDraft]

end SyncStore.Toml
