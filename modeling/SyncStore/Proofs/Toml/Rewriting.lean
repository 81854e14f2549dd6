import SyncStore.Proofs.Files.Kept

/-! Every TOML file that is read can be written back, and then it holds the same data. -/

namespace SyncStore

/-- What stands under a key is followed by what stands under it in a row that is keyed alike. -/
theorem exists_get?_of_row {α β : Type} {R : α → β → Prop} {left : OrderedMap α}
    {right : OrderedMap β} (row : List.Forall₂ (Toml.Keyed R) left right) {key : String} {a : α}
    (found : left.get? key = some a) : ∃ b, right.get? key = some b ∧ R a b := by
  induction row with
  | nil => cases found
  | cons first _ ih =>
    rw [OrderedMap.get?] at found ⊢
    rw [← first.1]
    -- Both rows stop at the key, or both pass over it.
    split at found
    · rename_i here
      rw [if_pos here]
      exact ⟨_, rfl, Option.some.inj found ▸ first.2⟩
    · rename_i elsewhere
      rw [if_neg elsewhere]
      exact ih found

/-- What stands at a place is followed by what stands at the same place of the other row. -/
theorem exists_getElem?_of_row {α β : Type} {R : α → β → Prop} {left : List α} {right : List β}
    (row : List.Forall₂ R left right) {place : Nat} {a : α} (found : left[place]? = some a) :
    ∃ b, right[place]? = some b ∧ R a b := by
  -- Both rows are walked together, and the place is counted down on the way.
  induction row generalizing place with
  | nil => simp at found
  | cons first _ ih =>
    cases place with
    | zero => exact ⟨_, rfl, Option.some.inj found ▸ first⟩
    | succ place => exact ih found

/-- A step leads to the member under a key, or to the item at a place. -/
inductive Step where
  | member (key : String)
  | item (place : Nat)

/-- The part at the end of a path whose single steps lead on as `into` says. -/
def follow {α : Type} (into : Step → α → Option α) : List Step → α → Option α
  | [], whole => some whole
  | step :: path, whole => (into step whole).bind (follow into path)

/-- A path leads to related parts when every step does. -/
theorem exists_follow {α β : Type} (R : α → β → Prop) (into : Step → α → Option α)
    (into' : Step → β → Option β)
    (leads : ∀ step a b part, R a b → into step a = some part →
      ∃ other, into' step b = some other ∧ R part other)
    {path : List Step} {a part : α} {b : β} (related : R a b)
    (found : follow into path a = some part) :
    ∃ other, follow into' path b = some other ∧ R part other := by
  -- The induction is on the path, from whatever parts the steps before it have led to.
  induction path generalizing a b with
  | nil =>
    cases found
    exact ⟨b, rfl, related⟩
  | cons step path ih =>
    obtain ⟨inner, here, later⟩ := Option.bind_eq_some_iff.mp found
    obtain ⟨other, there, same⟩ := leads step a b inner related here
    -- The rest of the path is followed in what the first step leads to.
    obtain ⟨last, ends, reached⟩ := ih same later
    exact ⟨last, Option.bind_eq_some_iff.mpr ⟨other, there, ends⟩, reached⟩

namespace Value

/-- The part of a value that a step leads to. -/
def into? : Step → Value → Option Value
  | .member key, .object members => OrderedMap.get? key members
  | .item place, .array items => items[place]?
  | _, _ => none

/-- The part of a value at the end of a path. -/
def at? (path : List Step) (value : Value) : Option Value := follow into? path value

variable {left right value part : Value} {step : Step}

/-- What holds throughout a value holds throughout each of its parts. -/
theorem Throughout.into? {p : Value → Prop} (holds : value.Throughout p)
    (found : value.into? step = some part) : part.Throughout p := by
  -- Only a composite has parts, and only a step of its own kind leads to one.
  cases value with
  | array items =>
    cases step with
    | item place => exact (throughout_array.mp holds).2 part (List.mem_of_getElem? found)
    | member key => cases found
  | object members =>
    cases step with
    | member key => exact (throughout_object.mp holds).2 (key, part) (OrderedMap.mem_of_get? found)
    | item place => cases found
  | _ => cases step <;> cases found

/-- A step leads to the same part in every order of a value, up to order. -/
theorem Reordered.into? (reordered : left.Reordered right) (distinct : right.DistinctKeys)
    (found : right.into? step = some part) :
    ∃ other, left.into? step = some other ∧ other.Reordered part := by
  cases right with
  | array items =>
    obtain ⟨others, rfl, parts⟩ := reordered.of_array
    cases step with
    -- Items keep their places.
    | item place => exact exists_getElem?_of_row parts.flip found
    | member key => cases found
  | object members =>
    have unique := reordered.distinctKeys distinct
    obtain ⟨others, -, rfl, -⟩ := reordered.of_object
    cases step with
    -- A member is found by its key, wherever it stands.
    | member key =>
      have alike := reordered.get? unique key
      rw [show OrderedMap.get? key members = some part from found] at alike
      exact exists_of_rel alike
    | item place => cases found
  | _ => cases step <;> cases found

/-- A path leads to the same part in every order of a value, up to order. -/
theorem Reordered.at? {path : List Step} (reordered : left.Reordered right)
    (distinct : right.Throughout DistinctKeys) (found : right.at? path = some part) :
    ∃ other, left.at? path = some other ∧ other.Reordered part := by
  -- Distinct keys are needed in the parts again, so they are carried along.
  let alike (whole other : Value) : Prop := other.Reordered whole ∧ whole.Throughout DistinctKeys
  have leads (step : Step) (whole other part : Value) (same : alike whole other)
      (found : whole.into? step = some part) :
      ∃ inner, other.into? step = some inner ∧ alike part inner := by
    obtain ⟨inner, there, order⟩ := same.1.into? same.2.here found
    exact ⟨inner, there, order, same.2.into? found⟩
  obtain ⟨other, ends, order, -⟩ :=
    exists_follow alike Value.into? Value.into? leads ⟨reordered, distinct⟩ found
  exact ⟨other, ends, order⟩

end Value

namespace Toml

/-- The part of a value on one line that a step leads to. -/
def Inline.into? : Step → Inline → Option Inline
  | .member key, .table entries => OrderedMap.get? key entries
  | .item place, .array items => items[place]?
  | _, _ => none

/-- The part of an item that a step leads to; each table of a list is a table itself. -/
def Item.into? : Step → Item → Option Item
  | step, .value v => (v.into? step).map .value
  | .member key, .table entries => OrderedMap.get? key entries
  | .item place, .tables elements => elements[place]?.map .table
  | _, _ => none

/-- The part of an item at the end of a path. -/
def Item.at? (path : List Step) (item : Item) : Option Item := follow Item.into? path item

/-- A step into a value on one line leads to the value of what it leads to there. -/
theorem inlineValue_into? {v part : Inline} {value : Value} {step : Step}
    (converted : inlineValue v = .ok value) (found : v.into? step = some part) :
    ∃ inner, value.into? step = some inner ∧ inlineValue part = .ok inner := by
  -- The parts of a composite have been converted one by one, in their places.
  cases v with
  | array items =>
    rw [inlineValue] at converted
    obtain ⟨values, row, rfl⟩ := map_eq_ok.mp converted
    cases step with
    | item place => exact exists_getElem?_of_row (itemValues_eq_ok.mp row) found
    | member key => cases found
  | table entries =>
    rw [inlineValue] at converted
    obtain ⟨members, row, rfl⟩ := map_eq_ok.mp converted
    cases step with
    | member key => exact exists_get?_of_row (inlineEntries_eq_ok.mp row) found
    | item place => cases found
  | _ => cases step <;> cases found

/-- A step into an item leads to the value of what it leads to there. -/
theorem itemValue_into? {item part : Item} {value : Value} {step : Step}
    (converted : itemValue item = .ok value) (found : item.into? step = some part) :
    ∃ inner, value.into? step = some inner ∧ itemValue part = .ok inner := by
  cases item with
  | value v =>
    rw [itemValue] at converted
    rw [Item.into?] at found
    obtain ⟨inner, there, rfl⟩ := Option.map_eq_some_iff.mp found
    -- A value on one line has all its parts on that line.
    obtain ⟨last, ends, same⟩ := inlineValue_into? converted there
    exact ⟨last, ends, by rw [itemValue, same]⟩
  | table entries =>
    rw [itemValue] at converted
    obtain ⟨members, row, rfl⟩ := map_eq_ok.mp converted
    cases step with
    | member key => exact exists_get?_of_row (entryValues_eq_ok.mp row) found
    | item place => cases found
  | tables elements =>
    rw [itemValue] at converted
    obtain ⟨values, row, rfl⟩ := map_eq_ok.mp converted
    cases step with
    | item place =>
      -- What stands at a place of the list is one of its tables.
      obtain ⟨entries, there, rfl⟩ := Option.map_eq_some_iff.mp found
      exact exists_getElem?_of_row (elementValues_eq_ok.mp row) there
    | member key => cases found

/-- A path into an item leads to the value of what it leads to there. -/
theorem itemValue_at? {item part : Item} {value : Value} {path : List Step}
    (converted : itemValue item = .ok value) (found : item.at? path = some part) :
    ∃ inner, value.at? path = some inner ∧ itemValue part = .ok inner :=
  exists_follow (fun item value => itemValue item = .ok value) Item.into? Value.into?
    (fun _ _ _ _ => itemValue_into?) converted found

/-- The text of the date or time at the end of a path, if there is one. -/
def datetimeAt? (path : List Step) (document : Document) : Option String :=
  match (Item.table document).at? path with
  | some (.value (.datetime text)) => some text
  | _ => none

/-- Wherever a document has a date or a time, the data has its text as a string. -/
def KeepsDatetimes (document : Document) (data : Data) : Prop :=
  ∀ path text, datetimeAt? path document = some text →
    (Value.object data).at? path = some (.string text)

variable {document : Document} {data again : Data}

/-- The data of a document keeps its dates and times as strings. -/
theorem keepsDatetimes_of_toData (converted : toData document = .ok data) :
    KeepsDatetimes document data := by
  intro path text found
  -- The document is a table, whose value is followed along the same path.
  have table : itemValue (.table document) = .ok (.object data) := by
    rw [itemValue]
    exact map_eq_ok.mpr ⟨data, converted, rfl⟩
  rw [datetimeAt?] at found
  split at found
  · rename_i date ends
    obtain ⟨inner, there, string⟩ := itemValue_at? table ends
    -- A date has its text as value.
    rw [itemValue, inlineValue] at string
    rw [there, ← Except.ok.inj string, Option.some.inj found]
  · cases found

/-- Strings that were dates or times are the same in every order of the data. -/
theorem KeepsDatetimes.reordered (keeps : KeepsDatetimes document data)
    (distinct : (Value.object data).Throughout Value.DistinctKeys)
    (order : (Value.object again).Reordered (.object data)) : KeepsDatetimes document again := by
  intro path text found
  -- A string has no members to be in another order.
  obtain ⟨other, there, same⟩ := order.at? distinct (keeps path text found)
  exact same.of_scalar rfl ▸ there

/-- What TOML has a form for: no null, no integer past the signed words, and no infinite float. -/
def Held : Value → Prop
  | .null => False
  | .number (.int n) => -2 ^ 63 ≤ n.val ∧ n.val < 2 ^ 63
  | .number (.float x) => x.magnitude < Binary64.infinityWord
  | _ => True

/-- Values as documents hold them have a form. -/
theorem Plain.held {value : Value} (plain : Plain value) : Held value := by
  cases value with
  | null => cases plain.1
  | number n =>
    cases n with
    | int n => exact ⟨n.lower, of_decide_eq_true plain.2⟩
    | float x => exact x.finite
  | _ => trivial

/-- The failure of a float that is not finite. -/
def Refusal (error : StoreError) : Prop :=
  ∃ x, (∀ y, x ≠ Real64.finite y) ∧ error = .invalidData none (.nonFiniteFloat x)

/-- The first item without a value decides the failure. -/
theorem failure?_itemValues (items : List Inline) :
    failure? (itemValues items) = items.findSome? fun item => failure? (inlineValue item) := by
  refine failure?_row (by rw [itemValues]; rfl) (fun item rest => ?_) items
  rw [itemValues]
  cases inlineValue item <;> simp

/-- So does the first entry of an inline table. -/
theorem failure?_inlineEntries (entries : List (String × Inline)) :
    failure? (inlineEntries entries) =
      entries.findSome? fun entry => failure? (inlineValue entry.2) := by
  refine failure?_row (by rw [inlineEntries]; rfl) (fun entry rest => ?_) entries
  rw [inlineEntries]
  cases inlineValue entry.2 <;> simp

/-- So does the first entry of a table. -/
theorem failure?_entryValues (entries : List (String × Item)) :
    failure? (entryValues entries) =
      entries.findSome? fun entry => failure? (itemValue entry.2) := by
  refine failure?_row (by rw [entryValues]; rfl) (fun entry rest => ?_) entries
  rw [entryValues]
  cases itemValue entry.2 <;> simp

/-- So does the first table of a list. -/
theorem failure?_elementValues (elements : List (List (String × Item))) :
    failure? (elementValues elements) =
      elements.findSome? fun entries => failure? (entryValues entries) := by
  refine failure?_row (by rw [elementValues]; rfl) (fun entries rest => ?_) elements
  rw [elementValues]
  cases entryValues entries <;> simp

/-- A value on one line is only refused for a float in it. -/
theorem refusal_of_inlineValue {v : Inline} {error : StoreError}
    (failed : failure? (inlineValue v) = some error) : Refusal error := by
  -- A composite fails as one of its parts, so the failure is traced down to a float.
  induction v using Inline.parts_induction generalizing error with
  | float x =>
    rw [inlineValue] at failed
    cases x with
    | finite x => cases failed
    | _ => cases failed; exact ⟨_, by simp, rfl⟩
  | array items ih =>
    rw [inlineValue, failure?_map, failure?_itemValues] at failed
    obtain ⟨item, inside, failed⟩ := List.exists_of_findSome?_eq_some failed
    exact ih item inside failed
  | table entries ih =>
    rw [inlineValue, failure?_map, failure?_inlineEntries] at failed
    obtain ⟨entry, inside, failed⟩ := List.exists_of_findSome?_eq_some failed
    exact ih entry inside failed
  | _ => rw [inlineValue] at failed; cases failed

/-- The entries of a table are only refused for a float when each of them is. -/
theorem refusal_of_entryValues {entries : List (String × Item)} {error : StoreError}
    (parts : ∀ entry ∈ entries, ∀ {error}, failure? (itemValue entry.2) = some error →
      Refusal error)
    (failed : failure? (entryValues entries) = some error) : Refusal error := by
  rw [failure?_entryValues] at failed
  obtain ⟨entry, inside, failed⟩ := List.exists_of_findSome?_eq_some failed
  exact parts entry inside failed

/-- An item is only refused for a float in it. -/
theorem refusal_of_itemValue {item : Item} {error : StoreError}
    (failed : failure? (itemValue item) = some error) : Refusal error := by
  induction item using Item.parts_induction generalizing error with
  | value v =>
    rw [itemValue] at failed
    exact refusal_of_inlineValue failed
  | table entries ih =>
    rw [itemValue, failure?_map] at failed
    exact refusal_of_entryValues ih failed
  | tables elements ih =>
    rw [itemValue, failure?_map, failure?_elementValues] at failed
    obtain ⟨entries, listed, failed⟩ := List.exists_of_findSome?_eq_some failed
    exact refusal_of_entryValues (ih entries listed) failed

/-- A document is only refused for a float in it. -/
theorem refusal_of_toData {error : StoreError} (failed : toData document = .error error) :
    Refusal error :=
  refusal_of_entryValues (fun _ _ => refusal_of_itemValue) (failure?_eq_some.mpr failed)

end Toml

namespace FileFormat

variable {raw text : String} {data : Data}

/-- Text is read when it is a document whose data can be told. -/
theorem toml_read_eq_ok : toml.read raw = .ok data ↔
    ∃ document, Toml.read? raw = some document ∧ Toml.toData document = .ok data := by
  rw [toml_read, readToml]
  cases Toml.read? raw <;> simp

/-- Text is refused as invalid data exactly when it is a document with a float that is not
finite. -/
theorem toml_read_invalidData :
    (∃ file defect, toml.read raw = .error (.invalidData file defect)) ↔
      ∃ document, Toml.read? raw = some document ∧ Toml.HoldsNonFinite document := by
  rw [toml_read, readToml]
  cases found : Toml.read? raw with
  | none =>
    -- Text that is no document fails in another way.
    simp
  | some document =>
    constructor
    · rintro ⟨file, defect, refused⟩
      exact ⟨document, rfl, Toml.toData_eq_error.mp ⟨_, refused⟩⟩
    · rintro ⟨same, found, holds⟩
      obtain rfl := Option.some.inj found
      -- There is some failure, and no other kind than this one.
      obtain ⟨error, refused⟩ := Toml.toData_eq_error.mpr holds
      obtain ⟨x, -, rfl⟩ := Toml.refusal_of_toData refused
      exact ⟨_, _, refused⟩

/-- Data that is written is written as the same text in the order in which it is printed. -/
theorem toml_write_asPrinted (written : toml.write data = .ok text) :
    toml.write (Toml.dataAsPrinted data) = .ok text := by
  obtain ⟨document, converted, rfl⟩ := map_eq_ok.mp written
  -- The document in printed order has the text of the document itself.
  change (Toml.ofData (Toml.dataAsPrinted data)).map Toml.render = _
  rw [(Toml.printed_round_trip converted).1, ← Toml.render_printed]
  rfl

/-- The text of data that is printed back is read as the data in the order in which it is
printed. -/
theorem toml_read_asPrinted (written : toml.write data = .ok text)
    (back : BackendKind.toml.PrintsBack data) :
    toml.read text = .ok (Toml.dataAsPrinted data) := by
  obtain ⟨document, converted, rfl⟩ := map_eq_ok.mp written
  exact toml_read_eq_ok.mpr
    ⟨_, back document converted, (Toml.printed_round_trip converted).2⟩

/--
Data that was read from a document loses nothing when it is written and read again.

- `held`: it has nothing in it that TOML has no form for
- `dates`: dates and times have become strings
- `writes`: it has a text
- `reads`: if that text is a document again, as it was printed, it holds the same data in some
  order, with the same strings for dates and times, and this data has the same text

Headers and dotted keys may each have as many parts as the reader follows, and one header is
printed for both of them together, so there are texts that it does not follow again.
-/
structure WritesBack (document : Toml.Document) (data : Data) : Prop where
  held : (Value.object data).Throughout Toml.Held
  dates : Toml.KeepsDatetimes document data
  writes : ∃ text, toml.write data = .ok text
  reads : ∀ {text}, toml.write data = .ok text → BackendKind.toml.PrintsBack data →
    ∃ again, toml.read text = .ok again ∧ (Value.object again).Reordered (.object data) ∧
      Toml.KeepsDatetimes document again ∧ toml.write again = .ok text

/--
A TOML text that is read can be written back without loss, and it is refused as invalid data
exactly when it is a document with a float that is not finite.
-/
theorem toml_rewriting (raw : String) :
    (∀ data, toml.read raw = .ok data →
      ∃ document, Toml.read? raw = some document ∧ WritesBack document data) ∧
    ((∃ file defect, toml.read raw = .error (.invalidData file defect)) ↔
      ∃ document, Toml.read? raw = some document ∧ Toml.HoldsNonFinite document) := by
  refine ⟨fun data read => ?_, toml_read_invalidData⟩
  obtain ⟨document, found, converted⟩ := toml_read_eq_ok.mp read
  have dates := Toml.keepsDatetimes_of_toData converted
  have keeps : BackendKind.toml.format? = some toml := rfl
  have distinct := BackendKind.distinct_of_read keeps read
  -- What the reader makes of documents lies within what the printer takes.
  have takes := BackendKind.takes_of_read keeps read
  have writes : ∃ text, toml.write data = .ok text := by
    rcases BackendKind.write_cases keeps data with ⟨-, writes⟩ | ⟨refused, -⟩
    · exact writes
    · rw [takes] at refused
      cases refused
  refine ⟨document, found, (Toml.plain_of_toData converted).imp fun _ => Toml.Plain.held, dates,
    writes, fun written back => ?_⟩
  -- Nothing is left out, so only the order changes.
  have order := Toml.dataAsPrinted_reordered data
  rw [Toml.membersWithoutNulls_of_toData converted] at order
  exact ⟨_, toml_read_asPrinted written back, order, dates.reordered distinct order,
    toml_write_asPrinted written⟩

/-- Dotted keys become tables, and a list of tables on one line becomes one with headers. -/
theorem toml_rewriting_spans :
    let raw := "at.day = 1979-05-27\ntitle = 'log'\n[a.b]\n" ++
      "spans = [\x7b from = 1979-05-27 07:32:00Z, n = 0x10 \x7d]\n[[a.rows]]\nx = 1.5\n"
    let span : Value := .object [("from", .string "1979-05-27T07:32:00Z"),
      ("n", .number (.int ⟨16, by decide, by decide⟩))]
    let row : Value :=
      .object [("x", .number (.float ⟨false, 4609434218613702656, by decide⟩))]
    let data : Data := [("at", .object [("day", .string "1979-05-27")]),
      ("title", .string "log"),
      ("a", .object [("b", .object [("spans", .array [span])]), ("rows", .array [row])])]
    let text := "title = \"log\"\n\n[at]\nday = \"1979-05-27\"\n\n[a]\n\n[a.b]\n\n" ++
      "[[a.b.spans]]\nfrom = \"1979-05-27T07:32:00Z\"\nn = 16\n\n[[a.rows]]\nx = 1.5\n"
    let path : List Step :=
      [.member "a", .member "b", .member "spans", .item 0, .member "from"]
    toml.read raw = .ok data ∧ toml.write data = .ok text ∧
      ∃ again, toml.read text = .ok again ∧ (Value.object again).Reordered (.object data) ∧
        (Value.object again).at? path = some (.string "1979-05-27T07:32:00Z") ∧
        toml.write again = .ok text := by
  intro raw span row data text path
  -- Both texts are computed, and what they hold is compared with the data.
  have read : toml.read raw = .ok data := toOption_eq_some.mp (by decide +kernel)
  have written : toml.write data = .ok text := toOption_eq_some.mp (by decide +kernel)
  have dated : (Toml.read? raw).bind (Toml.datetimeAt? path) = some "1979-05-27T07:32:00Z" := by
    decide +kernel
  have floats : (Value.object data).Throughout (Value.FloatSatisfies Toml.ReadsBack) := by
    simp only [data, span, row, Value.Throughout, Value.ThroughoutMembers, Value.ThroughoutItems,
      Value.FloatSatisfies, true_and, and_true]
    rfl
  have readable : Toml.ReadableMembers Toml.maxDepth data := by
    simp [data, span, row, Toml.ReadableMembers, Toml.Readable, Toml.ReadableItems,
      Toml.isTableList, Toml.maxDepth, Value.isObject]
  have keeps : BackendKind.toml.format? = some toml := rfl
  have back := BackendKind.printsBack_toml readable (BackendKind.distinct_of_read keeps read) floats
  obtain ⟨document, found, writes⟩ := (toml_rewriting raw).1 data read
  obtain ⟨again, reads, order, keeps, stable⟩ := writes.reads written back
  rw [found] at dated
  exact ⟨read, written, again, reads, order, keeps path _ dated, stable⟩

end FileFormat

end SyncStore
