import SyncStore.Proofs.OrderedMap
import SyncStore.Remote.RemoteDestination
import SyncStore.Remote.Service

/-! A client serves the texts of its service when its answers and its writes agree with them. -/

namespace SyncStore

/-- The texts of a service give the text of each key that has one. -/
abbrev Texts := String → Option String

namespace Texts

/-- A stored text replaces that of its key. -/
def store (texts : Texts) (key raw : String) : Texts :=
  fun other => if other = key then some raw else texts other

/-- Several texts are stored in turn. -/
def storeMany (texts : Texts) (pairs : List (String × String)) : Texts :=
  pairs.foldl (fun texts pair => texts.store pair.1 pair.2) texts

/-- Data mirrors texts when each of its values is decoded from the text of its key. -/
def Mirrors (texts : Texts) (data : Data) : Prop :=
  ∀ key value, data.get? key = some value → ∃ raw, texts key = some raw ∧ decodeValue raw = value

theorem store_self (texts : Texts) (key raw : String) : texts.store key raw key = some raw :=
  if_pos rfl

theorem store_of_ne (texts : Texts) {key other : String} (differ : other ≠ key) (raw : String) :
    texts.store key raw other = texts other :=
  if_neg differ

/-- Storing several texts leaves every other key alone. -/
theorem storeMany_of_not_mem {texts : Texts} {pairs : List (String × String)} {key : String}
    (absent : key ∉ OrderedMap.keys pairs) : texts.storeMany pairs key = texts key := by
  induction pairs generalizing texts with
  | nil => rfl
  | cons pair rest ih =>
    -- The first pair has another key, and so have those behind it.
    simp only [OrderedMap.keys_cons, List.mem_cons, not_or] at absent
    exact (ih absent.2).trans (store_of_ne texts absent.1 pair.2)

/-- Every pair stored under distinct keys is found afterwards. -/
theorem storeMany_of_mem {texts : Texts} {pairs : List (String × String)}
    (distinct : OrderedMap.Distinct pairs) {key raw : String} (member : (key, raw) ∈ pairs) :
    texts.storeMany pairs key = some raw := by
  induction pairs generalizing texts with
  | nil => simp at member
  | cons pair rest ih =>
    obtain ⟨first, text⟩ := pair
    obtain ⟨fresh, distinct⟩ := OrderedMap.distinct_cons.mp distinct
    rcases List.mem_cons.mp member with same | member
    · -- No later pair has the key of the first one.
      cases same
      have kept : (texts.store key raw).storeMany rest key = texts.store key raw key :=
        storeMany_of_not_mem fresh
      exact kept.trans (store_self texts key raw)
    · exact ih distinct member

/-- A fetched value of the text of its key keeps data a mirror. -/
theorem Mirrors.insert {texts : Texts} {data : Data} (mirrors : texts.Mirrors data)
    {key raw : String} (found : texts key = some raw) :
    texts.Mirrors (data.insert key (decodeValue raw)) := by
  intro other value looked
  -- The key is the inserted one, or its value is an old one.
  by_cases same : other = key
  · subst other
    rw [OrderedMap.get?_insert_self] at looked
    exact ⟨raw, found, Option.some.inj looked⟩
  · rw [OrderedMap.get?_insert_of_ne same] at looked
    exact mirrors other value looked

end Texts

/--
A client serves texts when its answers are taken from them and its successful writes change them.

Reads and failed calls leave the texts as they are, and an answer about many keys
counts only when it has one slot for each of them.
-/
structure Client.Serves {σ : Type} (client : Client σ) (texts : σ → Texts) : Prop where
  get_keeps : ∀ key state, texts (client.get key state).2 = texts state
  get_answers : ∀ key state found, (client.get key state).1 = .ok found → found = texts state key
  getMany_keeps : ∀ keys state, texts (client.getMany keys state).2 = texts state
  getMany_answers : ∀ keys state slots, (client.getMany keys state).1 = .ok slots →
    slots.length = keys.length → slots = keys.map (texts state)
  scan_keeps : ∀ cursor pattern count state,
    texts (client.scan cursor pattern count state).2 = texts state
  set_stores : ∀ key raw state, (client.set key raw state).1 = .ok () →
    texts (client.set key raw state).2 = (texts state).store key raw
  set_fails : ∀ key raw state error, (client.set key raw state).1 = .error error →
    texts (client.set key raw state).2 = texts state
  setMany_stores : ∀ pairs state, (client.setMany pairs state).1 = .ok () →
    texts (client.setMany pairs state).2 = (texts state).storeMany pairs
  setMany_fails : ∀ pairs state error, (client.setMany pairs state).1 = .error error →
    texts (client.setMany pairs state).2 = texts state

namespace Remote

variable {σ : Type} {client : Client σ} {texts : σ → Texts}

/-- Slots taken from the texts of their keys extend a mirror. -/
theorem collect_mirrors {known : Texts} (keys : List String) {data : Data}
    (mirrors : known.Mirrors data) : known.Mirrors (collect data (keys.zip (keys.map known))) := by
  induction keys generalizing data with
  | nil => exact mirrors
  | cons key rest ih =>
    cases found : known key with
    -- A slot without a text is left out, and a text is decoded into the data.
    | none => simpa [collect, found] using ih mirrors
    | some raw => simpa [collect, found] using ih (mirrors.insert found)

/-- Fetched slots never repeat a key. -/
theorem collect_distinct (slots : List (String × Option String)) {data : Data}
    (distinct : data.Distinct) : (collect data slots).Distinct := by
  induction slots generalizing data with
  | nil => exact distinct
  | cons slot rest ih =>
    obtain ⟨key, _ | raw⟩ := slot
    · -- An empty slot inserts nothing, and any other slot inserts one key.
      exact ih distinct
    · exact ih (distinct.insert key (decodeValue raw))

/--
An outcome mirrors known texts when it leaves a service with them and its data mirrors them.

A failed outcome carries no data, so nothing more is asked of it.
-/
def MirrorsOutcome {α : Type} (texts : σ → Texts) (known : Texts) (data : α → Data)
    (outcome : Outcome σ α) : Prop :=
  texts outcome.2 = known ∧
    ∀ answer, outcome.1 = .ok answer → known.Mirrors (data answer) ∧ (data answer).Distinct

/-- Fetching a batch extends a mirror of the texts. -/
theorem fetch_mirrors (serves : client.Serves texts) (batch : List String) {known : Texts}
    {data : Data} {state : σ} (holds : texts state = known) (mirrors : known.Mirrors data)
    (distinct : data.Distinct) : MirrorsOutcome texts known id (fetch client batch data state) := by
  have keeps := serves.getMany_keeps batch state
  have answers := serves.getMany_answers batch state
  unfold fetch
  cases called : client.getMany batch state with
  | mk answer after =>
    rw [called, holds] at keeps answers
    cases answer with
    | error error => exact ⟨keeps, by simp⟩
    | ok slots =>
      dsimp only
      split
      · -- One slot for each key means that every slot is the text of its key.
        rename_i even
        obtain rfl := answers slots rfl even
        refine ⟨keeps, fun answer same => ?_⟩
        cases same
        exact ⟨collect_mirrors batch mirrors, collect_distinct _ distinct⟩
      · exact ⟨keeps, by simp⟩

/-- Taking keys into batches extends a mirror of the texts. -/
theorem takeKeys_mirrors (serves : client.Serves texts) (size : Nat) (keys pending : List String)
    {known : Texts} {data : Data} {state : σ} (holds : texts state = known)
    (mirrors : known.Mirrors data) (distinct : data.Distinct) :
    MirrorsOutcome texts known Prod.snd (takeKeys client size keys pending data state) := by
  induction keys generalizing pending data state with
  | nil =>
    refine ⟨holds, fun answer same => ?_⟩
    cases same
    exact ⟨mirrors, distinct⟩
  | cons key rest ih =>
    rw [takeKeys]
    split
    · -- The batch is full, so it is fetched and the next keys start a new one.
      obtain ⟨keeps, answers⟩ := fetch_mirrors serves (pending ++ [key]) holds mirrors distinct
      cases fetched : fetch client (pending ++ [key]) data state with
      | mk answer after =>
        rw [fetched] at keeps answers
        cases answer with
        | error error => exact ⟨keeps, by simp⟩
        | ok fresh =>
          obtain ⟨mirrors, distinct⟩ := answers fresh rfl
          exact ih [] keeps mirrors distinct
    · -- Otherwise the key waits for the batch to fill.
      exact ih (pending ++ [key]) holds mirrors distinct

/-- Scanning on from a cursor extends a mirror of the texts. -/
theorem scanFrom_mirrors (serves : client.Serves texts) (size steps : Nat) (cursor : Cursor)
    (pending : List String) {known : Texts} {data : Data} {state : σ}
    (holds : texts state = known) (mirrors : known.Mirrors data) (distinct : data.Distinct) :
    MirrorsOutcome texts known id (scanFrom client size steps cursor pending data state) := by
  induction steps generalizing cursor pending data state with
  | zero => exact ⟨holds, by simp [scanFrom]⟩
  | succ steps ih =>
    have scanned := serves.scan_keeps cursor everyKey size state
    rw [scanFrom]
    cases called : client.scan cursor everyKey size state with
    | mk answer after =>
      rw [called, holds] at scanned
      cases answer with
      | error error => exact ⟨scanned, by simp⟩
      | ok step =>
        obtain ⟨next, keys⟩ := step
        obtain ⟨keeps, answers⟩ :=
          takeKeys_mirrors serves size keys pending scanned mirrors distinct
        dsimp only
        cases taken : takeKeys client size keys pending data after with
        | mk answer after =>
          rw [taken] at keeps answers
          cases answer with
          | error error => exact ⟨keeps, by simp⟩
          | ok filled =>
            obtain ⟨pending, fresh⟩ := filled
            obtain ⟨mirrors, distinct⟩ := answers _ rfl
            dsimp only
            -- The scan goes on, or ends with nothing pending, or with one more batch.
            split
            · exact ih next pending keeps mirrors distinct
            · split
              · refine ⟨keeps, fun answer same => ?_⟩
                cases same
                exact ⟨mirrors, distinct⟩
              · exact fetch_mirrors serves pending keeps mirrors distinct

/-- A full read leaves the texts alone and answers a mirror of them. -/
theorem readAll_mirrors (serves : client.Serves texts) (size : BatchSize) (state : σ) :
    MirrorsOutcome texts (texts state) id (readAll client size state) :=
  scanFrom_mirrors serves size.val _ 0 [] rfl (fun _ _ found => by simp [OrderedMap.get?] at found)
    OrderedMap.distinct_nil

/-- A single read leaves the texts alone and decodes the text of its key. -/
theorem readOne_texts (serves : client.Serves texts) (key : String) (state : σ) :
    texts (readOne client key state).2 = texts state ∧
      ∀ found, (readOne client key state).1 = .ok found →
        found = (texts state key).map decodeValue := by
  have keeps := serves.get_keeps key state
  have answers := serves.get_answers key state
  unfold readOne
  cases called : client.get key state with
  | mk answer after =>
    rw [called] at keeps answers
    -- An answer is the text of the key, which is then decoded.
    refine ⟨keeps, fun found same => ?_⟩
    cases answer with
    | error error => simp [Except.map] at same
    | ok raw =>
      obtain rfl := answers raw rfl
      simpa [Except.map, eq_comm] using same

/-- The texts that a map of values is stored as. -/
def encoded (data : Data) : List (String × String) :=
  data.map fun (key, value) => (key, encodeValue value)

@[simp] theorem keys_encoded (data : Data) : OrderedMap.keys (encoded data) = data.keys := by
  simp [encoded, OrderedMap.keys, Function.comp_def]

/-- A successful write of all data stores the text of every value, and a failed one stores none. -/
theorem writeAll_texts (serves : client.Serves texts) (data : Data) (state : σ) :
    ((writeAll client data state).1 = .ok () →
      texts (writeAll client data state).2 = (texts state).storeMany (encoded data)) ∧
    ∀ error, (writeAll client data state).1 = .error error →
      texts (writeAll client data state).2 = texts state := by
  unfold writeAll
  by_cases empty : data.isEmpty
  · -- No data is written by no command, and storing no pair changes nothing.
    obtain rfl := List.isEmpty_iff.mp empty
    simp [Texts.storeMany, encoded]
  · rw [if_neg empty]
    exact ⟨serves.setMany_stores _ state, serves.setMany_fails _ state⟩

end Remote

end SyncStore
