import SyncStore.Proofs.Codec
import SyncStore.Proofs.Except
import SyncStore.Proofs.Remote.Service
import SyncStore.Proofs.Remote.Twins
import SyncStore.Proofs.Store.Twins

/-! A store that alone writes to its service agrees with it on every key that is not pending. -/

namespace SyncStore

/-- A value is storable when its stored text decodes to it again. -/
def Value.Storable (value : Value) : Prop := decodeValue (encodeValue value) = value

/--
A memory is coherent with the texts outside when they give the value of every key not pending.

- `distinct`: no key stands in memory twice
- `storable`: what is in memory can be written and read again
- `decodes`: so can what the texts decode to
- `settled`: a key that is not pending has a text that decodes to its value in memory
-/
structure Coherent (texts : Texts) (cache : Data) (pending : String → Bool) : Prop where
  distinct : cache.Distinct
  storable : ∀ key value, cache.get? key = some value → value.Storable
  decodes : ∀ key raw, texts key = some raw → (decodeValue raw).Storable
  settled : ∀ key value, cache.get? key = some value → pending key = false →
    ∃ raw, texts key = some raw ∧ decodeValue raw = value

namespace Coherent

variable {texts : Texts} {cache : Data} {pending later : String → Bool}

/-- Keys may become pending at any time. -/
theorem mono (coherent : Coherent texts cache pending)
    (fewer : ∀ key, later key = false → pending key = false) : Coherent texts cache later where
  distinct := coherent.distinct
  storable := coherent.storable
  decodes := coherent.decodes
  settled key value found quiet := coherent.settled key value found (fewer key quiet)

/-- A value assigned in memory only leaves its key pending. -/
theorem assign (coherent : Coherent texts cache pending) {changed : String} {value : Value}
    (storable : value.Storable)
    (fewer : ∀ key, later key = false → key ≠ changed ∧ pending key = false) :
    Coherent texts (cache.insert changed value) later where
  distinct := coherent.distinct.insert changed value
  storable key found looked := by
    -- The assigned value is storable, and the others are old ones.
    by_cases same : key = changed
    · subst key
      rw [OrderedMap.get?_insert_self] at looked
      exact Option.some.inj looked ▸ storable
    · rw [OrderedMap.get?_insert_of_ne same] at looked
      exact coherent.storable key found looked
  decodes := coherent.decodes
  settled key found looked quiet := by
    -- A key that is not pending is not the assigned one.
    obtain ⟨other, quiet⟩ := fewer key quiet
    rw [OrderedMap.get?_insert_of_ne other] at looked
    exact coherent.settled key found looked quiet

/-- Data assigned in memory only leaves all its keys pending. -/
theorem replace (coherent : Coherent texts cache pending) {data : Data} (distinct : data.Distinct)
    (storable : ∀ entry ∈ data, entry.2.Storable)
    (fewer : ∀ key, later key = false → data.get? key = none) : Coherent texts data later where
  distinct := distinct
  storable key value looked := storable (key, value) (OrderedMap.mem_of_get? looked)
  decodes := coherent.decodes
  settled key value looked quiet := by simp [fewer key quiet] at looked

/-- Overriding entries merged into memory only leave their keys pending. -/
theorem merge (coherent : Coherent texts cache pending) {overrides : Data}
    (storable : ∀ entry ∈ overrides, entry.2.Storable)
    (fewer : ∀ key, later key = false → key ∉ overrides.keys ∧ pending key = false) :
    Coherent texts (cache.merge overrides) later where
  distinct := coherent.distinct.merge overrides
  storable key value looked := by
    -- A value in memory is an overriding one or an old one.
    rcases OrderedMap.mem_merge (OrderedMap.mem_of_get? looked) with new | old
    · exact storable (key, value) new
    · exact coherent.storable key value (OrderedMap.get?_of_mem coherent.distinct old)
  decodes := coherent.decodes
  settled key value looked quiet := by
    obtain ⟨other, quiet⟩ := fewer key quiet
    rw [OrderedMap.get?_merge_of_not_mem other] at looked
    exact coherent.settled key value looked quiet

/-- A value found outside settles its key in memory. -/
theorem found (coherent : Coherent texts cache pending) {asked raw : String}
    (stored : texts asked = some raw)
    (fewer : ∀ key, later key = false → key = asked ∨ pending key = false) :
    Coherent texts (cache.insert asked (decodeValue raw)) later where
  distinct := coherent.distinct.insert asked _
  storable key value looked := by
    -- What was found decodes to a storable value.
    by_cases same : key = asked
    · subst key
      rw [OrderedMap.get?_insert_self] at looked
      exact Option.some.inj looked ▸ coherent.decodes asked raw stored
    · rw [OrderedMap.get?_insert_of_ne same] at looked
      exact coherent.storable key value looked
  decodes := coherent.decodes
  settled key value looked quiet := by
    -- The key that was found is settled by its text, and the others are as before.
    by_cases same : key = asked
    · subst key
      rw [OrderedMap.get?_insert_self] at looked
      exact ⟨raw, stored, Option.some.inj looked⟩
    · rw [OrderedMap.get?_insert_of_ne same] at looked
      exact coherent.settled key value looked ((fewer key quiet).resolve_left same)

/-- Data that mirrors the texts has nothing pending. -/
theorem read (coherent : Coherent texts cache pending) {data : Data} (mirrors : texts.Mirrors data)
    (distinct : data.Distinct) : Coherent texts data later where
  distinct := distinct
  storable key value looked := by
    obtain ⟨raw, stored, decoded⟩ := mirrors key value looked
    exact decoded ▸ coherent.decodes key raw stored
  decodes := coherent.decodes
  settled key value looked _ := mirrors key value looked

/-- Storing the value of one key settles it. -/
theorem writeOne (coherent : Coherent texts cache pending) {changed : String} {value : Value}
    (held : cache.get? changed = some value)
    (fewer : ∀ key, later key = false → key = changed ∨ pending key = false) :
    Coherent (texts.store changed (encodeValue value)) cache later where
  distinct := coherent.distinct
  storable := coherent.storable
  decodes key raw stored := by
    -- The written text decodes to the value in memory, which is storable.
    by_cases same : key = changed
    · subst key
      rw [Texts.store_self] at stored
      have storable := coherent.storable changed value held
      rw [← Option.some.inj stored, storable]
      exact storable
    · rw [Texts.store_of_ne texts same] at stored
      exact coherent.decodes key raw stored
  settled key kept looked quiet := by
    -- The written key is settled by its new text, and the others are as before.
    by_cases same : key = changed
    · subst key
      obtain rfl := Option.some.inj (held.symm.trans looked)
      exact ⟨_, Texts.store_self texts changed _, coherent.storable changed value held⟩
    · rw [Texts.store_of_ne texts same]
      exact coherent.settled key kept looked ((fewer key quiet).resolve_left same)

/-- Storing the values of all keys settles every one of them. -/
theorem writeAll (coherent : Coherent texts cache pending) :
    Coherent (texts.storeMany (Remote.encoded cache)) cache later := by
  -- The keys of the stored pairs are those of memory, each with the text of its value.
  have distinct : OrderedMap.Distinct (Remote.encoded cache) := by
    simpa [OrderedMap.Distinct] using coherent.distinct
  have stores : ∀ key value, cache.get? key = some value →
      texts.storeMany (Remote.encoded cache) key = some (encodeValue value) :=
    fun key value looked => Texts.storeMany_of_mem distinct
      (List.mem_map.mpr ⟨(key, value), OrderedMap.mem_of_get? looked, rfl⟩)
  refine ⟨coherent.distinct, coherent.storable, fun key raw stored => ?_, fun key value looked _ =>
    ⟨_, stores key value looked, coherent.storable key value looked⟩⟩
  cases looked : cache.get? key with
  | some value =>
    have storable := coherent.storable key value looked
    rw [stores key value looked] at stored
    rw [← Option.some.inj stored, storable]
    exact storable
  | none =>
    -- A key that is not in memory keeps its old text.
    have absent : key ∉ OrderedMap.keys (Remote.encoded cache) := by
      rw [Remote.keys_encoded]
      exact OrderedMap.get?_eq_none_iff.mp looked
    rw [Texts.storeMany_of_not_mem absent] at stored
    exact coherent.decodes key raw stored

end Coherent

/-- The keys that a request gives a value of its caller. -/
def StoreRequest.assigns : StoreRequest → String → Bool
  | .backend (.set changed _ _), key => key == changed
  | .backend (.overwrite data), key => data.contains key
  | .backend (.update overrides), key => overrides.contains key
  | _, _ => false

/-- Only storable values are assigned, and nothing is written outside that is not in memory. -/
def StoreRequest.Orderly : StoreRequest → Prop
  | .backend (.set _ value _) => value.Storable
  | .backend (.overwrite data) => data.Distinct ∧ ∀ entry ∈ data, entry.2.Storable
  | .backend (.update overrides) => ∀ entry ∈ overrides, entry.2.Storable
  | .writeDatum _ _ => False
  | _ => True

namespace SyncedStore

variable {σ : Type}

/-- A single read that finds a value outside. -/
def finds (destination : Destination σ) (side : Side) (key : String) (store : SyncedStore σ) :
    Bool :=
  match (store.readDatum destination side key).1 with
  | .ok (some _) => true
  | _ => false

/-- The keys that a request settles, by writing them outside or by reading them from there. -/
def settles (destination : Destination σ) (side : Side) (request : StoreRequest)
    (store : SyncedStore σ) (key : String) : Bool :=
  let succeeds := (store.perform destination side request).1.isOk
  match request with
  -- A read through settles the key it asked for when that was found.
  | .backend (.get asked _) => key == asked && store.finds destination side asked
  | .backend (.getOr asked _ _) => key == asked && store.finds destination side asked
  -- A restricted store writes every key along with the changed one.
  | .backend (.set changed _ policy) =>
    policy.resolve store.writesByDefault && succeeds && (store.fullSyncOnly || key == changed)
  | .backend (.overwrite _) => succeeds
  | .backend (.update _) => succeeds
  | .backend .readData =>
    match (store.readData destination side).1 with
    | .ok data => data.contains key
    | .error _ => false
  | .writeData => succeeds
  | _ => false

end SyncedStore

/-- A store is tracked beside the keys that are pending: assigned, and not settled since. -/
structure Tracked (σ : Type) where
  store : SyncedStore σ
  pending : String → Bool

namespace Tracked

variable {σ : Type}

/-- Nothing is pending before the first request. -/
def start (store : SyncedStore σ) : Tracked σ := ⟨store, fun _ => false⟩

/-- A request changes the store, and its assigned keys stay pending unless it settles them. -/
def step (destination : Destination σ) (tracked : Tracked σ) (entry : Side × StoreRequest) :
    Tracked σ where
  store := (tracked.store.perform destination entry.1 entry.2).2
  pending key := (tracked.pending key || entry.2.assigns key) &&
    !tracked.store.settles destination entry.1 entry.2 key

/-- A run performs requests one after the other, each on its side. -/
def run (destination : Destination σ) (requests : List (Side × StoreRequest))
    (tracked : Tracked σ) : Tracked σ :=
  requests.foldl (step destination) tracked

end Tracked

namespace SyncedStore

variable {σ : Type} {clients : Side → Client σ} {texts : σ → Texts} {pending : String → Bool}

/-- A write of the whole data settles every key when it succeeds. -/
theorem writeData_coherent (serves : ∀ side, (clients side).Serves texts) (size : BatchSize)
    (side : Side) (store : SyncedStore σ)
    (coherent : Coherent (texts store.outside) store.cache pending) :
    Coherent (texts (writeData (Remote.destination clients size) side store).2.outside)
      (writeData (Remote.destination clients size) side store).2.cache
      (fun key =>
        pending key && !(writeData (Remote.destination clients size) side store).1.isOk) := by
  obtain ⟨stores, fails⟩ := Remote.writeAll_texts (serves side) store.cache store.outside
  simp only [writeData_eq, Remote.destination_writeAll]
  cases called : Remote.writeAll (clients side) store.cache store.outside with
  | mk answer after =>
    rw [called] at stores fails
    cases answer with
    -- A failed write changed nothing, so what was pending still is.
    | error error =>
      have kept : texts after = texts store.outside := fails error rfl
      simp only [kept]
      exact coherent.mono fun key quiet => by simpa [Except.isOk, Except.toBool] using quiet
    -- A successful one stored every value.
    | ok done =>
      have stored : texts after = _ := stores rfl
      simp only [stored]
      exact coherent.writeAll

/-- A write of one key settles it when it succeeds. -/
theorem writeDatum_coherent (serves : ∀ side, (clients side).Serves texts) (size : BatchSize)
    (side : Side) (store : SyncedStore σ)
    (coherent : Coherent (texts store.outside) store.cache pending)
    (single : store.fullSyncOnly = false) {changed : String} {value : Value}
    (held : store.cache.get? changed = some value) :
    Coherent
      (texts (writeDatum (Remote.destination clients size) side changed value store).2.outside)
      (writeDatum (Remote.destination clients size) side changed value store).2.cache
      (fun key => pending key &&
        !((writeDatum (Remote.destination clients size) side changed value store).1.isOk &&
          key == changed)) := by
  have stores := (serves side).set_stores changed (encodeValue value) store.outside
  have fails := (serves side).set_fails changed (encodeValue value) store.outside
  simp only [writeDatum_eq, Remote.destination_writeOne, Remote.writeOne, single,
    Bool.false_eq_true, ↓reduceIte]
  cases called : (clients side).set changed (encodeValue value) store.outside with
  | mk answer after =>
    rw [called] at stores fails
    cases answer with
    -- A failed write changed nothing, so what was pending still is.
    | error error =>
      have kept : texts after = texts store.outside := fails error rfl
      simp only [kept]
      exact coherent.mono fun key quiet => by simpa [Except.isOk, Except.toBool] using quiet
    -- A successful one stored the value of its key.
    | ok done =>
      have stored : texts after = _ := stores rfl
      simp only [stored]
      refine coherent.writeOne held fun key quiet => ?_
      simpa [Except.isOk, Except.toBool, or_comm, Classical.or_iff_not_imp_left] using quiet

/-- A read through settles its key when it finds a value. -/
theorem get_coherent (serves : ∀ side, (clients side).Serves texts) (size : BatchSize)
    (side : Side) (store : SyncedStore σ)
    (coherent : Coherent (texts store.outside) store.cache pending) (asked : String)
    (fallback : Fallback) :
    Coherent (texts (get (Remote.destination clients size) side asked fallback store).2.outside)
      (get (Remote.destination clients size) side asked fallback store).2.cache
      (fun key => pending key &&
        !(key == asked && finds (Remote.destination clients size) side asked store)) := by
  obtain ⟨keeps, answers⟩ := Remote.readOne_texts (serves side) asked store.outside
  cases single : store.fullSyncOnly with
  | true =>
    -- A restricted store reads nothing outside.
    simpa [get_eq, finds, readDatum_eq, refuseSingle, single] using coherent
  | false =>
    simp only [get_eq, finds, readDatum_eq, single, Remote.destination_readOne,
      Bool.false_eq_true, ↓reduceIte]
    cases called : Remote.readOne (clients side) asked store.outside with
    | mk answer after =>
      rw [called] at keeps answers
      rcases answer with error | _ | value
      · cases fallback <;> simpa [show texts after = _ from keeps] using coherent
      · simpa [show texts after = _ from keeps] using coherent
      · -- The value found is decoded from the text that the key has outside.
        have decoded : some value = (texts store.outside asked).map decodeValue := answers _ rfl
        obtain ⟨raw, stored, same⟩ := Option.map_eq_some_iff.mp decoded.symm
        subst same
        simp only [show texts after = _ from keeps]
        refine coherent.found stored fun key quiet => ?_
        simpa [or_comm, Classical.or_iff_not_imp_left] using quiet

/-- A single read changes neither memory nor the texts outside. -/
theorem readDatum_keeps (serves : ∀ side, (clients side).Serves texts) (size : BatchSize)
    (side : Side) (key : String) (store : SyncedStore σ) :
    (readDatum (Remote.destination clients size) side key store).2.cache = store.cache ∧
      texts (readDatum (Remote.destination clients size) side key store).2.outside =
        texts store.outside := by
  have keeps := (Remote.readOne_texts (serves side) key store.outside).1
  rw [readDatum_eq, Remote.destination_readOne]
  -- A restricted store asks nothing, and another one only reads.
  split
  · exact ⟨rfl, rfl⟩
  · exact ⟨rfl, keeps⟩

/-- A read of the whole data leaves nothing pending in memory when it succeeds. -/
theorem readData_coherent (serves : ∀ side, (clients side).Serves texts) (size : BatchSize)
    (side : Side) (store : SyncedStore σ)
    (coherent : Coherent (texts store.outside) store.cache pending) {later : String → Bool}
    (fewer : (readData (Remote.destination clients size) side store).1.isOk = false →
      ∀ key, later key = false → pending key = false) :
    Coherent (texts (readData (Remote.destination clients size) side store).2.outside)
      (readData (Remote.destination clients size) side store).2.cache later := by
  obtain ⟨keeps, answers⟩ := Remote.readAll_mirrors (serves side) size store.outside
  simp only [readData_eq, Remote.destination_readAll] at fewer ⊢
  cases called : Remote.readAll (clients side) size store.outside with
  | mk answer after =>
    rw [called] at keeps answers
    rw [called] at fewer
    cases answer with
    -- A failed read leaves memory alone.
    | error error =>
      simp only [show texts after = _ from keeps]
      exact coherent.mono (fewer rfl)
    -- A successful one replaces memory by what mirrors the texts.
    | ok data =>
      simp only [show texts after = _ from keeps]
      obtain ⟨mirrors, distinct⟩ := answers data rfl
      exact coherent.read mirrors distinct

end SyncedStore

namespace Tracked

variable {σ : Type} {clients : Side → Client σ} {texts : σ → Texts}

/-- A tracked store is coherent when its memory agrees with the texts outside. -/
def Coherent (texts : σ → Texts) (tracked : Tracked σ) : Prop :=
  SyncStore.Coherent (texts tracked.store.outside) tracked.store.cache tracked.pending

/-- Setting a key assigns it in memory, and then writes it alone or with all others. -/
theorem set_coherent (serves : ∀ side, (clients side).Serves texts) (size : BatchSize)
    {tracked : Tracked σ} (coherent : tracked.Coherent texts) (side : Side) (changed : String)
    {value : Value} (storable : value.Storable) (policy : WritePolicy) :
    (tracked.step (Remote.destination clients size)
      (side, .backend (.set changed value policy))).Coherent texts := by
  -- Before anything is written, the changed key is pending.
  have assigned : SyncStore.Coherent (texts tracked.store.outside)
      (tracked.store.cache.insert changed value)
      (fun key => tracked.pending key || key == changed) :=
    coherent.assign storable fun key quiet => by simpa [and_comm] using quiet
  have held : (tracked.store.cache.insert changed value).get? changed = some value :=
    OrderedMap.get?_insert_self changed value tracked.store.cache
  let assigning : SyncedStore σ :=
    { tracked.store with cache := tracked.store.cache.insert changed value }
  simp only [Coherent, step, SyncedStore.settles, StoreRequest.assigns, SyncedStore.perform,
    Backend.perform, Backend.synced, isOk_map, SyncedStore.set_eq]
  cases writes : policy.resolve tracked.store.writesByDefault with
  -- Without a write the key stays pending.
  | false => simpa using assigned
  -- A restricted store writes all of its data, and another one the changed key alone.
  | true =>
    cases single : tracked.store.fullSyncOnly with
    | true =>
      have written := SyncedStore.writeData_coherent serves size side assigning assigned
      simpa [assigning, single] using written
    | false =>
      have written :=
        SyncedStore.writeDatum_coherent serves size side assigning assigned single held
      simpa [assigning, single] using written

/-- Assigning all data in memory, and then writing it, keeps a tracked store coherent. -/
theorem assignAll_coherent (serves : ∀ side, (clients side).Serves texts) (size : BatchSize)
    {tracked : Tracked σ} (side : Side) {request : StoreRequest} {cache : Data}
    (performs : tracked.store.perform (Remote.destination clients size) side request =
      match SyncedStore.writeData (Remote.destination clients size) side
        { tracked.store with cache := cache } with
      | (answer, store) => (answer.map fun _ => .done, store))
    (settles : ∀ key, tracked.store.settles (Remote.destination clients size) side request key =
      (tracked.store.perform (Remote.destination clients size) side request).1.isOk)
    (assigned : SyncStore.Coherent (texts tracked.store.outside) cache
      (fun key => tracked.pending key || request.assigns key)) :
    (tracked.step (Remote.destination clients size) (side, request)).Coherent texts := by
  -- What was assigned is pending until the write of the whole data succeeds.
  have written := SyncedStore.writeData_coherent serves size side
    { tracked.store with cache := cache } assigned
  simp only [Coherent, step, settles, performs, isOk_map]
  exact written

/-- Every orderly request keeps a tracked store coherent. -/
theorem step_coherent (serves : ∀ side, (clients side).Serves texts) (size : BatchSize)
    {tracked : Tracked σ} (coherent : tracked.Coherent texts) (side : Side)
    {request : StoreRequest} (orderly : request.Orderly) :
    (tracked.step (Remote.destination clients size) (side, request)).Coherent texts := by
  cases request with
  | backend request =>
    cases request with
    | data =>
      exact coherent.mono fun key quiet => by
        simpa [step, StoreRequest.assigns, SyncedStore.settles] using quiet
    -- A read through settles its key when it finds a value.
    | get asked fallback =>
      have reached :=
        SyncedStore.get_coherent serves size side tracked.store coherent asked fallback
      simp only [Coherent, step, SyncedStore.settles, StoreRequest.assigns, Bool.or_false]
      exact reached
    | getOr asked default fallback =>
      have reached :=
        SyncedStore.get_coherent serves size side tracked.store coherent asked fallback
      simp only [Coherent, step, SyncedStore.settles, StoreRequest.assigns, Bool.or_false,
        SyncedStore.perform_getOr]
      exact reached
    | set changed value policy =>
      exact set_coherent serves size coherent side changed orderly policy
    | overwrite data =>
      refine assignAll_coherent serves size side rfl (fun _ => rfl) ?_
      -- Every key of the new data is pending until it is written.
      refine coherent.replace orderly.1 orderly.2 fun key quiet => ?_
      simp only [StoreRequest.assigns, OrderedMap.contains, Bool.or_eq_false_iff] at quiet
      simpa using quiet.2
    | update overrides =>
      refine assignAll_coherent serves size side rfl (fun _ => rfl) ?_
      -- Every overriding key is pending until it is written.
      refine coherent.merge orderly fun key quiet => ?_
      simp only [StoreRequest.assigns, OrderedMap.contains, Bool.or_eq_false_iff] at quiet
      exact ⟨OrderedMap.get?_eq_none_iff.mp (by simpa using quiet.2), quiet.1⟩
    | readData =>
      refine SyncedStore.readData_coherent serves size side tracked.store coherent
        fun failed key quiet => ?_
      -- A failed read settles nothing, so what is quiet now was quiet before.
      cases answered : (tracked.store.readData (Remote.destination clients size) side).1 with
      | error error =>
        simpa [step, StoreRequest.assigns, SyncedStore.settles, answered] using quiet
      | ok data => simp [answered, Except.isOk, Except.toBool] at failed
  | writeData =>
    refine assignAll_coherent serves size side rfl (fun _ => rfl) ?_
    exact coherent.mono fun key quiet => (Bool.or_eq_false_iff.mp quiet).1
  | writeDatum key value => exact orderly.elim
  | readDatum key =>
    -- A single read changes neither memory nor what is outside.
    have reached := SyncedStore.readDatum_keeps serves size side key tracked.store
    simp only [Coherent, step, SyncedStore.settles, StoreRequest.assigns, SyncedStore.perform,
      reached, Bool.or_false, Bool.not_false, Bool.and_true]
    exact coherent
  | setWriteDefault writes =>
    exact coherent.mono fun key quiet => by
      simpa [step, StoreRequest.assigns, SyncedStore.settles] using quiet

/-- Every run of orderly requests keeps a tracked store coherent. -/
theorem run_coherent (serves : ∀ side, (clients side).Serves texts) (size : BatchSize)
    {requests : List (Side × StoreRequest)} (orderly : ∀ entry ∈ requests, entry.2.Orderly)
    {tracked : Tracked σ} (coherent : tracked.Coherent texts) :
    (tracked.run (Remote.destination clients size) requests).Coherent texts := by
  -- The induction is on the requests still to come, and each step hands coherence to the next.
  induction requests generalizing tracked with
  | nil => exact coherent
  | cons entry rest ih =>
    have stepped := step_coherent serves size coherent entry.1 (orderly entry (by simp))
    exact ih (fun later member => orderly later (by simp [member])) stepped

/-- A store that starts empty is coherent with any texts that survive being stored again. -/
theorem start_coherent {store : SyncedStore σ} (empty : store.cache = [])
    (decodes : ∀ key raw, texts store.outside key = some raw → (decodeValue raw).Storable) :
    (start store).Coherent texts where
  distinct := by simp [start, empty]
  storable key value found := by simp [start, empty, OrderedMap.get?] at found
  decodes := decodes
  settled key value found := by simp [start, empty, OrderedMap.get?] at found

end Tracked

/--
A single writer agrees with its service on every key that is not pending.

Calls may be lost at any point, requests may come from either side, and the
store may be restricted to whole reads and writes.
-/
theorem SyncedStore.settled_keys_agree {σ : Type} {clients : Side → Client σ} {texts : σ → Texts}
    (serves : ∀ side, (clients side).Serves texts) (size : BatchSize) {store : SyncedStore σ}
    (empty : store.cache = [])
    (decodes : ∀ key raw, texts store.outside key = some raw → (decodeValue raw).Storable)
    {requests : List (Side × StoreRequest)} (orderly : ∀ entry ∈ requests, entry.2.Orderly)
    {key : String} {value : Value}
    (held : ((Tracked.start store).run (Remote.destination clients size) requests).store.cache.get?
      key = some value)
    (quiet : ((Tracked.start store).run (Remote.destination clients size) requests).pending key =
      false) :
    ∃ raw, texts ((Tracked.start store).run (Remote.destination clients size)
      requests).store.outside key = some raw ∧ decodeValue raw = value := by
  -- A store is coherent from its start on, whatever is asked of it.
  have started := Tracked.start_coherent empty decodes
  have reached := Tracked.run_coherent serves size orderly started
  exact reached.settled key value held quiet

/-- After a lost write of one key, another key that was written agrees with its text. -/
theorem SyncedStore.written_key_agrees_after_lost_write :
    let clients side := (Service.client side).lossy
    let service := { Service.empty with contents := [("greeting", .text "hello")] }
    let store : SyncedStore (List (Option StoreError) × Service) :=
      ⟨[], ([none, some (.remote "lost")], service), true, false⟩
    let requests : List (Side × StoreRequest) :=
      [(.async, .backend (.get "greeting" .propagate)),
        (.sync, .backend (.set "name" (.string "5") .default)),
        (.sync, .backend (.set "mode" (.bool true) .default))]
    let reached := (Tracked.start store).run (Remote.destination clients BatchSize.default) requests
    reached.pending "name" = true ∧
      ∃ raw, reached.store.outside.2.texts "mode" = some raw ∧ decodeValue raw = .bool true := by
  intro clients service store requests reached
  have serves side : (clients side).Serves fun state => state.2.texts :=
    (Service.client_serves side).lossy
  -- The only text of the service is no JSON text, so it decodes to a string.
  have decodes : ∀ key raw, service.texts key = some raw → (decodeValue raw).Storable := by
    intro key raw found
    obtain ⟨content, stored, same⟩ := Option.bind_eq_some_iff.mp found
    have entry := OrderedMap.mem_of_get? stored
    simp only [service, List.mem_singleton, Prod.mk.injEq] at entry
    obtain ⟨rfl, rfl⟩ := entry
    obtain rfl : "hello" = raw := Option.some.inj same
    have foreign : decodeValue "hello" = .string "hello" := by
      simp [decodeValue, Json.read, Json.readText, Json.readValue, Json.skipGap, Json.isGap,
        Json.failAfter]
    rw [Value.Storable, foreign]
    exact decodeValue_encodeValue (Value.exact_scalar rfl trivial) (Nat.zero_le _)
  -- Both assigned values are scalars, so they survive being stored.
  have orderly : ∀ entry ∈ requests, entry.2.Orderly := by
    simp only [requests, List.forall_mem_cons, StoreRequest.Orderly, Value.Storable]
    refine ⟨trivial, ?_, ?_, by simp⟩
    · exact decodeValue_encodeValue (Value.exact_scalar rfl trivial) (Nat.zero_le _)
    · exact decodeValue_encodeValue (Value.exact_scalar rfl trivial) (Nat.zero_le _)
  refine ⟨?_, SyncedStore.settled_keys_agree serves BatchSize.default rfl decodes orderly ?_ ?_⟩
  · rfl
  · rfl
  · rfl

end SyncStore
