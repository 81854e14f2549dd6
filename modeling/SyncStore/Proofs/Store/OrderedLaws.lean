import Mathlib.Data.List.Induction
import SyncStore.Proofs.OrderedMap
import SyncStore.Proofs.Store.Refused
import SyncStore.Proofs.Store.Writing

/-! A memory obeys the laws of ordered maps, and so does what a restricted store leaves outside. -/

namespace SyncStore

variable {σ : Type}

/-- Requests in the order in which they are made, each with the side it comes from. -/
abbrev Requests := List (Side × StoreRequest)

/-- The data that a request carries has no key twice. -/
def StoreRequest.CarriesMap : StoreRequest → Prop
  | .backend (.overwrite data) => data.Distinct
  | .backend (.update overrides) => overrides.Distinct
  | _ => True

/-- A value that is set is also written outside. -/
def StoreRequest.WritesIfSet (writesByDefault : Bool) : StoreRequest → Prop
  | .backend (.set _ _ policy) => policy.resolve writesByDefault = true
  | _ => True

/-- What a request adds to the entries that were assigned; an overwrite starts them anew. -/
def StoreRequest.assign (entries : List (String × Value)) : StoreRequest → List (String × Value)
  | .backend (.set key value _) => entries ++ [(key, value)]
  | .backend (.update overrides) => entries ++ overrides
  | .backend (.overwrite data) => data
  | _ => entries

/-- A request that writes the whole data sets no default. -/
theorem StoreRequest.writeDefault_of_writesWhole {request : StoreRequest} {writesByDefault : Bool}
    (writes : request.writesWhole writesByDefault = true) :
    request.writeDefault writesByDefault = writesByDefault := by
  cases request with
  | setWriteDefault others => cases writes
  | _ => rfl

/-- An update that comes from a side. -/
abbrev updateFrom (side : Side) (overrides : Data) : Side × StoreRequest :=
  (side, .backend (.update overrides))

/-- A value that is set from a side. -/
abbrev setFrom (side : Side) (key : String) (value : Value) (policy : WritePolicy) :
    Side × StoreRequest :=
  (side, .backend (.set key value policy))

/-- An overwrite that comes from a side. -/
abbrev overwriteFrom (side : Side) (data : Data) : Side × StoreRequest :=
  (side, .backend (.overwrite data))

namespace Requests

/-- All data that requests carry are maps. -/
def CarryMaps (requests : Requests) : Prop := ∀ asked ∈ requests, asked.2.CarriesMap

/-- Every value that is set is written under the default of its time. -/
def SetsWrite : Bool → Requests → Prop
  | _, [] => True
  | writesByDefault, asked :: rest =>
    asked.2.WritesIfSet writesByDefault ∧ SetsWrite (asked.2.writeDefault writesByDefault) rest

/-- Some request writes the whole data, and none before it reads that from outside. -/
def WriteFirst : Bool → Requests → Prop
  | _, [] => False
  | writesByDefault, (_, request) :: rest => request.writesWhole writesByDefault = true ∨
    request ≠ .backend .readData ∧ WriteFirst (request.writeDefault writesByDefault) rest

/-- What was assigned since the last overwrite, behind the entries of a start. -/
def assignments (start : Data) (requests : Requests) : List (String × Value) :=
  requests.foldl (fun entries asked => asked.2.assign entries) start

variable {earlier later : Requests} {writesByDefault : Bool} {overrides : Data}

/-- The first of some requests write what they set when all of them do. -/
theorem SetsWrite.front (writes : SetsWrite writesByDefault (earlier ++ later)) :
    SetsWrite writesByDefault earlier := by
  -- Each request may set another default for those behind it.
  induction earlier generalizing writesByDefault with
  | nil => trivial
  | cons first rest ih => exact ⟨writes.1, ih writes.2⟩

/-- An update sets no value by itself. -/
theorem SetsWrite.update (writes : SetsWrite writesByDefault earlier) (side : Side)
    (overrides : Data) : SetsWrite writesByDefault (earlier ++ [updateFrom side overrides]) := by
  induction earlier generalizing writesByDefault with
  | nil => exact ⟨trivial, trivial⟩
  | cons first rest ih => exact ⟨writes.1, ih writes.2⟩

/-- An update in the place of the last requests writes if no earlier one does. -/
theorem WriteFirst.update (writes : WriteFirst writesByDefault (earlier ++ later)) (side : Side)
    (overrides : Data) :
    WriteFirst writesByDefault (earlier ++ [updateFrom side overrides]) := by
  induction earlier generalizing writesByDefault with
  | nil => exact .inl rfl
  | cons first rest ih => exact writes.imp_right fun others => ⟨others.1, ih others.2⟩

/-- The first of some requests carry maps when all of them do. -/
theorem CarryMaps.front (maps : CarryMaps (earlier ++ later)) : CarryMaps earlier :=
  fun asked inside => maps asked (List.mem_append_left _ inside)

/-- An update by a map is one more request that carries a map. -/
theorem CarryMaps.update (maps : CarryMaps earlier) (side : Side)
    (distinct : overrides.Distinct) : CarryMaps (earlier ++ [updateFrom side overrides]) := by
  intro asked inside
  rcases List.mem_append.mp inside with before | last
  · exact maps asked before
  · rw [List.mem_singleton.mp last]
    exact distinct

end Requests

namespace Memory

/-- A memory is asked what any backend can be asked, and nothing about a destination. -/
def step (data : Data) : Side × StoreRequest → Data
  | (side, .backend request) => (Backend.memory.perform side request data).2
  | _ => data

/-- The data that requests leave in a memory one after the other. -/
def after (start : Data) (requests : Requests) : Data := requests.foldl step start

/-- A request changes a memory by what it changes in the memory of a store. -/
theorem step_eq (data : Data) (side : Side) (request : StoreRequest) :
    step data (side, request) = request.changed data := by
  cases request with
  | backend request =>
    cases request with
    | getOr key default fallback =>
      exact congrArg Prod.snd (Backend.memory_getOr side key default fallback data)
    | _ => rfl
  | _ => rfl

/-- Requests are made in two parts as well as in one. -/
theorem after_append (start : Data) (front back : Requests) :
    after start (front ++ back) = after (after start front) back :=
  List.foldl_append

/-- A memory holds what was assigned since the last overwrite, inserted entry by entry. -/
theorem after_eq {start : Data} (distinct : start.Distinct) {requests : Requests}
    (maps : requests.CarryMaps) :
    after start requests = .ofEntries (requests.assignments start) := by
  -- The induction is on the requests from the last one back, which decides what is added.
  induction requests using List.reverseRecOn with
  | nil => exact (OrderedMap.ofEntries_of_distinct distinct).symm
  | append_singleton front last ih =>
    have carried := maps last (by simp)
    have before := ih maps.front
    obtain ⟨side, request⟩ := last
    rw [after_append, before]
    have added : Requests.assignments start (front ++ [(side, request)]) =
        request.assign (Requests.assignments start front) := List.foldl_append
    rw [added]
    change step _ (side, request) = _
    rw [step_eq]
    cases request with
    | backend request =>
      cases request with
      | set key value policy => exact (OrderedMap.merge_append [] _ [(key, value)]).symm
      | update overrides => exact (OrderedMap.merge_append [] _ overrides).symm
      -- The data that overwrites is a map already.
      | overwrite data => exact (OrderedMap.ofEntries_of_distinct carried).symm
      | _ => rfl
    | _ => rfl

end Memory

/--
The laws of ordered maps, for the contents that some allowed requests leave.

- `agrees`: the contents are the data that is shown
- `distinct`: no key stands there twice
- `update_update`: two updates are one by the first data overridden by the second
- `update_again`: an update that is repeated changes nothing more
- `set_eq_update`: a value is set as by an update of one entry
- `overwrite`: an overwrite leaves nothing of what was there before
- `update_others`: a key that is not in an update keeps its value
- `update_order`: keys keep their order, and the new ones follow in the order of the update
- `last_assigned`: a key has the value of its last assignment since the last overwrite
-/
structure OrderedLaws (allowed : Requests → Prop) (start : Data)
    (data contents : Requests → Data) : Prop where
  agrees : ∀ {run}, allowed run → contents run = data run
  distinct : ∀ {run}, allowed run → (contents run).Distinct
  update_update : ∀ {run side side' first second} (side'' : Side),
    allowed (run ++ [updateFrom side first, updateFrom side' second]) →
      contents (run ++ [updateFrom side first, updateFrom side' second]) =
        contents (run ++ [updateFrom side'' (first.merge second)])
  update_again : ∀ {run side side' overrides},
    allowed (run ++ [updateFrom side overrides, updateFrom side' overrides]) →
      contents (run ++ [updateFrom side overrides, updateFrom side' overrides]) =
        contents (run ++ [updateFrom side overrides])
  set_eq_update : ∀ {run side key value policy} (side' : Side),
    allowed (run ++ [setFrom side key value policy]) →
      contents (run ++ [setFrom side key value policy]) =
        contents (run ++ [updateFrom side' [(key, value)]])
  overwrite : ∀ {before side overwriting rest},
    allowed (before ++ overwriteFrom side overwriting :: rest) →
      contents (before ++ overwriteFrom side overwriting :: rest) = Memory.after overwriting rest
  update_others : ∀ {run side overrides key}, allowed (run ++ [updateFrom side overrides]) →
    key ∉ overrides.keys →
      (contents (run ++ [updateFrom side overrides])).get? key = (data run).get? key
  update_order : ∀ {run side overrides}, allowed (run ++ [updateFrom side overrides]) →
    (contents (run ++ [updateFrom side overrides])).keys =
      (data run).keys ++ overrides.keys.filter (· ∉ (data run).keys)
  last_assigned : ∀ {run} (key : String), allowed run →
    (contents run).get? key = OrderedMap.get? key (run.assignments start).reverse

/-- Contents that are those of a memory obey the laws of ordered maps. -/
theorem OrderedLaws.of_memory {allowed : Requests → Prop} {start : Data}
    {data contents : Requests → Data} (distinct : start.Distinct)
    (maps : ∀ {run}, allowed run → run.CarryMaps)
    (left : ∀ {run}, allowed run → contents run = Memory.after start run)
    (shown : ∀ {front back}, allowed (front ++ back) → data front = Memory.after start front)
    (replaced : ∀ {front back overrides} (side : Side), allowed (front ++ back) →
      overrides.Distinct → allowed (front ++ [updateFrom side overrides])) :
    OrderedLaws allowed start data contents where
  agrees {run} fine := by
    rw [left fine, shown (run.append_nil ▸ fine)]
  distinct fine := by
    rw [left fine, Memory.after_eq distinct (maps fine)]
    exact OrderedMap.distinct_ofEntries _
  update_update {run side side' first second} side'' fine := by
    have carried : first.Distinct := maps fine (updateFrom side first) (by simp)
    rw [left fine, left (replaced side'' fine (carried.merge second)), Memory.after_append,
      Memory.after_append]
    exact OrderedMap.merge_merge carried (Memory.after start run) second
  update_again {run side side' overrides} fine := by
    have carried : overrides.Distinct := maps fine (updateFrom side overrides) (by simp)
    rw [left fine, left (replaced side fine carried), Memory.after_append, Memory.after_append]
    exact OrderedMap.merge_again carried (Memory.after start run)
  set_eq_update {run side key value policy} side' fine := by
    have single : OrderedMap.Distinct [(key, value)] := by simp [OrderedMap.distinct_cons]
    rw [left fine, left (replaced side' fine single), Memory.after_append, Memory.after_append]
    -- A merge of one entry is its insertion.
    rfl
  overwrite {before side overwriting rest} fine := by
    rw [left fine, Memory.after_append]
    rfl
  update_others {run side overrides key} fine absent := by
    rw [left fine, shown fine, Memory.after_append]
    exact OrderedMap.get?_merge_of_not_mem absent
  update_order {run side overrides} fine := by
    have carried : overrides.Distinct := maps fine (updateFrom side overrides) (by simp)
    rw [left fine, shown fine, Memory.after_append]
    exact OrderedMap.keys_merge carried (Memory.after start run)
  last_assigned {run} key fine := by
    rw [left fine, Memory.after_eq distinct (maps fine)]
    exact (OrderedMap.get?_merge_last [] _ key).trans (Option.or_none)

/--
A destination holds what it is given and gives it back, and none of its calls fails.

- `distinct`: what it holds is a map
- `writeAll`: a map that is written replaces what it holds
- `readAll`: what it holds is read, and it stays
-/
structure Destination.Stores (destination : Destination σ) (works : σ → Prop)
    (held : σ → Data) : Prop where
  distinct : ∀ outside, works outside → (held outside).Distinct
  writeAll : ∀ side data outside, works outside → data.Distinct →
    ∃ after, destination.writeAll side data outside = (.ok (), after) ∧ works after ∧
      held after = data
  readAll : ∀ side outside, works outside →
    ∃ after, destination.readAll side outside = (.ok (held outside), after) ∧ works after ∧
      held after = held outside

namespace SyncedStore

/-- The store that requests leave one after the other. -/
def after (destination : Destination σ) (store : SyncedStore σ) (requests : Requests) :
    SyncedStore σ :=
  requests.foldl (fun store asked => (store.perform destination asked.1 asked.2).2) store

/-- A store that is only synced as a whole, with a map in memory and a destination that works. -/
structure Restricted (works : σ → Prop) (store : SyncedStore σ) : Prop where
  mode : store.fullSyncOnly = true
  works : works store.outside
  distinct : store.cache.Distinct

/--
Requests write through a store to its destination.

- `maps`: all data that they carry are maps
- `sets`: every value that they set is written
- `settled`: the destination holds the data of the store, or is written before it is read
-/
structure WritesThrough (held : σ → Data) (store : SyncedStore σ) (requests : Requests) :
    Prop where
  maps : requests.CarryMaps
  sets : requests.SetsWrite store.writesByDefault
  settled : held store.outside = store.cache ∨ requests.WriteFirst store.writesByDefault

variable {destination : Destination σ} {works : σ → Prop} {held : σ → Data}
  {store : SyncedStore σ} {side : Side} {request : StoreRequest} {earlier later : Requests}

/-- A request that carries a map leaves a map in the memory of a store. -/
theorem distinct_changed (distinct : store.cache.Distinct) (map : request.CarriesMap) :
    (request.changed store.cache).Distinct := by
  cases request with
  | backend request =>
    cases request with
    | set key value policy => exact distinct.insert key value
    | overwrite data => exact map
    | update overrides => exact distinct.merge overrides
    | _ => exact distinct
  | _ => exact distinct

/-- A request that writes the whole data leaves it outside and in memory. -/
theorem Restricted.perform_writing (restricted : store.Restricted works)
    (stores : destination.Stores works held) (map : request.CarriesMap)
    (writes : request.writesWhole store.writesByDefault = true) :
    ∃ outside, works outside ∧ held outside = request.changed store.cache ∧
      (store.perform destination side request).2 =
        { store with cache := request.changed store.cache, outside := outside } := by
  -- The destination only has to take maps, and the changed data is one.
  have changed := distinct_changed restricted.distinct map
  obtain ⟨outside, written, still, holds⟩ :=
    stores.writeAll side _ store.outside restricted.works changed
  refine ⟨outside, still, holds, ?_⟩
  rw [perform_writesWhole restricted.mode writes, written]

/-- A read of the whole data leaves in memory what is outside. -/
theorem Restricted.perform_reading (restricted : store.Restricted works)
    (stores : destination.Stores works held) (side : Side) :
    ∃ outside, works outside ∧ held outside = held store.outside ∧
      (store.perform destination side (.backend .readData)).2 =
        { store with cache := held store.outside, outside := outside } := by
  obtain ⟨outside, read, still, holds⟩ := stores.readAll side store.outside restricted.works
  refine ⟨outside, still, holds, (readData_store destination side store).trans ?_⟩
  rw [read]

/-- A restricted store that neither writes nor reads the whole data stays as it is. -/
theorem Restricted.perform_silent (restricted : store.Restricted works)
    (silent : request.writesWhole store.writesByDefault ≠ true)
    (unread : request ≠ .backend .readData) (sets : request.WritesIfSet store.writesByDefault) :
    (store.perform destination side request).2 =
      { store with writesByDefault := request.writeDefault store.writesByDefault } ∧
    request.changed store.cache = store.cache := by
  cases request with
  | backend request =>
    cases request with
    | data => exact ⟨rfl, rfl⟩
    | get key fallback =>
      have answered : store.get destination side key fallback = _ :=
        get_of_restricted restricted.mode fallback
      exact ⟨(congrArg Prod.snd answered :), rfl⟩
    | getOr key default fallback =>
      exact ⟨getOr_of_restricted restricted.mode default fallback, rfl⟩
    | set key value policy => exact absurd sets silent
    | readData => exact absurd rfl unread
    -- An overwrite and an update write in any case.
    | _ => exact absurd rfl silent
  | writeData => exact absurd rfl silent
  -- A restricted store refuses to read or write a single key.
  | writeDatum key value =>
    have refused : store.writeDatum destination side key value = _ :=
      writeDatum_of_restricted restricted.mode value
    exact ⟨(congrArg Prod.snd refused :), rfl⟩
  | readDatum key =>
    have refused : store.readDatum destination side key = _ :=
      readDatum_of_restricted restricted.mode
    exact ⟨(congrArg Prod.snd refused :), rfl⟩
  | setWriteDefault writes => exact ⟨rfl, rfl⟩

/-- Each request changes the data as it does in a memory, and the others still write through. -/
theorem WritesThrough.perform (through : store.WritesThrough held ((side, request) :: later))
    (stores : destination.Stores works held) (restricted : store.Restricted works) :
    let after := (store.perform destination side request).2
    after.Restricted works ∧ after.WritesThrough held later ∧
      after.cache = Memory.step store.cache (side, request) := by
  obtain ⟨maps, ⟨written, sets⟩, settled⟩ := through
  obtain ⟨map, others⟩ := List.forall_mem_cons.mp maps
  rw [Memory.step_eq]
  by_cases writes : request.writesWhole store.writesByDefault = true
  · -- What is written outside is the changed data.
    obtain ⟨outside, still, holds, reached⟩ := restricted.perform_writing stores map writes
    have default := StoreRequest.writeDefault_of_writesWhole writes
    rw [reached]
    exact ⟨⟨restricted.mode, still, distinct_changed restricted.distinct map⟩,
      ⟨others, default ▸ sets, .inl holds⟩, rfl⟩
  by_cases read : request = .backend .readData
  · -- Nothing is read before the destination holds the data already.
    subst read
    have same := settled.resolve_right fun first => first.elim writes fun first => first.1 rfl
    obtain ⟨outside, still, holds, reached⟩ := restricted.perform_reading stores side
    rw [reached]
    exact ⟨⟨restricted.mode, still, stores.distinct _ restricted.works⟩,
      ⟨others, sets, .inl holds⟩, same⟩
  · obtain ⟨reached, unchanged⟩ := restricted.perform_silent writes read written
    rw [reached, unchanged]
    refine ⟨⟨restricted.mode, restricted.works, restricted.distinct⟩, ⟨others, sets, ?_⟩, rfl⟩
    exact settled.imp_right fun first => (first.resolve_left writes).2

/-- Requests that write through leave the data of a memory, and the later ones write through. -/
theorem WritesThrough.after (through : store.WritesThrough held (earlier ++ later))
    (stores : destination.Stores works held) (restricted : store.Restricted works) :
    (store.after destination earlier).WritesThrough held later ∧
      (store.after destination earlier).Restricted works ∧
      (store.after destination earlier).cache = Memory.after store.cache earlier := by
  -- The induction is on the earlier requests, with the store that each leaves to the next.
  induction earlier generalizing store with
  | nil => exact ⟨through, restricted, rfl⟩
  | cons first rest ih =>
    obtain ⟨side, request⟩ := first
    obtain ⟨stays, others, changed⟩ := through.perform stores restricted
    obtain ⟨last, reached, left⟩ := ih others stays
    exact ⟨last, reached, left.trans (congrArg (Memory.after · rest) changed)⟩

/-- Requests that all write through leave the data of a memory outside. -/
theorem WritesThrough.contents (through : store.WritesThrough held earlier)
    (stores : destination.Stores works held) (restricted : store.Restricted works) :
    held (store.after destination earlier).outside = Memory.after store.cache earlier := by
  rw [← List.append_nil earlier] at through
  obtain ⟨last, -, left⟩ := through.after stores restricted
  -- No request is left that could write first.
  exact (last.settled.resolve_right id).trans left

/-- Requests still write through when an update comes in the place of the last ones. -/
theorem WritesThrough.update {overrides : Data}
    (through : store.WritesThrough held (earlier ++ later)) (side : Side)
    (distinct : overrides.Distinct) :
    store.WritesThrough held (earlier ++ [updateFrom side overrides]) :=
  ⟨through.maps.front.update side distinct, through.sets.front.update side overrides,
    through.settled.imp_right fun first => first.update side overrides⟩

end SyncedStore

/--
Every memory obeys the laws of ordered maps, and so does what is left outside by a store that is
only synced as a whole, over any destination that holds what it is given.

A store comes to the data that is outside when that is read.
-/
theorem ordered_laws_hold :
    (∀ start : Data, start.Distinct →
      OrderedLaws Requests.CarryMaps start (Memory.after start) (Memory.after start) ∧
      ∀ (run : Requests) (side : Side) (key : String) (fallback : Fallback), run.CarryMaps →
        Backend.memory.get side key fallback (Memory.after start run) =
          (.ok (OrderedMap.get? key (run.assignments start).reverse), Memory.after start run)) ∧
    ∀ {σ : Type} {destination : Destination σ} {works : σ → Prop} {held : σ → Data},
      destination.Stores works held → ∀ store : SyncedStore σ, store.Restricted works →
        OrderedLaws (store.WritesThrough held) store.cache
          (fun run => (store.after destination run).cache)
          (fun run => held (store.after destination run).outside) ∧
        ∀ side : Side, let read := store.after destination [(side, .backend .readData)]
          read.Restricted works ∧ read.cache = held store.outside ∧
            held read.outside = read.cache := by
  refine ⟨fun start distinct => ?memory, fun stores store restricted => ⟨?outside, ?read⟩⟩
  case memory =>
    have laws : OrderedLaws Requests.CarryMaps start (Memory.after start) (Memory.after start) :=
      .of_memory distinct id (fun _ => rfl) (fun _ => rfl)
        fun side maps carried => maps.front.update side carried
    refine ⟨laws, fun run side key fallback maps => ?_⟩
    rw [← laws.last_assigned key maps]
    rfl
  case outside =>
    -- A memory also follows requests of which none has written yet.
    refine .of_memory restricted.distinct (·.maps) (·.contents stores restricted) ?_
      fun side through carried => through.update side carried
    intro front back through
    exact (through.after stores restricted).2.2
  case read =>
    intro side
    obtain ⟨outside, still, holds, reached⟩ := restricted.perform_reading stores side
    change store.after _ [(side, .backend .readData)] = _ at reached
    rw [reached]
    exact ⟨⟨restricted.mode, still, stores.distinct _ restricted.works⟩, rfl, holds⟩

/-- A recorder works when it holds a map and is told of no failure. -/
structure Recorder.Works (recorder : Recorder) : Prop where
  distinct : recorder.data.Distinct
  reads : recorder.readFailure = none
  writes : recorder.writeFailure = none

/-- A recorder that works holds what it is given. -/
theorem Recorder.stores (perKey : Bool) :
    (Recorder.destination perKey).Stores Recorder.Works Recorder.data where
  distinct _ works := works.distinct
  writeAll side data recorder works distinct := by
    refine ⟨{ recorder.log (.writeAll data) with data := data }, ?_,
      ⟨distinct, works.reads, works.writes⟩, rfl⟩
    simp only [Recorder.destination, works.writes]
  readAll side recorder works := by
    refine ⟨recorder.log .readAll, ?_, ⟨works.distinct, works.reads, works.writes⟩, rfl⟩
    simp only [Recorder.destination, works.reads]

/-- Two updates that overlap leave the merged data outside, and in memory the last value. -/
theorem ordered_laws_hold_of_overlapping_updates :
    let destination := Recorder.destination false
    let start : Data := [("b", .null), ("a", .bool true)]
    let first : Data := [("c", .null), ("b", .bool true)]
    let second : Data := [("d", .null), ("b", .bool false)]
    let updates := [updateFrom .sync first, updateFrom .async second]
    let store := SyncedStore.new destination (Recorder.holding start) false
    let read := store.after destination [(.sync, .backend .readData)]
    let contents : Requests → Data := fun run => (read.after destination run).outside.data
    contents updates = contents [updateFrom .sync (first.merge second)] ∧
      contents updates = [("b", .bool false), ("a", .bool true), ("c", .null), ("d", .null)] ∧
      (Backend.memory.get .sync "b" .propagate (Memory.after start updates)).1 =
        .ok (some (.bool false)) := by
  intro destination start first second updates store read contents
  have stores := Recorder.stores false
  have distinct : ∀ data ∈ [start, first, second], OrderedMap.Distinct data := by
    simp [start, first, second, OrderedMap.distinct_cons]
  have maps : Requests.CarryMaps updates := by
    simp [updates, Requests.CarryMaps, StoreRequest.CarriesMap, distinct]
  -- The data that is outside is read before it is updated.
  have restricted : store.Restricted Recorder.Works :=
    ⟨rfl, ⟨distinct start (by simp), rfl, rfl⟩, OrderedMap.distinct_nil⟩
  obtain ⟨restricted, -, settled⟩ := (ordered_laws_hold.2 stores store restricted).2 .sync
  have through : read.WritesThrough Recorder.data updates :=
    ⟨maps, ⟨trivial, trivial, trivial⟩, .inl settled⟩
  have laws := (ordered_laws_hold.2 stores read restricted).1
  have joined : contents ([] ++ updates) =
      contents ([] ++ [updateFrom .sync (first.merge second)]) :=
    laws.update_update .sync through
  refine ⟨joined, rfl, ?_⟩
  obtain ⟨-, answers⟩ := ordered_laws_hold.1 start (distinct start (by simp))
  rw [answers updates .sync "b" .propagate maps]
  rfl

end SyncStore
