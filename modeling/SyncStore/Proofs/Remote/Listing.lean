import SyncStore.Proofs.Remote.Invariant
import SyncStore.Proofs.Remote.Service

/-! A whole read of the service in memory finds every text, whatever the sizes of its pages. -/

namespace SyncStore

namespace Texts

/-- The texts of some keys are decoded into data one after the other. -/
def load (texts : Texts) (data : Data) (keys : List String) : Data :=
  Remote.collect data (keys.zip (keys.map texts))

/-- A key without a text is passed over. -/
theorem load_of_none {texts : Texts} {key : String} (absent : texts key = none) (data : Data)
    (rest : List String) : texts.load data (key :: rest) = texts.load data rest := by
  simp [load, Remote.collect, absent]

/-- The value of a text is inserted before the other keys are loaded. -/
theorem load_of_some {texts : Texts} {key raw : String} (found : texts key = some raw)
    (data : Data) (rest : List String) :
    texts.load data (key :: rest) = texts.load (data.insert key (decodeValue raw)) rest := by
  simp [load, Remote.collect, found]

/-- Keys that are loaded in two parts are loaded as a whole. -/
theorem load_append (texts : Texts) (data : Data) (front back : List String) :
    texts.load data (front ++ back) = texts.load (texts.load data front) back := by
  induction front generalizing data with
  | nil => rfl
  | cons key rest ih =>
    rw [List.cons_append]
    -- The first key changes the data alike on both sides, and the rest is loaded into that.
    cases found : texts key with
    | none => rw [load_of_none found, load_of_none found, ih]
    | some raw => rw [load_of_some found, load_of_some found, ih]

/-- A loaded key has the value of its text, and every other key is as it was before. -/
theorem get?_load (texts : Texts) (data : Data) (keys : List String) (key : String) :
    (texts.load data keys).get? key =
      (if key ∈ keys then (texts key).map decodeValue else none).or (data.get? key) := by
  induction keys generalizing data with
  | nil => simp [load, Remote.collect]
  | cons first rest ih =>
    cases found : texts first with
    | none =>
      -- The first key adds nothing, so only the others matter.
      rw [load_of_none found, ih]
      by_cases asked : key = first
      · subst asked
        simp [found]
      · simp [asked]
    | some raw =>
      rw [load_of_some found, ih]
      -- The first key is the one asked for, or its insertion changes nothing about that.
      by_cases asked : key = first
      · subst asked
        by_cases later : key ∈ rest <;> simp [found, later]
      · simp [asked, OrderedMap.get?_insert_of_ne asked]

/-- Loaded keys are distinct. -/
theorem distinct_load (texts : Texts) (keys : List String) : (texts.load [] keys).Distinct :=
  Remote.collect_distinct _ OrderedMap.distinct_nil

end Texts

namespace Service

/--
A service serves a side when it answers every command of that side as it should.

- `opened`: the connection of the side is open
- `unscripted`: a scan lists the keys of the service
- `textual`: everything under a key is text
- `paged`: a scan step takes at least one key
-/
structure Serving (side : Side) (service : Service) : Prop where
  opened : service.isOpen side = true
  sound : service.failure = none
  unscripted : service.script = none
  even : service.surplus = 0
  textual : ∀ key content, service.contents.get? key = some content → ∃ raw, content = .text raw
  paged : service.pageSize ≠ some 0

/-- The same service after other calls. -/
def withCalls (service : Service) (calls : List (Side × ServiceCommand)) : Service :=
  { service with calls := calls }

variable {service : Service} {side : Side}

/-- Calls have no part in how a service answers. -/
theorem Serving.withCalls (serving : service.Serving side)
    (calls : List (Side × ServiceCommand)) : (service.withCalls calls).Serving side :=
  ⟨serving.opened, serving.sound, serving.unscripted, serving.even, serving.textual, serving.paged⟩

/-- A command to a serving service is logged and answered. -/
theorem Serving.serve {α : Type} (serving : service.Serving side) (command : ServiceCommand)
    (answer : Service → Outcome Service α) :
    serve side command answer service = answer (service.log side command) := by
  have opened := serving.opened
  have sound := serving.sound
  simp [Service.serve, opened, sound]

/-- A lookup of a serving service answers the text of its key. -/
theorem Serving.lookup (serving : service.Serving side) (key : String) :
    service.lookup key = .ok (service.texts key) := by
  unfold Service.lookup texts
  cases stored : service.contents.get? key with
  | none => rfl
  | some content =>
    -- What is stored is text.
    obtain ⟨raw, rfl⟩ := serving.textual key content stored
    rfl

/-- Lookups of several keys answer their texts. -/
theorem Serving.mapM_lookup (serving : service.Serving side) (keys : List String) :
    keys.mapM service.lookup = .ok (keys.map service.texts) := by
  induction keys with
  | nil => rfl
  | cons key rest ih =>
    rw [List.mapM_cons, serving.lookup key, ih]
    rfl

/-- An answer about several keys has their texts, and nothing is cut from it or added. -/
theorem Serving.getMany (serving : service.Serving side) (keys : List String) :
    (client side).getMany keys service =
      (.ok (keys.map service.texts), service.log side (.getMany keys)) := by
  have served := serving.serve (.getMany keys) fun service =>
    ((keys.mapM service.lookup).map (withSurplus service.surplus), service)
  refine (served :).trans ?_
  have logged := serving.withCalls (service.calls ++ [(side, .getMany keys)])
  have slots := logged.mapM_lookup keys
  have even := logged.even
  -- The log has no part in what is looked up.
  rw [show service.log side (.getMany keys) = service.withCalls _ from rfl, slots, even]
  simp [Except.map, withSurplus, texts, Service.withCalls]

/-- A batch is fetched from a serving service by loading its keys. -/
theorem Serving.fetch (serving : service.Serving side) (batch : List String) (data : Data) :
    ∃ calls, Remote.fetch (client side) batch data service =
      (.ok (service.texts.load data batch), service.withCalls calls) := by
  refine ⟨service.calls ++ [(side, .getMany batch)], ?_⟩
  simp only [Remote.fetch, serving.getMany batch, List.length_map, ↓reduceIte]
  rfl

/-- Keys taken into batches are loaded, up to those that still wait. -/
theorem Serving.takeKeys (serving : service.Serving side) (size : Nat)
    (keys pending : List String) (data : Data) :
    ∃ waiting loaded calls, Remote.takeKeys (client side) size keys pending data service =
        (.ok (waiting, loaded), service.withCalls calls) ∧
      service.texts.load loaded waiting = service.texts.load data (pending ++ keys) := by
  induction keys generalizing pending data service with
  | nil => exact ⟨pending, data, service.calls, rfl, by rw [List.append_nil]⟩
  | cons key rest ih =>
    rw [Remote.takeKeys]
    have joined : pending ++ key :: rest = (pending ++ [key]) ++ rest := by simp
    rw [joined]
    split
    · -- The full batch is loaded, and the rest is loaded behind it.
      obtain ⟨calls, fetched⟩ := serving.fetch (pending ++ [key]) data
      obtain ⟨waiting, loaded, later, taken, same⟩ :=
        ih (serving.withCalls calls) [] (service.texts.load data (pending ++ [key]))
      refine ⟨waiting, loaded, later, ?_, ?_⟩
      · rw [fetched]
        exact taken
      · rw [Texts.load_append]
        exact same
    · exact ih serving (pending ++ [key]) data

/-- Every key starts with what stands before the star of the pattern for all keys. -/
theorem matching_everyKey (service : Service) :
    service.matching Remote.everyKey = service.listing := by
  have start : (Remote.everyKey.toList.reverse.dropWhile (· = '*')).reverse = [] := by decide
  rw [matching, start]
  simp

/-- Without a script a step of a scan leaves the service as it is. -/
theorem Serving.scanStep_service (unscripted : service.script = none) (cursor : Cursor)
    (pattern : String) (count : Nat) :
    (service.scanStep cursor pattern count).2 = service := by
  rw [Service.scanStep, unscripted]

/-- A page of all keys is the rest of the listing, or leaves a later part of it to the next page. -/
theorem Serving.scanStep (serving : service.Serving side) (cursor : Nat) {count : Nat}
    (positive : 0 < count) :
    ∃ (next : Nat) (page : List String),
      service.scanStep cursor Remote.everyKey count = ((next, page), service) ∧
        (next = 0 ∧ page = service.listing.drop cursor ∨
          cursor < next ∧ next < service.listing.length ∧
            page ++ service.listing.drop next = service.listing.drop cursor) := by
  -- The page is not empty, whether its size is given or the one asked for.
  have paged : 0 < service.pageSize.getD count := by
    cases given : service.pageSize with
    | none => exact positive
    | some size =>
      have nonzero : size ≠ 0 := fun zero => serving.paged (by rw [given, zero])
      exact Nat.pos_of_ne_zero nonzero
  have unscripted := serving.unscripted
  simp only [Service.scanStep, unscripted, matching_everyKey]
  generalize service.pageSize.getD count = size at paged
  by_cases ends : service.listing.length ≤ cursor + size
  · -- The page reaches the end of the listing.
    refine ⟨0, service.listing.drop cursor, ?_, Or.inl ⟨rfl, rfl⟩⟩
    rw [Nat.min_eq_right ends, if_pos (Nat.le_refl _), List.take_length]
  · -- Otherwise it ends where the next one starts.
    have more : cursor + size < service.listing.length := Nat.lt_of_not_le ends
    refine ⟨cursor + size, (service.listing.take (cursor + size)).drop cursor, ?_,
      Or.inr ⟨by omega, more, ?_⟩⟩
    · rw [Nat.min_eq_left (Nat.le_of_lt more), if_neg (Nat.not_le_of_lt more)]
    · rw [List.drop_take, Nat.add_sub_cancel_left, ← List.drop_drop, List.take_append_drop]

/-- A scan of all keys of a serving service answers a page of its listing. -/
theorem Serving.scan (serving : service.Serving side) (cursor : Nat) {count : Nat}
    (positive : 0 < count) :
    ∃ (next : Nat) (page : List String) (calls : List (Side × ServiceCommand)),
      (client side).scan cursor Remote.everyKey count service =
        (.ok (next, page), service.withCalls calls) ∧
      (next = 0 ∧ page = service.listing.drop cursor ∨
        cursor < next ∧ next < service.listing.length ∧
          page ++ service.listing.drop next = service.listing.drop cursor) := by
  let calls := service.calls ++ [(side, .scan cursor Remote.everyKey count)]
  obtain ⟨next, page, step, goes⟩ := (serving.withCalls calls).scanStep cursor positive
  refine ⟨next, page, calls, ?_, goes⟩
  -- The call is logged, and the page is one of the service behind its log.
  have served := serving.serve (.scan cursor Remote.everyKey count) fun service =>
    (.ok (service.scanStep cursor Remote.everyKey count).1,
      (service.scanStep cursor Remote.everyKey count).2)
  refine (served :).trans ?_
  rw [show service.log side (.scan cursor Remote.everyKey count) = service.withCalls calls from rfl,
    step]

/-- A scan from a cursor on loads the rest of the listing and comes to its end. -/
theorem Serving.scanFrom (serving : service.Serving side) {size : Nat} (positive : 0 < size)
    {steps cursor : Nat} (enough : service.listing.length - cursor < steps)
    (pending : List String) (data : Data) :
    ∃ calls, Remote.scanFrom (client side) size steps cursor pending data service =
      (.ok (service.texts.load data (pending ++ service.listing.drop cursor)),
        service.withCalls calls) := by
  -- The induction is on the steps left, of which each one moves the cursor on.
  induction steps generalizing cursor pending data service with
  | zero => omega
  | succ steps ih =>
    obtain ⟨next, page, scanned, called, goes⟩ :=
      serving.scan cursor positive
    obtain ⟨waiting, loaded, taken, takes, same⟩ :=
      (serving.withCalls scanned).takeKeys size page pending data
    have same : service.texts.load loaded waiting = service.texts.load data (pending ++ page) :=
      same
    rw [Remote.scanFrom, called]
    dsimp only
    rw [takes]
    dsimp only
    rcases goes with ⟨rfl, rfl⟩ | ⟨onward, inside, parts⟩
    · -- The listing is over, and the keys that still wait are loaded at last.
      rw [if_neg (by simp), ← same]
      cases waiting with
      | nil => exact ⟨taken, rfl⟩
      | cons first others =>
        obtain ⟨calls, fetched⟩ :=
          ((serving.withCalls scanned).withCalls taken).fetch (first :: others) loaded
        exact ⟨calls, fetched⟩
    · -- The rest of the listing is loaded behind what was loaded so far.
      have nonzero : next ≠ 0 := by omega
      have fewer : service.listing.length - next < steps := by omega
      obtain ⟨calls, later⟩ :=
        ih ((serving.withCalls scanned).withCalls taken) fewer waiting loaded
      rw [if_pos nonzero]
      refine ⟨calls, later.trans ?_⟩
      have whole : service.texts.load loaded (waiting ++ service.listing.drop next) =
          service.texts.load data (pending ++ service.listing.drop cursor) := by
        rw [Texts.load_append, same, ← Texts.load_append, List.append_assoc, parts]
      rw [← whole]
      rfl

/-- Repetitions in a sorted list are dropped without losing an element. -/
theorem mem_dropRepeats {key : String} {keys : List String} :
    key ∈ dropRepeats keys ↔ key ∈ keys := by
  fun_induction dropRepeats keys with
  | case1 first rest ih => simp [ih]
  | case2 first second rest differ ih => simp [ih]
  | case3 keys => rfl

/-- Dropping repetitions makes no list longer. -/
theorem length_dropRepeats (keys : List String) : (dropRepeats keys).length ≤ keys.length := by
  fun_induction dropRepeats keys with
  | case1 first rest ih =>
    rw [List.length_cons]
    omega
  | case2 first second rest differ ih =>
    rw [List.length_cons, List.length_cons]
    omega
  | case3 keys => exact Nat.le_refl _

/-- A scan lists the keys of a service and its ghosts. -/
theorem mem_listing {key : String} :
    key ∈ service.listing ↔ key ∈ service.contents.keys ∨ key ∈ service.ghosts := by
  rw [listing, mem_dropRepeats, List.mem_mergeSort, List.mem_append]

/-- A client allows enough steps to list every key. -/
theorem Serving.listing_length (serving : service.Serving side) :
    service.listing.length ≤ (client side).stepsLeft service := by
  have shorter := length_dropRepeats
    ((service.contents.keys ++ service.ghosts).mergeSort fun a b => decide (a ≤ b))
  have unscripted := serving.unscripted
  rw [List.length_mergeSort, List.length_append, OrderedMap.keys, List.length_map] at shorter
  simp only [client, unscripted]
  exact shorter

/-- A whole read of a serving service loads its listing, whatever its sizes are. -/
theorem Serving.readAll (serving : service.Serving side) (size : BatchSize) :
    ∃ calls, Remote.readAll (client side) size service =
      (.ok (service.texts.load [] service.listing), service.withCalls calls) := by
  have enough : service.listing.length - 0 < (client side).stepsLeft service + 1 := by
    have length := serving.listing_length
    omega
  exact serving.scanFrom size.positive enough [] []

/-- Loading the listing finds the value of every text. -/
theorem get?_load_listing (service : Service) (key : String) :
    (service.texts.load [] service.listing).get? key = (service.texts key).map decodeValue := by
  rw [Texts.get?_load]
  by_cases listed : key ∈ service.listing
  · simp [listed, OrderedMap.get?]
  · -- A key that is not listed has no content, and so no text.
    have absent : key ∉ service.contents.keys :=
      fun member => listed (mem_listing.mpr (.inl member))
    have none : service.contents.get? key = none := OrderedMap.get?_eq_none_iff.mpr absent
    simp [listed, OrderedMap.get?, texts, none]

end Service

end SyncStore
