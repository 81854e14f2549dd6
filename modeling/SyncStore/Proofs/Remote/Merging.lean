import SyncStore.Proofs.Remote.Listing
import SyncStore.Proofs.Store.Coherence

/-! Data written to a service is merged into its texts, and the next whole read finds them all. -/

namespace SyncStore

/-- Stored pairs decode to the data that they encode, and every other text decodes as before. -/
theorem Texts.decode_storeMany_encoded {texts : Texts} {data : Data} (distinct : data.Distinct)
    (storable : ∀ entry ∈ data, entry.2.Storable) (key : String) :
    (texts.storeMany (Remote.encoded data) key).map decodeValue =
      (data.get? key).or ((texts key).map decodeValue) := by
  cases found : data.get? key with
  | some value =>
    -- The key was written, and its text decodes to the value it was given.
    have member : (key, value) ∈ data := OrderedMap.mem_of_get? found
    have pairs : OrderedMap.Distinct (Remote.encoded data) := by
      rw [OrderedMap.Distinct, Remote.keys_encoded]
      exact distinct
    have stored : texts.storeMany (Remote.encoded data) key = some (encodeValue value) :=
      storeMany_of_mem pairs (List.mem_map_of_mem member)
    have decodes : decodeValue (encodeValue value) = value := storable (key, value) member
    rw [stored, Option.map_some, decodes, Option.some_or]
  | none =>
    -- The key was not written.
    have absent : key ∉ OrderedMap.keys (Remote.encoded data) := by
      rw [Remote.keys_encoded]
      exact OrderedMap.get?_eq_none_iff.mp found
    rw [storeMany_of_not_mem absent, Option.none_or]

namespace Service

/-- A service that holds some texts, lists some ghosts beside them, and has pages of some size. -/
def holding (texts : OrderedMap String) (ghosts : List String) (pageSize : Option Nat) : Service :=
  { empty with
    contents := texts.map fun (key, raw) => (key, .text raw)
    ghosts := ghosts
    pageSize := pageSize }

/-- The content of a key is its text. -/
theorem get?_holding (texts : OrderedMap String) (ghosts : List String) (pageSize : Option Nat)
    (key : String) :
    (holding texts ghosts pageSize).contents.get? key = (texts.get? key).map .text := by
  induction texts with
  | nil => rfl
  | cons entry rest ih =>
    obtain ⟨found, raw⟩ := entry
    -- The first entry has the key, or the lookup goes on behind it.
    by_cases same : found = key
    · simp [holding, OrderedMap.get?, same]
    · simpa [holding, OrderedMap.get?, same] using ih

/-- The texts of the service are those that it holds. -/
theorem texts_holding (texts : OrderedMap String) (ghosts : List String) (pageSize : Option Nat)
    (key : String) : (holding texts ghosts pageSize).texts key = texts.get? key := by
  rw [Service.texts, get?_holding]
  cases texts.get? key <;> rfl

/-- A service that holds texts serves both sides. -/
theorem serving_holding (side : Side) (texts : OrderedMap String) (ghosts : List String)
    {pageSize : Option Nat} (paged : pageSize ≠ some 0) :
    (holding texts ghosts pageSize).Serving side where
  opened := rfl
  sound := rfl
  unscripted := rfl
  even := rfl
  textual key content stored := by
    rw [get?_holding] at stored
    obtain ⟨raw, _, same⟩ := Option.map_eq_some_iff.mp stored
    exact ⟨raw, same.symm⟩
  paged := paged

variable {service : Service} {side : Side}

/-- A service goes on serving when a text is stored. -/
theorem Serving.store (serving : service.Serving side) (key raw : String) :
    (service.store key raw).Serving side where
  opened := serving.opened
  sound := serving.sound
  unscripted := serving.unscripted
  even := serving.even
  textual other content stored := by
    change (service.contents.insert key (.text raw)).get? other = some content at stored
    -- The stored text is the new one or an old one.
    by_cases same : other = key
    · subst same
      rw [OrderedMap.get?_insert_self] at stored
      exact ⟨raw, (Option.some.inj stored).symm⟩
    · rw [OrderedMap.get?_insert_of_ne same] at stored
      exact serving.textual other content stored
  paged := serving.paged

/-- A service goes on serving when several texts are stored. -/
theorem Serving.storeMany (serving : service.Serving side) (pairs : List (String × String)) :
    (service.storeMany pairs).Serving side := by
  induction pairs generalizing service with
  | nil => exact serving
  | cons pair rest ih => exact ih (serving.store pair.1 pair.2)

/-- Contents with several texts stored in turn. -/
def storedContents (contents : OrderedMap Content) (pairs : List (String × String)) :
    OrderedMap Content :=
  pairs.foldl (fun contents pair => contents.insert pair.1 (.text pair.2)) contents

/-- Stored texts change the contents of a service and nothing else. -/
theorem storeMany_eq (service : Service) (pairs : List (String × String)) :
    service.storeMany pairs =
      { service with contents := storedContents service.contents pairs } := by
  induction pairs generalizing service with
  | nil => rfl
  | cons pair rest ih => exact ih (service.store pair.1 pair.2)

/-- All data is written with one call, and no data with none. -/
theorem Serving.writeAll (serving : service.Serving side) (data : Data) :
    Remote.writeAll (client side) data service =
      (.ok (), (service.withCalls (service.calls ++
        if data.isEmpty then [] else [(side, .setMany (Remote.encoded data))])).storeMany
          (Remote.encoded data)) := by
  unfold Remote.writeAll
  by_cases empty : data.isEmpty
  · -- Nothing is sent, and nothing is stored.
    obtain rfl := List.isEmpty_iff.mp empty
    simp [Service.storeMany, Service.withCalls, Remote.encoded]
  · -- The pairs of all entries are sent together.
    rw [if_neg empty, if_neg empty]
    exact serving.serve (.setMany (Remote.encoded data)) fun service =>
      (.ok (), service.storeMany (Remote.encoded data))

end Service

namespace Remote

/-- What a whole read finds after data was written to a service that holds some texts. -/
def mergedData (texts : OrderedMap String) (ghosts : List String) (data : Data) : Data :=
  let written := (Service.holding texts ghosts none).storeMany (encoded data)
  written.texts.load [] written.listing

/-- Merged data has the values of the written data, and the old values of all other keys. -/
theorem get?_mergedData (texts : OrderedMap String) (ghosts : List String) {data : Data}
    (distinct : data.Distinct) (storable : ∀ entry ∈ data, entry.2.Storable) (key : String) :
    (mergedData texts ghosts data).get? key =
      (data.get? key).or ((texts.get? key).map decodeValue) := by
  rw [mergedData, Service.get?_load_listing, Service.texts_storeMany,
    Texts.decode_storeMany_encoded distinct storable, Service.texts_holding]

/-- A whole read after a write finds the merged data, whatever the sizes of batches and pages. -/
theorem readAll_written (texts : OrderedMap String) (ghosts : List String) (data : Data)
    {pageSize : Option Nat} (paged : pageSize ≠ some 0) (size : BatchSize)
    (writer reader : Side) :
    (readAll (Service.client reader) size
      (writeAll (Service.client writer) data (Service.holding texts ghosts pageSize)).2).1 =
        .ok (mergedData texts ghosts data) := by
  have writing := Service.serving_holding writer texts ghosts paged
  have reading := Service.serving_holding reader texts ghosts paged
  rw [writing.writeAll data]
  -- The service still serves after the write, so the read loads its whole listing.
  obtain ⟨calls, read⟩ := ((reading.withCalls _).storeMany (encoded data)).readAll size
  rw [read, mergedData, Service.storeMany_eq, Service.storeMany_eq]
  -- The texts and the listing depend on the contents and the ghosts alone.
  rfl

end Remote

end SyncStore
