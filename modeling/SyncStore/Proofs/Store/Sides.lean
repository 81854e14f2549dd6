import SyncStore.Proofs.Store.Event

/-! A store over a destination whose sides agree answers and keeps the same from either side. -/

namespace SyncStore

variable {σ : Type}

/-- Two outcomes are alike when they answer the same and leave alike states. -/
def AlikeOutcomes {α : Type} (alike : σ → σ → Prop) (one other : Outcome σ α) : Prop :=
  one.1 = other.1 ∧ alike one.2 other.2

/-- An answer that is told in other words is still the same answer. -/
theorem AlikeOutcomes.map {α β : Type} {alike : σ → σ → Prop} {one other : Outcome σ α}
    (outcomes : AlikeOutcomes alike one other) (tell : α → β) :
    AlikeOutcomes alike (one.1.map tell, one.2) (other.1.map tell, other.2) :=
  ⟨congrArg (·.map tell) outcomes.1, outcomes.2⟩

/-- The sides of a destination agree when each call on alike states has alike outcomes. -/
structure Destination.SidesAgree (destination : Destination σ) (alike : σ → σ → Prop) : Prop where
  readAll : ∀ side twin one other, alike one other →
    AlikeOutcomes alike (destination.readAll side one) (destination.readAll twin other)
  writeAll : ∀ side twin data one other, alike one other →
    AlikeOutcomes alike (destination.writeAll side data one) (destination.writeAll twin data other)
  readOne : ∀ side twin key one other, alike one other →
    AlikeOutcomes alike (destination.readOne side key one) (destination.readOne twin key other)
  writeOne : ∀ side twin key value one other, alike one other →
    AlikeOutcomes alike (destination.writeOne side key value one)
      (destination.writeOne twin key value other)

/-- Sides that are the same agree in every state. -/
theorem Destination.SidesAgree.of_eq {destination : Destination σ}
    (readAll : ∀ side twin, destination.readAll side = destination.readAll twin)
    (writeAll : ∀ side twin, destination.writeAll side = destination.writeAll twin)
    (readOne : ∀ side twin, destination.readOne side = destination.readOne twin)
    (writeOne : ∀ side twin, destination.writeOne side = destination.writeOne twin) :
    destination.SidesAgree Eq where
  readAll side twin one other same := by rw [readAll side twin, same]; exact ⟨rfl, rfl⟩
  writeAll side twin data one other same := by rw [writeAll side twin, same]; exact ⟨rfl, rfl⟩
  readOne side twin key one other same := by rw [readOne side twin, same]; exact ⟨rfl, rfl⟩
  writeOne side twin key value one other same := by
    rw [writeOne side twin, same]
    exact ⟨rfl, rfl⟩

namespace SyncedStore

/-- Two stores are alike when they differ at most in what is outside, and that is alike. -/
structure Alike (alike : σ → σ → Prop) (one other : SyncedStore σ) : Prop where
  cache : one.cache = other.cache
  outside : alike one.outside other.outside
  writesByDefault : one.writesByDefault = other.writesByDefault
  fullSyncOnly : one.fullSyncOnly = other.fullSyncOnly

/-- A store is like itself when what is outside of it is. -/
theorem Alike.refl {alike : σ → σ → Prop} (store : SyncedStore σ)
    (same : alike store.outside store.outside) : store.Alike alike store :=
  ⟨rfl, same, rfl, rfl⟩

/-- Stores with the same outside are alike only when they are the same. -/
theorem Alike.eq {one other : SyncedStore σ} (same : one.Alike Eq other) : one = other := by
  obtain ⟨cache, outside, writesByDefault, fullSyncOnly⟩ := same
  cases one
  cases other
  simp_all

variable {destination : Destination σ} {alike : σ → σ → Prop}
  (agree : destination.SidesAgree alike) {one other : SyncedStore σ}
  (same : one.Alike alike other) (side twin : Side)

include agree same

/-- A write of the whole data is alike from both sides. -/
theorem writeData_alike :
    AlikeOutcomes (Alike alike) (one.writeData destination side)
      (other.writeData destination twin) := by
  have called : AlikeOutcomes alike (destination.writeAll side one.cache one.outside)
      (destination.writeAll twin other.cache other.outside) := by
    rw [← same.cache]
    exact agree.writeAll side twin one.cache one.outside other.outside same.outside
  rw [writeData_eq, writeData_eq]
  -- Both stores pass on the answer and keep what was left outside.
  exact ⟨called.1, same.cache, called.2, same.writesByDefault, same.fullSyncOnly⟩

/-- A write of one key is alike from both sides. -/
theorem writeDatum_alike (key : String) (value : Value) :
    AlikeOutcomes (Alike alike) (one.writeDatum destination side key value)
      (other.writeDatum destination twin key value) := by
  have called := agree.writeOne side twin key value one.outside other.outside same.outside
  cases restricted : one.fullSyncOnly with
  | true =>
    -- Both stores refuse the write, and stay as they are.
    rw [writeDatum_of_restricted restricted,
      writeDatum_of_restricted (same.fullSyncOnly ▸ restricted)]
    exact ⟨rfl, same⟩
  | false =>
    have free : other.fullSyncOnly = false := same.fullSyncOnly ▸ restricted
    rw [writeDatum_eq, writeDatum_eq, if_neg (by simp [restricted]), if_neg (by simp [free])]
    exact ⟨called.1, same.cache, called.2, same.writesByDefault, same.fullSyncOnly⟩

/-- A read of one key is alike from both sides. -/
theorem readDatum_alike (key : String) :
    AlikeOutcomes (Alike alike) (one.readDatum destination side key)
      (other.readDatum destination twin key) := by
  have called := agree.readOne side twin key one.outside other.outside same.outside
  cases restricted : one.fullSyncOnly with
  | true =>
    rw [readDatum_of_restricted restricted,
      readDatum_of_restricted (same.fullSyncOnly ▸ restricted)]
    exact ⟨rfl, same⟩
  | false =>
    rw [readDatum_of_single restricted, readDatum_of_single (same.fullSyncOnly ▸ restricted)]
    exact ⟨called.1, same.cache, called.2, same.writesByDefault, same.fullSyncOnly⟩

/-- A read of the whole data is alike from both sides. -/
theorem readData_alike :
    AlikeOutcomes (Alike alike) (one.readData destination side)
      (other.readData destination twin) := by
  have called := agree.readAll side twin one.outside other.outside same.outside
  refine ⟨?_, ?_⟩
  · rw [readData_answer, readData_answer]
    exact called.1
  · rw [readData_store, readData_store, called.1]
    -- The same answer decides on both sides whether memory is replaced.
    refine ⟨?_, called.2, same.writesByDefault, same.fullSyncOnly⟩
    cases (destination.readAll twin other.outside).1 with
    | ok data => rfl
    | error error => exact same.cache

/-- A read through is alike from both sides. -/
theorem get_alike (key : String) (fallback : Fallback) :
    AlikeOutcomes (Alike alike) (one.get destination side key fallback)
      (other.get destination twin key fallback) := by
  cases restricted : one.fullSyncOnly with
  | true =>
    -- Both stores answer from the same memory.
    rw [get_of_restricted restricted, get_of_restricted (same.fullSyncOnly ▸ restricted),
      same.cache]
    exact ⟨rfl, same⟩
  | false =>
    have free : other.fullSyncOnly = false := same.fullSyncOnly ▸ restricted
    have called := agree.readOne side twin key one.outside other.outside same.outside
    -- The same answer from outside decides what both stores do with it.
    rcases answered : (destination.readOne side key one.outside).1 with error | _ | value
    · have twinned := called.1.symm.trans answered
      rw [get_of_failed restricted answered, get_of_failed free twinned]
      -- What falls back is answered from the same memory.
      exact ⟨by rw [same.cache], same.cache, called.2, same.writesByDefault, same.fullSyncOnly⟩
    · have twinned := called.1.symm.trans answered
      rw [get_of_absent restricted answered, get_of_absent free twinned]
      exact ⟨rfl, same.cache, called.2, same.writesByDefault, same.fullSyncOnly⟩
    · have twinned := called.1.symm.trans answered
      rw [get_of_found restricted answered, get_of_found free twinned]
      exact ⟨rfl, congrArg (·.insert key value) same.cache, called.2, same.writesByDefault,
        same.fullSyncOnly⟩

/-- A value is set alike from both sides. -/
theorem set_alike (key : String) (value : Value) (policy : WritePolicy) :
    AlikeOutcomes (Alike alike) (one.set destination side key value policy)
      (other.set destination twin key value policy) := by
  -- Memory changes first, and so both stores are still alike when they come to write.
  have changed : Alike alike { one with cache := one.cache.insert key value }
      { other with cache := other.cache.insert key value } :=
    ⟨congrArg (·.insert key value) same.cache, same.outside, same.writesByDefault,
      same.fullSyncOnly⟩
  cases writes : policy.resolve one.writesByDefault with
  | false =>
    rw [set_of_unwritten writes, set_of_unwritten (same.writesByDefault ▸ writes)]
    exact ⟨rfl, changed⟩
  | true =>
    have twinned : policy.resolve other.writesByDefault = true := same.writesByDefault ▸ writes
    cases restricted : one.fullSyncOnly with
    | true =>
      -- The whole data is written, with the new value in it.
      rw [set_of_restricted restricted writes,
        set_of_restricted (same.fullSyncOnly ▸ restricted) twinned]
      exact writeData_alike agree changed side twin
    | false =>
      have called := agree.writeOne side twin key value one.outside other.outside same.outside
      rw [set_of_single restricted writes, set_of_single (same.fullSyncOnly ▸ restricted) twinned]
      exact ⟨called.1, changed.cache, called.2, same.writesByDefault, same.fullSyncOnly⟩

/-- Every request is answered alike from both sides. -/
theorem perform_alike (request : StoreRequest) :
    AlikeOutcomes (Alike alike) (one.perform destination side request)
      (other.perform destination twin request) := by
  cases request with
  | backend request =>
    cases request with
    | data => exact ⟨congrArg (Except.ok ∘ Reply.data) same.cache, same⟩
    | get key fallback => exact (get_alike agree same side twin key fallback).map Reply.value
    | getOr key default fallback =>
      -- The default stands in for a value that is missing on both sides.
      rw [perform_getOr, perform_getOr]
      exact (get_alike agree same side twin key fallback).map fun found =>
        Reply.value (some (found.getD default))
    | set key value policy =>
      exact (set_alike agree same side twin key value policy).map fun _ => Reply.done
    | overwrite data =>
      have replaced : Alike alike { one with cache := data } { other with cache := data } :=
        ⟨rfl, same.outside, same.writesByDefault, same.fullSyncOnly⟩
      rw [perform_overwrite, perform_overwrite]
      exact (writeData_alike agree replaced side twin).map fun _ => Reply.done
    | update overrides =>
      have merged : Alike alike { one with cache := one.cache.merge overrides }
          { other with cache := other.cache.merge overrides } :=
        ⟨congrArg (·.merge overrides) same.cache, same.outside, same.writesByDefault,
          same.fullSyncOnly⟩
      rw [perform_update, perform_update]
      exact (writeData_alike agree merged side twin).map fun _ => Reply.done
    | readData => exact (readData_alike agree same side twin).map Reply.data
  | writeData => exact (writeData_alike agree same side twin).map fun _ => Reply.done
  | writeDatum key value =>
    exact (writeDatum_alike agree same side twin key value).map fun _ => Reply.done
  | readDatum key => exact (readDatum_alike agree same side twin key).map Reply.value
  | setWriteDefault writes => exact ⟨rfl, same.cache, same.outside, rfl, same.fullSyncOnly⟩

end SyncedStore

/--
Two events are twins when they ask for the same, whichever side each of them comes from.

A change outside is its own twin when it makes alike states of alike states.
-/
inductive Event.Twins (alike : σ → σ → Prop) : Event σ → Event σ → Prop where
  | request (side twin : Side) (request : StoreRequest) :
    Twins alike (.request side request) (.request twin request)
  | change {change : σ → σ} (fair : ∀ one other, alike one other →
      alike (change one) (change other)) : Twins alike (.change change) (.change change)

/-- Two encounters are alike when they show the same answer and alike stores. -/
structure Encounter.Alike (alike : σ → σ → Prop) (one other : Encounter σ) : Prop where
  answer : one.answer = other.answer
  store : one.store.Alike alike other.store

namespace SyncedStore

variable {destination : Destination σ} {alike : σ → σ → Prop}
  (agree : destination.SidesAgree alike) {one other : SyncedStore σ}
  (same : one.Alike alike other)

include agree same

/-- Twins leave alike encounters. -/
theorem meet_alike {event twin : Event σ} (twins : event.Twins alike twin) :
    (one.meet destination event).Alike alike (other.meet destination twin) := by
  cases twins with
  | request side twin request =>
    have performed := perform_alike agree same side twin request
    exact ⟨congrArg some performed.1, performed.2⟩
  | change fair =>
    -- Nothing is answered, and only what is outside is replaced.
    exact ⟨rfl, same.cache, fair _ _ same.outside, same.writesByDefault, same.fullSyncOnly⟩

/-- Twin after twin leaves one encounter after another alike. -/
theorem history_alike {events twins : List (Event σ)}
    (paired : List.Forall₂ (Event.Twins alike) events twins) :
    List.Forall₂ (Encounter.Alike alike) (one.history destination events)
      (other.history destination twins) := by
  -- The induction is on the events still to come, from alike stores on both sides.
  induction paired generalizing one other with
  | nil => exact .nil
  | cons first rest ih =>
    have met := meet_alike agree same first
    exact .cons met (ih met.store)

omit agree same in
/-- Encounters with the same outside are alike only when they are the same. -/
theorem eq_of_encounters_alike {encounters others : List (Encounter σ)}
    (same : List.Forall₂ (Encounter.Alike Eq) encounters others) : encounters = others := by
  refine List.forall₂_eq_eq_eq ▸ same.imp fun left right alike => ?_
  cases left
  cases right
  exact (Encounter.mk.injEq ..).mpr ⟨alike.answer, alike.store.eq⟩

end SyncedStore

end SyncStore
