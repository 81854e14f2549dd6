import SyncStore.Proofs.Remote.Texts

/-! The service in memory serves its texts, and so does a client that loses calls on the way. -/

namespace SyncStore

namespace Service

/-- The texts of a service leave out every key whose value is no text. -/
def texts (service : Service) : Texts :=
  fun key => (service.contents.get? key).bind Content.text?

@[simp] theorem texts_log (side : Side) (command : ServiceCommand) (service : Service) :
    (service.log side command).texts = service.texts := rfl

/-- A stored key changes the texts of a service as it changes its contents. -/
theorem texts_store (service : Service) (key value : String) :
    (service.store key value).texts = service.texts.store key value := by
  funext other
  -- The stored key has the new text, and every other key keeps its own.
  by_cases same : other = key
  · subst other
    rw [Texts.store_self]
    simp [texts, store, Content.text?]
  · rw [Texts.store_of_ne _ same]
    simp [texts, store, OrderedMap.get?_insert_of_ne same]

/-- Several stored keys change the texts in turn. -/
theorem texts_storeMany (service : Service) (pairs : List (String × String)) :
    (service.storeMany pairs).texts = service.texts.storeMany pairs := by
  induction pairs generalizing service with
  | nil => rfl
  | cons pair rest ih =>
    -- The first pair is stored, and the others find the texts changed by it.
    have first := texts_store service pair.1 pair.2
    have later := ih (service.store pair.1 pair.2)
    rw [first] at later
    exact later

/-- A lookup that answers gives the text of its key. -/
theorem lookup_texts {service : Service} {key : String} {found : Option String}
    (answered : service.lookup key = .ok found) : found = service.texts key := by
  unfold lookup at answered
  unfold texts
  cases stored : service.contents.get? key with
  -- A key without content has no text.
  | none =>
    simp only [stored] at answered
    cases answered
    rfl
  | some content =>
    simp only [stored] at answered
    -- Binary content refuses the lookup, so an answer comes from text.
    cases content with
    | text s =>
      cases answered
      rfl
    | binary bytes => simp [textOf, Except.map] at answered

/-- Lookups that all answer give the texts of their keys. -/
theorem mapM_lookup_texts {service : Service} {keys : List String} {slots : List (Option String)}
    (answered : keys.mapM service.lookup = .ok slots) : slots = keys.map service.texts := by
  induction keys generalizing slots with
  | nil =>
    cases answered
    rfl
  | cons key rest ih =>
    rw [List.mapM_cons] at answered
    -- The first lookup that fails decides the failure of all.
    cases first : service.lookup key with
    | error error => simp [first, Bind.bind, Except.bind] at answered
    | ok found =>
      cases later : rest.mapM service.lookup with
      | error error => simp [first, later, Bind.bind, Except.bind] at answered
      | ok others =>
        simp only [first, later, Bind.bind, Except.bind, Pure.pure, Except.pure,
          Except.ok.injEq] at answered
        rw [← answered, lookup_texts first, ih later, List.map_cons]

/-- An answer of the length asked for is one that no surplus changed. -/
theorem withSurplus_of_length {surplus : Int} {slots : List (Option String)}
    (even : (withSurplus surplus slots).length = slots.length) :
    withSurplus surplus slots = slots := by
  unfold withSurplus at even ⊢
  split at even
  · -- Nothing was cut from the end, because the length is still the same.
    rename_i cut
    rw [if_pos cut, List.take_of_length_le]
    simp only [List.length_take] at even
    omega
  · -- Nothing was added at the end either.
    rename_i grown
    rw [if_neg grown]
    have none : surplus.toNat = 0 := by simpa using even
    simp [none]

/-- A served command that only reads leaves the texts alone, whatever becomes of it. -/
theorem serve_keeps {α : Type} {side : Side} {command : ServiceCommand}
    {answer : Service → Outcome Service α}
    (keeps : ∀ service, (answer service).2.texts = service.texts) (service : Service) :
    (serve side command answer service).2.texts = service.texts := by
  unfold serve
  -- A closed side and a failing service refuse the command before anything happens.
  by_cases closed : !service.isOpen side
  · simp [closed]
  · cases failing : service.failure with
    | some error => simp [closed]
    | none => simpa [closed] using keeps (service.log side command)

/-- A served command that answers was answered by the service behind its log. -/
theorem serve_ok {α : Type} {side : Side} {command : ServiceCommand}
    {answer : Service → Outcome Service α} {service : Service} {result : α}
    (served : (serve side command answer service).1 = .ok result) :
    serve side command answer service = answer (service.log side command) := by
  unfold serve at served ⊢
  -- A refused command has no answer.
  by_cases closed : !service.isOpen side
  · simp [closed] at served
  · cases failing : service.failure with
    | some error => simp [closed, failing] at served
    | none => simp [closed]

/-- A served command that fails although the service always answers it changed no text. -/
theorem serve_error {α : Type} {side : Side} {command : ServiceCommand}
    {answer : Service → Outcome Service α} {service : Service} {error : StoreError}
    (answers : ∀ service, ∃ result, (answer service).1 = .ok result)
    (served : (serve side command answer service).1 = .error error) :
    (serve side command answer service).2.texts = service.texts := by
  unfold serve at served ⊢
  -- A refused command changed nothing, and any other command is answered.
  by_cases closed : !service.isOpen side
  · simp [closed]
  · cases failing : service.failure with
    | some error => simp [closed]
    | none =>
      obtain ⟨result, answered⟩ := answers (service.log side command)
      simp [closed, failing, answered] at served

/-- A step of a scan leaves the texts alone. -/
theorem texts_scanStep (service : Service) (cursor : Cursor) (pattern : String) (count : Nat) :
    (service.scanStep cursor pattern count).2.texts = service.texts := by
  unfold scanStep
  split <;> rfl

/-- Each client of the service in memory serves its texts. -/
theorem client_serves (side : Side) : (client side).Serves texts where
  -- Reads only log what was asked.
  get_keeps key state := serve_keeps (fun _ => rfl) state
  get_answers key state found answered := by
    have served := serve_ok answered
    rw [show (client side).get key state = _ from served] at answered
    exact lookup_texts answered
  getMany_keeps keys state := serve_keeps (fun _ => rfl) state
  getMany_answers keys state slots answered even := by
    have served := serve_ok answered
    rw [show (client side).getMany keys state = _ from served] at answered
    cases looked : keys.mapM (state.log side (.getMany keys)).lookup with
    | error error => simp [looked, Except.map] at answered
    | ok found =>
      simp only [looked, Except.map, Except.ok.injEq] at answered
      obtain rfl := mapM_lookup_texts looked
      -- The lookups have one slot for each key, so the answer is exactly theirs.
      rw [← answered] at even ⊢
      rw [withSurplus_of_length (by simpa using even)]
      rfl
  scan_keeps cursor pattern count state :=
    serve_keeps (fun service => texts_scanStep service cursor pattern count) state
  -- A write that answers went through the log to the contents.
  set_stores key raw state answered := by
    rw [show (client side).set key raw state = _ from serve_ok answered]
    exact texts_store _ key raw
  set_fails key raw state error answered := serve_error (fun _ => ⟨(), rfl⟩) answered
  setMany_stores pairs state answered := by
    rw [show (client side).setMany pairs state = _ from serve_ok answered]
    exact texts_storeMany _ pairs
  setMany_fails pairs state error answered := serve_error (fun _ => ⟨(), rfl⟩) answered

end Service

namespace Client

variable {σ : Type}

/-- A call is lost with the next failure of a schedule, or reaches the client when there is none. -/
def lose {α : Type} (call : σ → Outcome σ α) :
    List (Option StoreError) × σ → Outcome (List (Option StoreError) × σ) α
  | (some error :: schedule, state) => (.error error, (schedule, state))
  | (none :: schedule, state) =>
    match call state with
    | (answer, state) => (answer, (schedule, state))
  | ([], state) =>
    match call state with
    | (answer, state) => (answer, ([], state))

/-- A client loses calls on the way to its service, as a schedule of failures says. -/
def lossy (client : Client σ) : Client (List (Option StoreError) × σ) where
  get key := lose (client.get key)
  set key raw := lose (client.set key raw)
  getMany keys := lose (client.getMany keys)
  setMany pairs := lose (client.setMany pairs)
  scan cursor pattern count := lose (client.scan cursor pattern count)
  ping := lose client.ping
  close := lose client.close
  stepsLeft state := client.stepsLeft state.2

/-- A call was lost and left the service alone, or its outcome is that of the client. -/
theorem lose_cases {α : Type} (call : σ → Outcome σ α) (state : List (Option StoreError) × σ) :
    (∃ error, (lose call state).1 = .error error ∧ (lose call state).2.2 = state.2) ∨
      ((lose call state).1 = (call state.2).1 ∧ (lose call state).2.2 = (call state.2).2) := by
  obtain ⟨_ | ⟨_ | error, schedule⟩, inner⟩ := state
  · -- The schedule is over, or lets this call pass, or loses it.
    exact Or.inr ⟨rfl, rfl⟩
  · exact Or.inr ⟨rfl, rfl⟩
  · exact Or.inl ⟨error, rfl, rfl⟩

/-- A client that loses calls serves the same texts as before. -/
theorem Serves.lossy {client : Client σ} {texts : σ → Texts} (serves : client.Serves texts) :
    client.lossy.Serves fun state => texts state.2 := by
  -- A lost call changes nothing and answers nothing, and any other call is one of the client.
  refine ⟨?_, ?_, ?_, ?_, ?_, ?_, ?_, ?_, ?_⟩
  · -- A single read.
    intro key state
    rcases lose_cases (client.get key) state with ⟨_, _, kept⟩ | ⟨_, after⟩
    · exact congrArg texts kept
    · exact (congrArg texts after).trans (serves.get_keeps key state.2)
  · intro key state found answered
    rcases lose_cases (client.get key) state with ⟨_, lost, _⟩ | ⟨same, _⟩
    · cases lost.symm.trans answered
    · exact serves.get_answers key state.2 found (same.symm.trans answered)
  · -- A read of several keys.
    intro keys state
    rcases lose_cases (client.getMany keys) state with ⟨_, _, kept⟩ | ⟨_, after⟩
    · exact congrArg texts kept
    · exact (congrArg texts after).trans (serves.getMany_keeps keys state.2)
  · intro keys state slots answered
    rcases lose_cases (client.getMany keys) state with ⟨_, lost, _⟩ | ⟨same, _⟩
    · cases lost.symm.trans answered
    · exact serves.getMany_answers keys state.2 slots (same.symm.trans answered)
  · -- A step of a scan.
    intro cursor pattern count state
    rcases lose_cases (client.scan cursor pattern count) state with ⟨_, _, kept⟩ | ⟨_, after⟩
    · exact congrArg texts kept
    · exact (congrArg texts after).trans (serves.scan_keeps cursor pattern count state.2)
  · -- A single write.
    intro key raw state answered
    rcases lose_cases (client.set key raw) state with ⟨_, lost, _⟩ | ⟨same, after⟩
    · cases lost.symm.trans answered
    · exact (congrArg texts after).trans
        (serves.set_stores key raw state.2 (same.symm.trans answered))
  · intro key raw state error answered
    rcases lose_cases (client.set key raw) state with ⟨_, _, kept⟩ | ⟨same, after⟩
    · exact congrArg texts kept
    · exact (congrArg texts after).trans
        (serves.set_fails key raw state.2 error (same.symm.trans answered))
  · -- A write of several keys.
    intro pairs state answered
    rcases lose_cases (client.setMany pairs) state with ⟨_, lost, _⟩ | ⟨same, after⟩
    · cases lost.symm.trans answered
    · exact (congrArg texts after).trans
        (serves.setMany_stores pairs state.2 (same.symm.trans answered))
  · intro pairs state error answered
    rcases lose_cases (client.setMany pairs) state with ⟨_, _, kept⟩ | ⟨same, after⟩
    · exact congrArg texts kept
    · exact (congrArg texts after).trans
        (serves.setMany_fails pairs state.2 error (same.symm.trans answered))

end Client

end SyncStore
