import SyncStore.Proofs.Remote.Trace
import SyncStore.Proofs.Remote.Twins
import SyncStore.Remote.Service

/-! A whole read fetches every key in batches, or stops at the first failure. -/

namespace SyncStore

variable {σ : Type}

/-- Every call of a traced client is put last into its trace, together with the answer. -/
def Client.traced (client : Client σ) : Client (Trace × σ) where
  get key := fun (trace, state) =>
    match client.get key state with
    | (answer, state) => (answer, (trace ++ [.other], state))
  set key raw := fun (trace, state) =>
    match client.set key raw state with
    | (answer, state) => (answer, (trace ++ [.other], state))
  getMany batch := fun (trace, state) =>
    match client.getMany batch state with
    | (answer, state) => (answer, (trace ++ [.fetch batch answer], state))
  setMany pairs := fun (trace, state) =>
    match client.setMany pairs state with
    | (answer, state) => (answer, (trace ++ [.other], state))
  scan cursor pattern count := fun (trace, state) =>
    match client.scan cursor pattern count state with
    | (answer, state) => (answer, (trace ++ [.scan cursor pattern count answer], state))
  ping := fun (trace, state) =>
    match client.ping state with
    | (answer, state) => (answer, (trace ++ [.other], state))
  close := fun (trace, state) =>
    match client.close state with
    | (answer, state) => (answer, (trace ++ [.other], state))
  stepsLeft := fun (_, state) => client.stepsLeft state

/-- An outcome over a traced client is seen without its trace. -/
def Outcome.untraced {α : Type} (outcome : Outcome (Trace × σ) α) : Outcome σ α :=
  (outcome.1, outcome.2.2)

namespace Remote

variable {client : Client σ}

/-- Fetched texts enter the data as the entries of their exchange do. -/
theorem collect_zip (data : Data) (batch : List String) (slots : List (Option String)) :
    collect data (batch.zip slots) = data.merge (Exchange.fetch batch (.ok slots)).entries := by
  rw [Exchange.entries]
  induction batch.zip slots generalizing data with
  -- An empty slot makes no entry, and a text is inserted under its key.
  | nil => rfl
  | cons pair rest ih =>
    obtain ⟨key, _ | raw⟩ := pair
    · exact ih data
    · exact ih (data.insert key (decodeValue raw))

/-- A traced scan step is one exchange. -/
theorem scan_traced {cursor : Cursor} {pattern : String} {count : Nat} {state after : σ}
    {answer : Except StoreError (Cursor × List String)}
    (called : client.scan cursor pattern count state = (answer, after)) (trace : Trace) :
    client.traced.scan cursor pattern count (trace, state) =
      (answer, trace ++ [.scan cursor pattern count answer], after) := by
  simp only [Client.traced, called]

/-- A traced fetch is one exchange, which fails or has its entries merged into the data. -/
theorem fetch_traced (client : Client σ) (batch : List String) (data : Data) (trace : Trace)
    (state : σ) :
    ∃ answer after, client.getMany batch state = (answer, after) ∧
      fetch client.traced batch data (trace, state) =
        (match (Exchange.fetch batch answer).failure? with
          | some error => .error error
          | none => .ok (data.merge (Exchange.fetch batch answer).entries),
          (trace ++ [.fetch batch answer], after)) := by
  cases called : client.getMany batch state with
  | mk answer after =>
    refine ⟨answer, after, rfl, ?_⟩
    -- The call fails, or answers one slot for each key, or another number of slots.
    cases answer with
    | error error => simp only [fetch, Client.traced, called, Exchange.failure?]
    | ok slots =>
      simp only [fetch, Client.traced, called, Exchange.failure?]
      split
      · rw [collect_zip]
      · rfl

/--
What holds whenever keys are taken into a batch.

- `waits`: the keys that wait are those of the batch and those not taken yet
- `few`: the batch is not full
- `data`: the data are those of the trace
-/
structure Taking (size : BatchSize) (trace : Trace) (pending untaken : List String)
    (data : Data) : Prop where
  proper : trace.Proper size
  fine : trace.Fine
  waits : trace.waiting = pending ++ untaken
  few : pending.length < size.val
  data : trace.data = data

/-- A read stops at an exchange that was due and failed. -/
def Stopped (size : BatchSize) (trace : Trace) (error : StoreError) : Prop :=
  trace.Proper size ∧ ∃ before exchange, trace = before ++ [exchange] ∧
    exchange.failure? = some error

/-- Keys are taken into batches until none is left, or until a fetch fails. -/
theorem takeKeys_traced (client : Client σ) {size : BatchSize} {trace : Trace}
    {untaken pending : List String} {data : Data}
    (taking : Taking size trace pending untaken data) (state : σ) :
    match takeKeys client.traced size.val untaken pending data (trace, state) with
    | (.error error, reached, _) => Stopped size reached error
    | (.ok (pending, data), reached, _) =>
      Taking size reached pending [] data ∧ reached.cursors = trace.cursors := by
  -- The induction is on the keys not taken yet, and what holds while taking them carries it.
  induction untaken generalizing trace pending data state with
  | nil => exact ⟨taking, rfl⟩
  | cons key untaken ih =>
    -- The next key waits behind those of the batch.
    have waits : trace.waiting = (pending ++ [key]) ++ untaken := by
      rw [taking.waits, List.append_assoc, List.singleton_append]
    have few := taking.few
    rw [takeKeys]
    by_cases enough : size.val ≤ (pending ++ [key]).length
    · -- The batch is full, so the keys that wait first are fetched.
      rw [if_pos enough]
      have length : (pending ++ [key]).length = size.val := by
        rw [List.length_append, List.length_singleton] at enough ⊢
        omega
      have batch : trace.waiting.take size.val = pending ++ [key] := by
        rw [waits, ← length, List.take_left']
        rfl
      obtain ⟨answer, after, _, fetched⟩ :=
        fetch_traced client (pending ++ [key]) data trace state
      -- So a batch of just these keys is due.
      have due : Trace.Due size trace (.fetch (pending ++ [key]) answer) := by
        rw [← batch]
        exact .full answer (by rw [waits, List.length_append, length]; omega)
      have proper := taking.proper.next taking.fine due
      rw [fetched]
      cases failing : (Exchange.fetch (pending ++ [key]) answer).failure? with
      | some error => exact ⟨proper, trace, _, rfl, failing⟩
      | none =>
        -- The batch is empty again, and the data have its entries.
        have taken : Taking size (trace ++ [.fetch (pending ++ [key]) answer]) [] untaken
            (data.merge (Exchange.fetch (pending ++ [key]) answer).entries) := by
          refine ⟨proper, taking.fine.snoc failing, ?_, size.positive, ?_⟩
          · exact taking.proper.waiting_fetch waits answer
          · rw [Trace.data_snoc, taking.data]
        have reached := ih taken after
        simp only [Trace.cursors_append, Trace.cursors_fetch, List.append_nil] at reached
        exact reached
    · -- The key joins the batch, which is still not full.
      rw [if_neg enough]
      exact ih ⟨taking.proper, taking.fine, waits, Nat.lt_of_not_le enough, taking.data⟩ state

/--
How a whole read may come out.

It stops at a failure, gives up on a scan that is not over after the steps it may take,
or answers the data of all keys when the scan is over.
-/
def Settled (size : BatchSize) (steps : Nat) : Outcome (Trace × σ) Data → Prop
  | (.error error, trace, _) =>
    Stopped size trace error ∨
      trace.Proper size ∧ trace.Fine ∧ 0 ∉ trace.cursors ∧ trace.cursors.length = steps
  | (.ok data, trace, _) => Taking size trace [] [] data ∧ trace.cursors.getLast? = some 0

/-- A read whose scan is over fetches the last keys, if there are any. -/
theorem fetch_rest_traced (client : Client σ) {size : BatchSize} {trace : Trace}
    {pending : List String} {data : Data} (taking : Taking size trace pending [] data)
    (ended : trace.cursors.getLast? = some 0) (steps : Nat) (state : σ) :
    Settled size steps (if pending.isEmpty then (.ok data, trace, state)
      else fetch client.traced pending data (trace, state)) := by
  by_cases empty : pending = []
  · subst empty
    exact ⟨taking, ended⟩
  have waits : trace.waiting = pending := taking.waits.trans (List.append_nil pending)
  obtain ⟨answer, after, _, fetched⟩ := fetch_traced client pending data trace state
  -- The last keys are due, because the scan is over and they fill no batch.
  have due : Trace.Due size trace (.fetch pending answer) := by
    rw [← waits]
    exact .rest answer ended (waits ▸ taking.few) (waits ▸ empty)
  have proper := taking.proper.next taking.fine due
  rw [if_neg (by simpa using empty), fetched]
  cases failing : (Exchange.fetch pending answer).failure? with
  | some error => exact Or.inl ⟨proper, trace, _, rfl, failing⟩
  | none =>
    refine ⟨⟨proper, taking.fine.snoc failing, ?_, size.positive, ?_⟩, ?_⟩
    · exact taking.proper.waiting_fetch taking.waits answer
    · rw [Trace.data_snoc, taking.data]
    · rw [Trace.cursors_append, Trace.cursors_fetch, List.append_nil, ended]

/-- A read that is due to go on with its scan settles. -/
theorem scanFrom_traced (client : Client σ) {size : BatchSize} {trace : Trace}
    {pending : List String} {data : Data} (taking : Taking size trace pending [] data)
    (goesOn : trace.cursors.getLast? ≠ some 0) (steps : Nat) (state : σ) :
    Settled size (trace.cursors.length + steps)
      (scanFrom client.traced size.val steps (trace.cursors.getLast?.getD 0) pending data
        (trace, state)) := by
  -- The induction is on the scan steps left, and what holds while taking keys carries it.
  induction steps generalizing trace pending data state with
  | zero =>
    -- No step is left, and the scan has not come to its end.
    have nonzero := Trace.Proper.ne_zero_of_goesOn taking.proper.cursors_dropLast_ne_zero goesOn
    exact Or.inr ⟨taking.proper, taking.fine, fun zero => nonzero 0 zero rfl, rfl⟩
  | succ steps ih =>
    have waits : trace.waiting = pending := taking.waits.trans (List.append_nil pending)
    have proper answer := taking.proper.next taking.fine
      (Trace.Due.scan answer goesOn (waits ▸ taking.few))
    cases called : client.scan (trace.cursors.getLast?.getD 0) everyKey size.val state with
    | mk answer after =>
      rw [scanFrom, scan_traced called trace]
      cases answer with
      | error error => exact Or.inl ⟨proper _, trace, _, rfl, rfl⟩
      | ok page =>
        obtain ⟨next, found⟩ := page
        let scanned : Trace := trace ++
          [.scan (trace.cursors.getLast?.getD 0) everyKey size.val (.ok (next, found))]
        -- The page was due, and its keys are all that is not taken yet.
        have page : Taking size scanned pending found data := by
          refine ⟨proper _, taking.fine.snoc rfl, ?_, taking.few, ?_⟩
          · rw [taking.proper.waiting_page, waits]
          · rw [Trace.data_snoc, taking.data]
            rfl
        have taken := takeKeys_traced client page after
        dsimp only
        cases takes : takeKeys client.traced size.val found pending data (scanned, after) with
        | mk answer reached =>
          rw [takes] at taken
          obtain ⟨reached, after⟩ := reached
          cases answer with
          | error error => exact Or.inl taken
          | ok batch =>
            obtain ⟨pending, data⟩ := batch
            obtain ⟨taking, cursors⟩ := taken
            -- Taking keys scans no further, so the last cursor is still that of the page.
            have last : reached.cursors.getLast? = some next := by
              rw [cursors, Trace.cursors_append, Trace.cursors_page, List.getLast?_concat]
            have answered : reached.cursors.length = trace.cursors.length + 1 := by
              rw [cursors, Trace.cursors_append, Trace.cursors_page, List.length_append,
                List.length_singleton]
            dsimp only
            by_cases onwards : next ≠ 0
            · have later := ih taking (by rw [last]; simpa using onwards) after
              rw [last, Option.getD_some, answered, Nat.add_assoc, Nat.add_comm 1] at later
              rw [if_pos onwards]
              exact later
            · rw [if_neg onwards]
              obtain rfl : next = 0 := Decidable.not_not.mp onwards
              exact fetch_rest_traced client taking last _ after

/-- A traced fetch has the outcome of the client. -/
theorem fetch_untraced (client : Client σ) (batch : List String) (data : Data) (trace : Trace)
    (state : σ) :
    Outcome.untraced (fetch client.traced batch data (trace, state)) =
      fetch client batch data state := by
  -- The trace has no part in the answer or in what is made of it.
  cases called : client.getMany batch state with
  | mk answer after =>
    cases answer with
    | error error => simp only [fetch, Client.traced, called, Outcome.untraced]
    | ok slots =>
      simp only [fetch, Client.traced, called]
      split <;> rfl

/-- Keys taken over a traced client are taken as over the client. -/
theorem takeKeys_untraced (client : Client σ) (size : Nat) (keys pending : List String)
    (data : Data) (trace : Trace) (state : σ) :
    Outcome.untraced (takeKeys client.traced size keys pending data (trace, state)) =
      takeKeys client size keys pending data state := by
  induction keys generalizing pending data trace state with
  | nil => rfl
  | cons key keys ih =>
    -- Both fill the same batches, and both fetch them with the same answers.
    rw [takeKeys, takeKeys]
    split
    · rw [← fetch_untraced client (pending ++ [key]) data trace state]
      cases fetch client.traced (pending ++ [key]) data (trace, state) with
      | mk answer reached =>
        cases answer with
        | error error => rfl
        | ok data => exact ih [] data reached.1 reached.2
    · exact ih (pending ++ [key]) data trace state

/-- A scan over a traced client goes as over the client. -/
theorem scanFrom_untraced (client : Client σ) (size steps : Nat) (cursor : Cursor)
    (pending : List String) (data : Data) (trace : Trace) (state : σ) :
    Outcome.untraced (scanFrom client.traced size steps cursor pending data (trace, state)) =
      scanFrom client size steps cursor pending data state := by
  -- The induction is on the scan steps left, for any trace before them.
  induction steps generalizing cursor pending data trace state with
  | zero => rfl
  | succ steps ih =>
    cases called : client.scan cursor everyKey size state with
    | mk answer after =>
      rw [scanFrom, scanFrom, scan_traced called trace, called]
      cases answer with
      | error error => rfl
      | ok page =>
        obtain ⟨next, found⟩ := page
        -- The keys of the page are taken in the same way.
        dsimp only
        rw [← takeKeys_untraced client size found pending data
          (trace ++ [.scan cursor everyKey size (.ok (next, found))]) after]
        cases takeKeys client.traced size found pending data
            (trace ++ [.scan cursor everyKey size (.ok (next, found))], after) with
        | mk answer reached =>
          cases answer with
          | error error => rfl
          | ok batch =>
            obtain ⟨pending, data⟩ := batch
            dsimp only [Outcome.untraced]
            -- The scan goes on, or ends with nothing pending, or with one more batch.
            split
            · exact ih next pending data reached.1 reached.2
            · split
              · rfl
              · exact fetch_untraced client pending data reached.1 reached.2

end Remote

/--
What a trace and a result tell about a read of all keys in batches.

- `scans`: the scan starts at zero and goes on from each cursor, a batch at a time
- `onward`: it never goes on from a cursor that is zero
- `inOrder`: at any time the keys fetched so far are the first ones of those scanned so far
- `bounded`: no batch is empty or larger than the batch size
- `full`: only the last batch may be smaller
- `prompt`: every full batch is fetched before the scan goes on
- `only`: no other calls are made
- `patient`: a read without failures gives up on no scan before it took all its steps
- `complete`: a read without failures that scans to the end fetches every key
- `failed`: a failure is the result, and the end of the trace
-/
structure BatchedRead (size : BatchSize) (steps : Nat) (trace : Trace)
    (result : Except StoreError Data) : Prop where
  scans : trace.scans <+: (0 :: trace.cursors).map (Trace.scanFrom size)
  onward : ∀ cursor ∈ trace.cursors.dropLast, cursor ≠ 0
  inOrder : ∀ before : Trace, before <+: trace → before.batches.flatten <+: before.keys
  bounded : ∀ batch ∈ trace.batches, batch ≠ [] ∧ batch.length ≤ size.val
  full : ∀ batch ∈ trace.batches.dropLast, batch.length = size.val
  prompt : ∀ (before : Trace) cursor pattern count answer after,
    trace = before ++ .scan cursor pattern count answer :: after →
      before.keys.length < before.batches.flatten.length + size.val ∧
        ∀ batch ∈ before.batches, batch.length = size.val
  only : .other ∉ trace
  patient : trace.Fine → 0 ∉ trace.cursors → trace.cursors.length = steps
  complete : trace.Fine → 0 ∈ trace.cursors →
    trace.cursors.getLast? = some 0 ∧
      trace.scans = (0 :: trace.cursors.dropLast).map (Trace.scanFrom size) ∧
      trace.batches.flatten = trace.keys ∧ result = .ok trace.data
  failed : ∀ before exchange after error, trace = before ++ exchange :: after →
    exchange.failure? = some error → after = [] ∧ result = .error error

namespace Remote

/-- A settled read is one in batches. -/
theorem Settled.batched {size : BatchSize} {steps : Nat} {outcome : Outcome (Trace × σ) Data}
    (settled : Settled size steps outcome) :
    BatchedRead size steps outcome.2.1 outcome.1 := by
  obtain ⟨result, trace, state⟩ := outcome
  change BatchedRead size steps trace result
  -- However the read came out, its trace is proper.
  have proper : trace.Proper size := by
    cases result with
    | error error => exact settled.elim And.left And.left
    | ok data => exact settled.1.proper
  refine ⟨proper.scans_onward, proper.cursors_dropLast_ne_zero, fun before cut =>
    (proper.of_cut cut).batches_inOrder, proper.batches_bounded, proper.batches_dropLast_full,
    ?prompt, ?only, ?patient, ?complete, ?failed⟩
  case prompt =>
    -- A scan step was due, so the keys before it fill no batch.
    intro before cursor pattern count answer after same
    obtain ⟨proper, fine, due⟩ := (same ▸ proper).split
    refine ⟨?_, proper.batches_full due⟩
    rw [proper.keys_eq, List.length_append]
    cases due with
    | scan answer goesOn few => omega
  case only =>
    -- No other call is ever due.
    intro member
    obtain ⟨before, after, same⟩ := List.append_of_mem member
    obtain ⟨_, _, due⟩ := (same ▸ proper).split
    cases due
  case patient =>
    -- The read gave up after its last step, because nothing failed.
    intro fine endless
    cases result with
    | error error =>
      rcases settled with ⟨_, before, exchange, rfl, failing⟩ | ⟨_, _, _, taken⟩
      · exact absurd failing (fine.not_failing (by simp) error)
      · exact taken
    | ok data => exact absurd (List.mem_of_getLast? settled.2) endless
  case complete =>
    -- The read came to its end, because nothing failed and it did not give up.
    intro fine ends
    cases result with
    | error error =>
      rcases settled with ⟨_, before, exchange, rfl, failing⟩ | ⟨_, _, endless, _⟩
      · exact absurd failing (fine.not_failing (by simp) error)
      · exact absurd ends endless
    | ok data =>
      obtain ⟨taking, ended⟩ := settled
      have some : trace.cursors ≠ [] := List.ne_nil_of_mem ends
      refine ⟨ended, ?_, ?_, by rw [taking.data]⟩
      · rw [proper.scans_of_fine fine, List.dropLast_cons_of_ne_nil some]
      · rw [proper.keys_eq, taking.waits, List.append_nil, List.append_nil]
  case failed =>
    -- Only the last exchange may fail, and it stopped the read.
    intro before exchange after error same failing
    obtain rfl := proper.failure_last same failing
    refine ⟨rfl, ?_⟩
    cases result with
    | error stopped =>
      rcases settled with ⟨_, front, last, ends, reason⟩ | ⟨_, fine, _⟩
      · obtain ⟨_, alone⟩ := List.append_inj' (same.symm.trans ends) rfl
        obtain rfl := (List.cons.inj alone).1
        rw [Option.some.inj (reason.symm.trans failing)]
      · exact absurd failing (fine.not_failing (by simp [same]) error)
    | ok data => exact absurd failing (settled.1.fine.not_failing (by simp [same]) error)

/--
A whole read over any client scans to the end and fetches every key in batches.

The scan takes every step that the client allows until a cursor is zero. The first call
that fails, or that answers another number of slots than it was asked for, is the last
call and gives the result.
-/
theorem readAll_batched (clients : Side → Client σ) (size : BatchSize) (side : Side) (state : σ) :
    let traced := Remote.destination (fun side => (clients side).traced) size
    (Remote.destination clients size).readAll side state =
        Outcome.untraced (traced.readAll side ([], state)) ∧
      BatchedRead size ((clients side).stepsLeft state + 1)
        (traced.readAll side ([], state)).2.1 (traced.readAll side ([], state)).1 := by
  intro traced
  have start : Taking size [] [] [] [] :=
    ⟨.start, by simp [Trace.Fine], rfl, size.positive, rfl⟩
  have settled := scanFrom_traced (clients side) start (by simp [Trace.cursors])
    ((clients side).stepsLeft state + 1) state
  -- No scan step was taken before the read.
  rw [show Trace.cursors [] = [] from rfl, List.length_nil, Nat.zero_add] at settled
  -- Either side reads over its own connection.
  simp only [traced, destination_readAll]
  exact ⟨(scanFrom_untraced (clients side) size.val _ 0 [] [] [] state).symm, settled.batched⟩

/-- Keys that repeat and keys without a value are fetched across the bounds of the pages. -/
theorem readAll_batched_across_pages :
    let service := { Service.empty with
      contents := [("a", .text "1"), ("b", .text "2"), ("c", .text "3")],
      script := some [(7, ["a", "b", "a"]), (3, []), (0, ["c", "gone"])] }
    let traced :=
      Remote.destination (fun side => (Service.client side).traced) ⟨2, by decide, by decide⟩
    let outcome := traced.readAll .sync ([], service)
    outcome.2.1.scans = [(0, "*", 2), (7, "*", 2), (3, "*", 2)] ∧
      outcome.2.1.batches = [["a", "b"], ["a", "c"], ["gone"]] ∧
      outcome.1 = .ok outcome.2.1.data := by
  intro service traced outcome
  have none : outcome.2.1.map Exchange.failure? = List.replicate 6 none := rfl
  have fine : outcome.2.1.Fine := fun exchange member =>
    List.eq_of_mem_replicate (none ▸ List.mem_map_of_mem member)
  have ends : 0 ∈ outcome.2.1.cursors := by decide
  have batched := (readAll_batched Service.client ⟨2, by decide, by decide⟩ .sync service).2
  exact ⟨rfl, rfl, (batched.complete fine ends).2.2.2⟩

end Remote

end SyncStore
