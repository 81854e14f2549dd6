import SyncStore.Proofs.OrderedMap
import SyncStore.Remote.RemoteDestination

/-! The calls of a whole read follow from the answers to the calls before them. -/

namespace SyncStore

/--
A call of a connection together with its answer.

- `scan`: one step of a scan
- `fetch`: the texts of a batch of keys
- `other`: any call that a whole read has no use for
-/
inductive Exchange where
  | scan (cursor : Cursor) (pattern : String) (count : Nat)
      (answer : Except StoreError (Cursor × List String))
  | fetch (batch : List String) (answer : Except StoreError (List (Option String)))
  | other

namespace Exchange

/-- Why an exchange ends a whole read, if it does. -/
def failure? : Exchange → Option StoreError
  | .scan _ _ _ (.error error) => some error
  | .fetch _ (.error error) => some error
  | .fetch batch (.ok slots) =>
    if slots.length = batch.length then none
    else some (.unevenAnswer slots.length batch.length)
  | _ => none

/-- What a scan step asks for. -/
def scan? : Exchange → Option (Cursor × String × Nat)
  | .scan cursor pattern count _ => some (cursor, pattern, count)
  | _ => none

/-- What a scan step answers. -/
def page? : Exchange → Option (Cursor × List String)
  | .scan _ _ _ (.ok page) => some page
  | _ => none

/-- The keys that are fetched. -/
def batch? : Exchange → Option (List String)
  | .fetch batch _ => some batch
  | _ => none

/-- Each text that is fetched makes an entry, and an empty slot makes none. -/
def entries : Exchange → List (String × Value)
  | .fetch batch (.ok slots) =>
    (batch.zip slots).filterMap fun (key, slot) => slot.map fun raw => (key, decodeValue raw)
  | _ => []

end Exchange

/-- A trace lists the exchanges of a connection in their order. -/
abbrev Trace := List Exchange

namespace Trace

/-- What the scan steps of a trace ask for. -/
def scans (trace : Trace) : List (Cursor × String × Nat) := trace.filterMap Exchange.scan?

/-- The cursors that scan steps answer. -/
def cursors (trace : Trace) : List Cursor := (trace.filterMap Exchange.page?).map Prod.fst

/-- The keys that scan steps answer. -/
def keys (trace : Trace) : List String := (trace.filterMap Exchange.page?).flatMap Prod.snd

/-- The batches of keys that are fetched. -/
def batches (trace : Trace) : List (List String) := trace.filterMap Exchange.batch?

/-- The keys that were scanned but not fetched. -/
def waiting (trace : Trace) : List String := trace.keys.drop trace.batches.flatten.length

/-- Fetched entries enter the data in their order, each in the first place of its key. -/
def data (trace : Trace) : Data := OrderedMap.ofEntries (trace.flatMap Exchange.entries)

/-- A scan step asks for keys of any name from a cursor on, as many as a batch takes. -/
def scanFrom (size : BatchSize) (cursor : Cursor) : Cursor × String × Nat :=
  (cursor, "*", size.val)

/-- No exchange of a fine trace fails. -/
def Fine (trace : Trace) : Prop := ∀ exchange ∈ trace, exchange.failure? = none

/--
An exchange is due after a trace.

- `scan`: the scan goes on from its last cursor while the keys that wait fill no batch
- `full`: the keys that wait fill a batch
- `rest`: the scan is over, and the last keys fill no batch
-/
inductive Due (size : BatchSize) (trace : Trace) : Exchange → Prop where
  | scan (answer : Except StoreError (Cursor × List String))
      (goesOn : trace.cursors.getLast? ≠ some 0) (few : trace.waiting.length < size.val) :
      Due size trace (.scan (trace.cursors.getLast?.getD 0) "*" size.val answer)
  | full (answer : Except StoreError (List (Option String)))
      (enough : size.val ≤ trace.waiting.length) :
      Due size trace (.fetch (trace.waiting.take size.val) answer)
  | rest (answer : Except StoreError (List (Option String)))
      (ended : trace.cursors.getLast? = some 0) (few : trace.waiting.length < size.val)
      (left : trace.waiting ≠ []) : Due size trace (.fetch trace.waiting answer)

/-- In a proper trace every exchange is due, and only the last one may fail. -/
inductive Proper (size : BatchSize) : Trace → Prop where
  | start : Proper size []
  | next {before : Trace} {exchange : Exchange} (proper : Proper size before) (fine : before.Fine)
      (due : Due size before exchange) : Proper size (before ++ [exchange])

section Append

variable (before after : Trace)

@[simp] theorem scans_append : (before ++ after).scans = before.scans ++ after.scans :=
  List.filterMap_append

@[simp] theorem cursors_append : (before ++ after).cursors = before.cursors ++ after.cursors := by
  simp [cursors]

@[simp] theorem keys_append : (before ++ after).keys = before.keys ++ after.keys := by
  simp [keys]

@[simp] theorem batches_append : (before ++ after).batches = before.batches ++ after.batches :=
  List.filterMap_append

end Append

/-- A fetch asks for no scan step and answers none. -/
@[simp] theorem scans_fetch (batch : List String)
    (answer : Except StoreError (List (Option String))) : scans [.fetch batch answer] = [] := rfl

@[simp] theorem cursors_fetch (batch : List String)
    (answer : Except StoreError (List (Option String))) : cursors [.fetch batch answer] = [] := rfl

@[simp] theorem keys_fetch (batch : List String)
    (answer : Except StoreError (List (Option String))) : keys [.fetch batch answer] = [] := rfl

@[simp] theorem batches_fetch (batch : List String)
    (answer : Except StoreError (List (Option String))) :
    batches [.fetch batch answer] = [batch] := rfl

/-- A scan step fetches nothing. -/
@[simp] theorem batches_scan (cursor : Cursor) (pattern : String) (count : Nat)
    (answer : Except StoreError (Cursor × List String)) :
    batches [.scan cursor pattern count answer] = [] := rfl

@[simp] theorem scans_scan (cursor : Cursor) (pattern : String) (count : Nat)
    (answer : Except StoreError (Cursor × List String)) :
    scans [.scan cursor pattern count answer] = [(cursor, pattern, count)] := rfl

/-- A scan step that answers adds its cursor and its keys. -/
@[simp] theorem cursors_page (cursor : Cursor) (pattern : String) (count : Nat)
    (page : Cursor × List String) :
    cursors [.scan cursor pattern count (.ok page)] = [page.1] := rfl

@[simp] theorem keys_page (cursor : Cursor) (pattern : String) (count : Nat)
    (page : Cursor × List String) :
    keys [.scan cursor pattern count (.ok page)] = page.2 := by
  simp [keys, Exchange.page?]

@[simp] theorem cursors_lostScan (cursor : Cursor) (pattern : String) (count : Nat)
    (error : StoreError) : cursors [.scan cursor pattern count (.error error)] = [] := rfl

@[simp] theorem keys_lostScan (cursor : Cursor) (pattern : String) (count : Nat)
    (error : StoreError) : keys [.scan cursor pattern count (.error error)] = [] := rfl

/-- A trace stays fine with an exchange that does not fail. -/
theorem Fine.snoc {trace : Trace} (fine : trace.Fine) {exchange : Exchange}
    (good : exchange.failure? = none) : Fine (trace ++ [exchange]) := by
  -- An exchange of the longer trace is an old one or the one that was added.
  intro found member
  rcases List.mem_append.mp member with old | new
  · exact fine found old
  · rwa [List.mem_singleton.mp new]

/-- In a fine trace no exchange is found failing. -/
theorem Fine.not_failing {trace : Trace} (fine : trace.Fine) {exchange : Exchange}
    (member : exchange ∈ trace) (error : StoreError) : exchange.failure? ≠ some error := by
  rw [fine exchange member]
  simp

/-- The data of a longer trace has the entries of its last exchange merged in. -/
theorem data_snoc (trace : Trace) (exchange : Exchange) :
    data (trace ++ [exchange]) = trace.data.merge exchange.entries := by
  simp [data, OrderedMap.ofEntries, OrderedMap.merge]

namespace Proper

variable {size : BatchSize} {trace : Trace}

/-- What is fetched are the first of the keys that were scanned, in their order. -/
theorem batches_inOrder (proper : trace.Proper size) : trace.batches.flatten <+: trace.keys := by
  induction proper with
  | start => exact List.prefix_rfl
  | next proper fine due ih =>
    obtain ⟨rest, same⟩ := ih
    rename_i before exchange
    -- What waits is what was scanned behind the batches.
    have waits : before.waiting = rest := by simp [waiting, ← same]
    cases due with
    -- A scan step adds keys at the end, and a fetch takes them from the front.
    | scan answer =>
      cases answer with
      | error error => exact ⟨rest, by simp [← same]⟩
      | ok page => exact ⟨rest ++ page.2, by simp [← same]⟩
    | full answer enough =>
      refine ⟨rest.drop size.val, ?_⟩
      simp [waits, ← same]
    | rest answer ended few left => exact ⟨[], by simp [waits, ← same]⟩

/-- The keys that were scanned are those that were fetched and those that wait. -/
theorem keys_eq (proper : trace.Proper size) :
    trace.keys = trace.batches.flatten ++ trace.waiting := by
  obtain ⟨rest, same⟩ := proper.batches_inOrder
  simp [waiting, ← same]

/-- Keys no longer wait once they are fetched. -/
theorem waiting_fetch (proper : trace.Proper size) {batch rest : List String}
    (waits : trace.waiting = batch ++ rest) (answer : Except StoreError (List (Option String))) :
    waiting (trace ++ [.fetch batch answer]) = rest := by
  -- The batch moves from the keys that wait to those that were fetched.
  rw [waiting, keys_append, batches_append, proper.keys_eq, waits, keys_fetch, batches_fetch,
    List.flatten_concat, ← List.append_assoc, List.append_nil, List.drop_left]

/-- The keys of a scan step wait behind those that did before. -/
theorem waiting_page (proper : trace.Proper size) (cursor : Cursor) (pattern : String)
    (count : Nat) (page : Cursor × List String) :
    waiting (trace ++ [.scan cursor pattern count (.ok page)]) = trace.waiting ++ page.2 := by
  -- No batch was fetched, so the new keys wait as well.
  rw [waiting, keys_append, batches_append, proper.keys_eq, keys_page, batches_scan,
    List.append_nil, List.append_assoc, List.drop_left]

/-- No batch is empty or larger than the batch size. -/
theorem batches_bounded (proper : trace.Proper size) :
    ∀ batch ∈ trace.batches, batch ≠ [] ∧ batch.length ≤ size.val := by
  induction proper with
  | start => simp [batches]
  | next proper fine due ih =>
    intro batch member
    rw [batches_append] at member
    rcases List.mem_append.mp member with old | new
    · exact ih batch old
    -- A full batch has the batch size, and the last batch is smaller but not empty.
    have positive := size.positive
    cases due with
    | scan answer => simp at new
    | full answer enough =>
      obtain rfl := List.mem_singleton.mp new
      have length := List.length_take_of_le enough
      exact ⟨List.ne_nil_of_length_pos (by omega), by omega⟩
    | rest answer ended few left =>
      obtain rfl := List.mem_singleton.mp new
      exact ⟨left, Nat.le_of_lt few⟩

/-- Nothing is due once the scan is over and no key waits. -/
theorem not_due_of_over {exchange : Exchange} (ended : trace.cursors.getLast? = some 0)
    (empty : trace.waiting = []) : ¬Due size trace exchange := by
  have positive := size.positive
  intro due
  -- The scan goes on from no zero cursor, and a batch needs keys that wait.
  cases due with
  | scan answer goesOn few => exact goesOn ended
  | full answer enough =>
    rw [empty, List.length_nil] at enough
    omega
  | rest answer ended few left => exact left empty

/-- Every batch is full until the scan is over and no key waits any more. -/
theorem batches_full_or_over (proper : trace.Proper size) :
    (∀ batch ∈ trace.batches, batch.length = size.val) ∨
      trace.cursors.getLast? = some 0 ∧ trace.waiting = [] := by
  induction proper with
  | start => exact Or.inl (by simp [batches])
  | next proper fine due ih =>
    rename_i before exchange
    -- Something is due, so the batches before it are full.
    have full := ih.resolve_right fun ⟨ended, empty⟩ => not_due_of_over ended empty due
    cases due with
    | scan answer goesOn few => exact Or.inl (by simpa using full)
    | full answer enough =>
      refine Or.inl fun batch member => ?_
      rw [batches_append, batches_fetch, List.mem_append, List.mem_singleton] at member
      rcases member with old | rfl
      · exact full batch old
      · exact List.length_take_of_le enough
    -- The last batch leaves no key waiting.
    | rest answer ended few left =>
      exact Or.inr ⟨by simpa using ended, proper.waiting_fetch (List.append_nil _).symm answer⟩

/-- Whenever something is due, every batch so far is full. -/
theorem batches_full (proper : trace.Proper size) {exchange : Exchange}
    (due : Due size trace exchange) : ∀ batch ∈ trace.batches, batch.length = size.val :=
  proper.batches_full_or_over.resolve_right fun ⟨ended, empty⟩ => not_due_of_over ended empty due

/-- Only the last batch may be shorter than the batch size. -/
theorem batches_dropLast_full (proper : trace.Proper size) :
    ∀ batch ∈ trace.batches.dropLast, batch.length = size.val := by
  cases proper with
  | start => simp [batches]
  | next proper fine due =>
    -- All batches before the last exchange are full, because it was due.
    have full := proper.batches_full due
    intro batch member
    cases due with
    | scan answer =>
      rw [batches_append, batches_scan, List.append_nil] at member
      exact full batch (List.dropLast_subset _ member)
    | full answer =>
      rw [batches_append, batches_fetch, List.dropLast_concat] at member
      exact full batch member
    | rest answer =>
      rw [batches_append, batches_fetch, List.dropLast_concat] at member
      exact full batch member

/-- Where the last cursor is not zero either, none is. -/
theorem ne_zero_of_goesOn {cursors : List Cursor} (front : ∀ cursor ∈ cursors.dropLast, cursor ≠ 0)
    (goesOn : cursors.getLast? ≠ some 0) : ∀ cursor ∈ cursors, cursor ≠ 0 := by
  -- The last cursor is none of those in front of it, and it is not zero either.
  rcases List.eq_nil_or_concat cursors with rfl | ⟨before, last, rfl⟩
  · simp
  · rw [List.concat_eq_append, List.dropLast_concat] at front
    rw [List.concat_eq_append, List.getLast?_concat] at goesOn
    intro cursor member
    rw [List.concat_eq_append, List.mem_append, List.mem_singleton] at member
    rcases member with old | rfl
    · exact front cursor old
    · exact fun zero => goesOn (congrArg some zero)

/-- No cursor but the last one is zero. -/
theorem cursors_dropLast_ne_zero (proper : trace.Proper size) :
    ∀ cursor ∈ trace.cursors.dropLast, cursor ≠ 0 := by
  induction proper with
  | start => simp [cursors]
  | next proper fine due ih =>
    rename_i before exchange
    cases due with
    -- Only a scan step adds a cursor, and it was due because the last one was not zero.
    | scan answer goesOn few =>
      cases answer with
      | error error => simpa using ih
      | ok page =>
        rw [cursors_append, cursors_page, List.dropLast_concat]
        exact ne_zero_of_goesOn ih goesOn
    | full answer enough => simpa using ih
    | rest answer ended few left => simpa using ih

/-- A scan that went on from all cursors but the last goes on from the last one now. -/
theorem scanFrom_onwards (size : BatchSize) (cursors : List Cursor) :
    (0 :: cursors).dropLast.map (scanFrom size) ++ [scanFrom size (cursors.getLast?.getD 0)] =
      (0 :: cursors).map (scanFrom size) := by
  -- The last of zero and the cursors is the one that the scan goes on from.
  have nonempty : 0 :: cursors ≠ [] := by simp
  have last := List.getLast?_eq_some_getLast nonempty
  rw [List.getLast?_cons, Option.some.injEq] at last
  rw [last, ← List.map_singleton, ← List.map_append, List.dropLast_concat_getLast]

/-- The scan steps of a fine trace start at zero and go on from each cursor but the last. -/
theorem scans_of_fine (proper : trace.Proper size) (fine : trace.Fine) :
    trace.scans = (0 :: trace.cursors).dropLast.map (scanFrom size) := by
  induction proper with
  | start => rfl
  | next proper fineBefore due ih =>
    rename_i before exchange
    have ih := ih fineBefore
    cases due with
    | scan answer goesOn few =>
      cases answer with
      | error error =>
        -- A failed scan step is in no fine trace.
        have good := fine _ (List.mem_append_right before List.mem_cons_self)
        cases good
      | ok page =>
        rw [scans_append, scans_scan, cursors_append, cursors_page, ih, ← List.cons_append,
          List.dropLast_concat]
        exact scanFrom_onwards size before.cursors
    | full answer enough => simpa using ih
    | rest answer ended few left => simpa using ih

/-- The scan steps of a proper trace start at zero and go on from each cursor. -/
theorem scans_onward (proper : trace.Proper size) :
    trace.scans <+: (0 :: trace.cursors).map (scanFrom size) := by
  cases proper with
  | start => exact List.nil_prefix
  | next proper fine due =>
    rename_i before exchange
    -- The exchanges before the last one are fine, so their scan steps are all accounted for.
    have scans := proper.scans_of_fine fine
    cases due with
    | scan answer goesOn few =>
      rw [scans_append, scans, cursors_append, ← List.cons_append, List.map_append,
        ← scanFrom_onwards]
      exact List.prefix_append _ _
    | full answer enough =>
      simpa [scans] using (List.dropLast_prefix (0 :: before.cursors)).map (scanFrom size)
    | rest answer ended few left =>
      simpa [scans] using (List.dropLast_prefix (0 :: before.cursors)).map (scanFrom size)

/-- Whatever stands before an exchange of a proper trace is proper and fine, and makes it due. -/
theorem split {before after : Trace} {exchange : Exchange}
    (proper : Proper size (before ++ exchange :: after)) :
    Proper size before ∧ before.Fine ∧ Due size before exchange := by
  -- The induction takes exchanges off the end until the one asked for is last.
  generalize same : before ++ exchange :: after = trace at proper
  induction proper generalizing after with
  | start => simp at same
  | next proper fine due ih =>
    rcases List.eq_nil_or_concat after with rfl | ⟨front, last, rfl⟩
    · obtain ⟨rfl, alone⟩ := List.append_inj' same rfl
      obtain rfl := (List.cons.inj alone).1
      exact ⟨proper, fine, due⟩
    · rw [List.concat_eq_append, ← List.cons_append, ← List.append_assoc] at same
      exact ih (List.append_inj' same rfl).1

/-- Whatever is left of a proper trace when its end is cut off is proper. -/
theorem of_cut (proper : trace.Proper size) {before : Trace} (cut : before <+: trace) :
    before.Proper size := by
  obtain ⟨after, rfl⟩ := cut
  -- Nothing was cut off, or what is left stands before an exchange that was due.
  cases after with
  | nil => rwa [List.append_nil] at proper
  | cons exchange after => exact proper.split.1

/-- A failed exchange is the last one of a proper trace. -/
theorem failure_last (proper : trace.Proper size) {before after : Trace} {exchange : Exchange}
    {error : StoreError} (same : trace = before ++ exchange :: after)
    (failing : exchange.failure? = some error) : after = [] := by
  cases after with
  | nil => rfl
  | cons next after =>
    -- What stands before the next exchange is fine, so nothing in it failed.
    rw [← List.singleton_append, ← List.append_assoc] at same
    obtain ⟨_, fine, _⟩ := (same ▸ proper).split
    exact absurd failing (fine.not_failing (by simp) error)

end Proper

end Trace

end SyncStore
