import SyncStore.CommandLine.Command
import SyncStore.Proofs.Remote.Twins
import SyncStore.Proofs.Store.Run
import SyncStore.Remote.Service

/-! A command over two connections closes them in turn, until one of them fails to close. -/

namespace SyncStore

variable {σ α : Type}

/-- What is asked of a connection: a command, or that it be closed. -/
inductive ClientCall where
  | command (command : ServiceCommand)
  | close

/-- What was asked of connections, and of which, in order. -/
abbrev ClientLog := List (Side × ClientCall)

/-- Commands that all go over the connection of one side. -/
def ClientLog.commands (side : Side) (commands : List ServiceCommand) : ClientLog :=
  commands.map fun command => (side, .command command)

/-- A call is put last into a log, whatever it answers. -/
def loggedCall (side : Side) (call : ClientCall) (made : σ → Outcome σ α)
    (state : σ × ClientLog) : Outcome (σ × ClientLog) α :=
  ((made state.1).1, (made state.1).2, state.2 ++ [(side, call)])

/-- A client beside a log of all its calls, which are made as before. -/
def Client.logged (side : Side) (client : Client σ) : Client (σ × ClientLog) where
  get key := loggedCall side (.command (.get key)) (client.get key)
  set key raw := loggedCall side (.command (.set key raw)) (client.set key raw)
  getMany keys := loggedCall side (.command (.getMany keys)) (client.getMany keys)
  setMany pairs := loggedCall side (.command (.setMany pairs)) (client.setMany pairs)
  scan cursor pattern count :=
    loggedCall side (.command (.scan cursor pattern count)) (client.scan cursor pattern count)
  ping := loggedCall side (.command .ping) client.ping
  close := loggedCall side .close client.close
  stepsLeft state := client.stepsLeft state.1

/-- An outcome beside a log is the plain one, and the log has grown by commands of one side. -/
def Logged (side : Side) (log : ClientLog) (plain : Outcome σ α)
    (logged : Outcome (σ × ClientLog) α) : Prop :=
  ∃ commands, logged = (plain.1, plain.2, log ++ .commands side commands)

/-- An outcome without any call leaves the log as it is. -/
theorem Logged.none {side : Side} {log : ClientLog} (plain : Outcome σ α) :
    Logged side log plain (plain.1, plain.2, log) :=
  ⟨[], by simp [ClientLog.commands]⟩

/-- An outcome after some commands counts those and its own. -/
theorem Logged.after {side : Side} {log : ClientLog} (first : List ServiceCommand)
    {plain : Outcome σ α} {logged : Outcome (σ × ClientLog) α}
    (later : Logged side (log ++ .commands side first) plain logged) :
    Logged side log plain logged := by
  obtain ⟨commands, same⟩ := later
  refine ⟨first ++ commands, ?_⟩
  rw [same]
  simp [ClientLog.commands]

namespace Remote

variable (client : Client σ) (side : Side)

/-- A batch is fetched with one command. -/
theorem fetch_logged (batch : List String) (data : Data) (state : σ) (log : ClientLog) :
    Logged side log (fetch client batch data state)
      (fetch (client.logged side) batch data (state, log)) := by
  refine ⟨[.getMany batch], ?_⟩
  -- Whatever is answered, the command has been asked by then.
  unfold fetch
  simp only [Client.logged, loggedCall]
  rcases client.getMany batch state with ⟨error | slots, after⟩
  · rfl
  · dsimp only
    split <;> rfl

/-- Keys are taken into batches with a command for each full one. -/
theorem takeKeys_logged (size : Nat) (keys pending : List String) (data : Data) (state : σ)
    (log : ClientLog) :
    Logged side log (takeKeys client size keys pending data state)
      (takeKeys (client.logged side) size keys pending data (state, log)) := by
  -- The log of a fetched batch is the one that the next keys are taken with.
  induction keys generalizing pending data state log with
  | nil => exact Logged.none (.ok (pending, data), state)
  | cons key rest ih =>
    rw [takeKeys, takeKeys]
    -- A full batch is fetched, and otherwise the key waits with the others.
    split
    · obtain ⟨first, fetched⟩ := fetch_logged client side (pending ++ [key]) data state log
      rw [fetched]
      rcases fetch client (pending ++ [key]) data state with ⟨error | fresh, after⟩
      · exact ⟨first, rfl⟩
      · exact .after first (ih [] fresh after _)
    · exact ih (pending ++ [key]) data state log

/-- A scan goes on with a command for each step and for each batch. -/
theorem scanFrom_logged (size steps : Nat) (cursor : Cursor) (pending : List String)
    (data : Data) (state : σ) (log : ClientLog) :
    Logged side log (scanFrom client size steps cursor pending data state)
      (scanFrom (client.logged side) size steps cursor pending data (state, log)) := by
  -- The induction is on the steps that are left, and every step goes on with a longer log.
  induction steps generalizing cursor pending data state log with
  | zero => exact Logged.none (.error (.remote "the scan does not end"), state)
  | succ steps ih =>
    have scanned : (client.logged side).scan cursor everyKey size (state, log) =
        ((client.scan cursor everyKey size state).1, (client.scan cursor everyKey size state).2,
          log ++ .commands side [.scan cursor everyKey size]) := rfl
    rw [scanFrom, scanFrom, scanned]
    rcases client.scan cursor everyKey size state with ⟨error | ⟨next, keys⟩, after⟩
    · exact ⟨[.scan cursor everyKey size], rfl⟩
    · refine Logged.after [.scan cursor everyKey size] ?_
      dsimp only
      obtain ⟨fetches, taken⟩ := takeKeys_logged client side size keys pending data after
        (log ++ .commands side [.scan cursor everyKey size])
      rw [taken]
      rcases takeKeys client size keys pending data after with ⟨error | ⟨waiting, loaded⟩, kept⟩
      · exact ⟨fetches, rfl⟩
      · -- The scan goes on, or ends with nothing pending, or with one more batch.
        refine Logged.after fetches ?_
        dsimp only
        split
        · exact ih next waiting loaded kept _
        · split
          · exact Logged.none (.ok loaded, kept)
          · exact fetch_logged client side waiting loaded kept _

/-- The whole service is read with commands of one side. -/
theorem readAll_logged (size : BatchSize) (state : σ) (log : ClientLog) :
    Logged side log (readAll client size state) (readAll (client.logged side) size (state, log)) :=
  scanFrom_logged client side size.val _ 0 [] [] state log

/-- All entries are written with one command, and no entries with none. -/
theorem writeAll_logged (data : Data) (state : σ) (log : ClientLog) :
    Logged side log (writeAll client data state)
      (writeAll (client.logged side) data (state, log)) := by
  unfold writeAll
  split
  · exact Logged.none (.ok (), state)
  · exact ⟨[.setMany _], rfl⟩

/-- A key is read with one command. -/
theorem readOne_logged (key : String) (state : σ) (log : ClientLog) :
    Logged side log (readOne client key state)
      (readOne (client.logged side) key (state, log)) :=
  ⟨[.get key], rfl⟩

/-- A value is written with one command. -/
theorem writeOne_logged (key : String) (value : Value) (state : σ) (log : ClientLog) :
    Logged side log (writeOne client key value state)
      (writeOne (client.logged side) key value (state, log)) :=
  ⟨[.set key (encodeValue value)], rfl⟩

end Remote

namespace SyncedStore

/-- A store over the same outside beside a log of calls. -/
def besides (store : SyncedStore σ) (log : ClientLog) : SyncedStore (σ × ClientLog) :=
  ⟨store.cache, (store.outside, log), store.writesByDefault, store.fullSyncOnly⟩

end SyncedStore

/-- The connections of both sides beside one log of their calls. -/
def loggedClients (clients : Side → Client σ) (side : Side) : Client (σ × ClientLog) :=
  (clients side).logged side

/-- An outcome of a store beside a log is the plain one, and the log has grown by commands. -/
def StoreLogged {β : Type} (side : Side) (log : ClientLog) (plain : β × SyncedStore σ)
    (logged : β × SyncedStore (σ × ClientLog)) : Prop :=
  ∃ commands, logged = (plain.1, plain.2.besides (log ++ .commands side commands))

/-- An outcome without any call leaves the log as it is. -/
theorem StoreLogged.none {β : Type} {side : Side} {log : ClientLog} (plain : β × SyncedStore σ) :
    StoreLogged side log plain (plain.1, plain.2.besides log) :=
  ⟨[], by simp [ClientLog.commands]⟩

/-- An answer that is told in other words comes with the same commands. -/
theorem StoreLogged.map {β γ : Type} {side : Side} {log : ClientLog}
    {plain : β × SyncedStore σ} {logged : β × SyncedStore (σ × ClientLog)}
    (same : StoreLogged side log plain logged) (tell : β → γ) :
    StoreLogged side log (tell plain.1, plain.2) (tell logged.1, logged.2) := by
  obtain ⟨commands, rfl⟩ := same
  exact ⟨commands, rfl⟩

namespace SyncedStore

variable (clients : Side → Client σ) (size : BatchSize) (side : Side) (store : SyncedStore σ)
  (log : ClientLog)

/-- All data is written with commands of one side. -/
theorem writeData_logged :
    StoreLogged side log (store.writeData (Remote.destination clients size) side)
      ((store.besides log).writeData (Remote.destination (loggedClients clients) size) side) := by
  obtain ⟨commands, wrote⟩ :=
    Remote.writeAll_logged (clients side) side store.cache store.outside log
  have wrote : Remote.writeAll (loggedClients clients side) (store.besides log).cache
      (store.besides log).outside = _ := wrote
  refine ⟨commands, ?_⟩
  rw [writeData_eq, writeData_eq, Remote.destination_writeAll, Remote.destination_writeAll, wrote]
  rfl

/-- All data is read with commands of one side, whether or not it replaces what is in memory. -/
theorem readData_logged :
    StoreLogged side log (store.readData (Remote.destination clients size) side)
      ((store.besides log).readData (Remote.destination (loggedClients clients) size) side) := by
  obtain ⟨commands, read⟩ := Remote.readAll_logged (clients side) side size store.outside log
  have read : Remote.readAll (loggedClients clients side) size (store.besides log).outside = _ :=
    read
  refine ⟨commands, ?_⟩
  rw [readData_eq, readData_eq, Remote.destination_readAll, Remote.destination_readAll, read]
  rcases Remote.readAll (clients side) size store.outside with ⟨error | data, after⟩ <;> rfl

/-- A key is read through with a command of one side, or from memory without any. -/
theorem get_logged (key : String) (fallback : Fallback) :
    StoreLogged side log (store.get (Remote.destination clients size) side key fallback)
      ((store.besides log).get (Remote.destination (loggedClients clients) size) side key
        fallback) := by
  -- The log is no part of the mode, so both stores take the same way.
  by_cases mode : store.fullSyncOnly = true
  · have same : (store.besides log).fullSyncOnly = true := mode
    rw [get_of_restricted mode, get_of_restricted same]
    exact StoreLogged.none (Except.ok (store.cache.get? key), store)
  · have single : store.fullSyncOnly = false := Bool.eq_false_iff.mpr mode
    have same : (store.besides log).fullSyncOnly = false := single
    -- Both stores are given the same answer, and do the same with it.
    obtain ⟨commands, read⟩ := Remote.readOne_logged (clients side) side key store.outside log
    have logged : (Remote.destination (loggedClients clients) size).readOne side key
        (store.besides log).outside = _ :=
      (congrFun (congrFun (Remote.destination_readOne (loggedClients clients) size side) key)
        (store.outside, log)).trans read
    rw [← Remote.destination_readOne clients size side] at logged
    refine ⟨commands, ?_⟩
    rcases answered : ((Remote.destination clients size).readOne side key store.outside).1 with
      error | _ | value
    · have told := (congrArg Prod.fst logged).trans answered
      rw [get_of_failed single answered, get_of_failed same told, logged]
      rfl
    · have told := (congrArg Prod.fst logged).trans answered
      rw [get_of_absent single answered, get_of_absent same told, logged]
      rfl
    · have told := (congrArg Prod.fst logged).trans answered
      rw [get_of_found single answered, get_of_found same told, logged]
      rfl

/-- A value is set with commands of one side, or in memory alone without any. -/
theorem set_logged (key : String) (value : Value) (policy : WritePolicy) :
    StoreLogged side log (store.set (Remote.destination clients size) side key value policy)
      ((store.besides log).set (Remote.destination (loggedClients clients) size) side key value
        policy) := by
  -- Neither the policy nor the mode looks at the log.
  by_cases writes : policy.resolve store.writesByDefault = true
  · have sameWrites : policy.resolve (store.besides log).writesByDefault = true := writes
    by_cases mode : store.fullSyncOnly = true
    · have same : (store.besides log).fullSyncOnly = true := mode
      rw [set_of_restricted mode writes, set_of_restricted same sameWrites]
      exact writeData_logged clients size side
        { store with cache := store.cache.insert key value } log
    · have single : store.fullSyncOnly = false := Bool.eq_false_iff.mpr mode
      have same : (store.besides log).fullSyncOnly = false := single
      obtain ⟨commands, wrote⟩ :=
        Remote.writeOne_logged (clients side) side key value store.outside log
      have wrote : Remote.writeOne (loggedClients clients side) key value
          (store.besides log).outside = _ := wrote
      refine ⟨commands, ?_⟩
      rw [set_of_single single writes, set_of_single same sameWrites,
        Remote.destination_writeOne, Remote.destination_writeOne, wrote]
      rfl
  · have unwritten : policy.resolve store.writesByDefault = false := Bool.eq_false_iff.mpr writes
    have same : policy.resolve (store.besides log).writesByDefault = false := unwritten
    rw [set_of_unwritten unwritten, set_of_unwritten same]
    exact StoreLogged.none (Except.ok (), { store with cache := store.cache.insert key value })

end SyncedStore

/-- The report of a command, with another ending when its connections do not close. -/
def Report.closing (report : Report) : Except StoreError Unit → Report
  | .ok () => report
  | .error error => { report with ending := .error (.store error) }

namespace Command

variable (clients : Side → Client σ) (size : BatchSize) (store : SyncedStore σ) (log : ClientLog)

/-- A command is carried out with commands of the suspending side. -/
theorem execute_logged (command : Command) :
    StoreLogged .async log (command.execute (Remote.destination clients size) store)
      (command.execute (Remote.destination (loggedClients clients) size) (store.besides log)) := by
  cases command with
  | get key default fallback =>
    exact (SyncedStore.get_logged clients size .async store log key fallback).map
      (Report.ofAnswer (reportFound key default))
  | set key raw policy =>
    exact (SyncedStore.set_logged clients size .async store log key (decodeValue raw) policy).map
      (Report.ofAnswer fun _ => .silent)
  | dump =>
    exact (SyncedStore.readData_logged clients size .async store log).map
      (Report.ofAnswer fun data => .value (.object data))
  | importObject raw =>
    rw [execute, execute]
    -- Only an object is imported, and everything else is refused before anything is asked.
    cases Json.read raw with
    | error error => exact StoreLogged.none (Report.failed (.notJson error), store)
    | ok found =>
      cases found with
      | object overrides =>
        exact (SyncedStore.writeData_logged clients size .async
          { store with cache := store.cache.merge overrides } log).map
            (Report.ofAnswer fun _ => .silent)
      | _ => exact StoreLogged.none (Report.failed .notObject, store)
  | ping => exact StoreLogged.none (Report.failed .needsService, store)
  | harden mode => exact StoreLogged.none (Report.failed .needsFile, store)

/-- A command over a service asks commands of the suspending side, and no close. -/
theorem overService_logged (command : Command) :
    StoreLogged .async log (command.overService clients size store)
      (command.overService (loggedClients clients) size (store.besides log)) := by
  -- A ping is the one command that goes around the store.
  have executed := execute_logged clients size store log command
  cases command with
  | ping => exact ⟨[.ping], rfl⟩
  | _ => exact executed

/-- A connection that does not close decides, and the other one is not asked. -/
theorem closeAll_of_failed {state : σ} {error : StoreError}
    (failed : ((clients .sync).close state).1 = .error error) :
    closeAll clients state = (.error error, ((clients .sync).close state).2) := by
  unfold closeAll
  rcases called : (clients .sync).close state with ⟨_ | _, after⟩
  all_goals
    rw [called] at failed
    cases failed
  rfl

/-- Once the blocking connection has closed, the suspending one decides. -/
theorem closeAll_of_closed {state : σ} (closed : ((clients .sync).close state).1 = .ok ()) :
    closeAll clients state = (clients .async).close ((clients .sync).close state).2 := by
  unfold closeAll
  rcases called : (clients .sync).close state with ⟨_ | _, after⟩
  · rw [called] at closed
    cases closed
  · rfl

/-- The second connection is asked to close only when the first one has closed. -/
theorem closeAll_logged (state : σ) :
    closeAll (loggedClients clients) (state, log) =
      ((closeAll clients state).1, (closeAll clients state).2,
        log ++ (.sync, .close) ::
          if ((clients .sync).close state).1.isOk then [(.async, .close)] else []) := by
  unfold closeAll
  simp only [loggedClients, Client.logged, loggedCall]
  rcases (clients .sync).close state with ⟨error | ⟨⟩, after⟩
  · rfl
  · simp [Except.isOk, Except.toBool]

/-- A command is reported together with how its connections closed. -/
theorem onService_eq (command : Command) :
    command.onService clients size store =
      let plain := command.overService clients size store
      let closed := closeAll clients plain.2.outside
      (plain.1.closing closed.1, { plain.2 with outside := closed.2 }) := by
  unfold onService
  rcases command.overService clients size store with ⟨report, after⟩
  dsimp only
  rcases closeAll clients after.outside with ⟨_ | _, left⟩ <;> rfl

/--
The connections of a command are closed in turn after everything else that it asks of them.

Whatever fails meanwhile, the blocking connection is asked to close exactly once, and the suspending
one exactly once when the blocking one has closed. Keeping a log changes nothing. The command ends
as it would by itself when both close, and with the failure of the first one that does not.
-/
theorem connections_close_in_turn (command : Command) :
    let plain := command.overService clients size store
    let first := (clients .sync).close plain.2.outside
    let second := (clients .async).close first.2
    let ended := command.onService clients size store
    (∃ commands,
      command.onService (loggedClients clients) size (store.besides log) =
        (ended.1, ended.2.besides (log ++ .commands .async commands ++
          (.sync, .close) :: if first.1.isOk then [(.async, .close)] else []))) ∧
    (first.1 = .ok () → second.1 = .ok () → ended.1 = plain.1) ∧
    (∀ error, first.1 = .error error →
      ended.1 = { plain.1 with ending := .error (.store error) }) ∧
    ∀ error, first.1 = .ok () → second.1 = .error error →
      ended.1 = { plain.1 with ending := .error (.store error) } := by
  intro plain first second ended
  have reported : ended.1 = plain.1.closing (closeAll clients plain.2.outside).1 :=
    congrArg Prod.fst (onService_eq clients size store command)
  refine ⟨?_, fun closed alsoClosed => ?_, fun error failed => ?_, fun error closed failed => ?_⟩
  · -- The closes are logged behind the commands, and no command closes anything.
    obtain ⟨commands, asked⟩ := overService_logged clients size store log command
    refine ⟨commands, ?_⟩
    have closed := closeAll_logged clients (log ++ .commands .async commands) plain.2.outside
    have result : ended = (plain.1.closing (closeAll clients plain.2.outside).1,
        { plain.2 with outside := (closeAll clients plain.2.outside).2 }) :=
      onService_eq clients size store command
    rw [onService_eq, asked, result]
    simp only [SyncedStore.besides]
    rw [closed]
  · rw [reported, closeAll_of_closed clients closed]
    exact congrArg plain.1.closing alsoClosed
  · rw [reported, closeAll_of_failed clients failed]
    rfl
  · rw [reported, closeAll_of_closed clients closed]
    exact congrArg plain.1.closing failed

/-- Connections to a service without keys, some of which fail to close. -/
def stubborn (fails : Side → Bool) (side : Side) : Client Unit where
  get _ state := (.ok none, state)
  set _ _ state := (.ok (), state)
  getMany keys state := (.ok (keys.map fun _ => none), state)
  setMany _ state := (.ok (), state)
  scan _ _ _ state := (.ok (0, []), state)
  ping state := (.ok "PONG", state)
  close state := (if fails side then .error (.remote "busy") else .ok (), state)
  stepsLeft _ := 0

/-- A ping ends with its own report when both connections close, and fails when the last does
not. -/
theorem connections_close_in_turn_after_ping :
    let store : SyncedStore Unit := ⟨[], (), true, false⟩
    (ping.onService (stubborn fun _ => false) .default store).1 = .line "PONG" ∧
      (ping.onService (stubborn (· = .async)) .default store).1 =
        { Report.line "PONG" with ending := .error (.store (.remote "busy")) } := by
  intro store
  obtain ⟨-, own, -, -⟩ :=
    connections_close_in_turn (stubborn fun _ => false) .default store [] .ping
  obtain ⟨-, -, -, failed⟩ :=
    connections_close_in_turn (stubborn (· = .async)) .default store [] .ping
  exact ⟨own rfl rfl, failed _ rfl rfl⟩

/-- When the blocking connection fails to close, the suspending one is never asked to. -/
theorem failed_close_leaves_connection_open :
    let store : SyncedStore Unit := ⟨[], (), true, false⟩
    let ended := ping.onService (loggedClients (stubborn (· = .sync))) .default (store.besides [])
    ended.2.outside.2 = [(.async, .command .ping), (.sync, .close)] ∧
      (.async, .close) ∉ ended.2.outside.2 := by
  intro store ended
  have log : ended.2.outside.2 = [(.async, .command .ping), (.sync, .close)] := rfl
  refine ⟨log, ?_⟩
  rw [log]
  simp

end Command

end SyncStore
