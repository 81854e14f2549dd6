import SyncStore.Proofs.Files.Twins
import SyncStore.Proofs.Remote.Redis
import SyncStore.Proofs.Store.Sides
import SyncStore.Store.Recorder

/-! The two connections of a service, and the two sides of every other destination, work alike. -/

namespace SyncStore

variable {σ : Type}

/-- Two clients are twins when each call of both on alike states has alike outcomes. -/
structure Client.Twins (client twin : Client σ) (alike : σ → σ → Prop) : Prop where
  get : ∀ key one other, alike one other →
    AlikeOutcomes alike (client.get key one) (twin.get key other)
  set : ∀ key raw one other, alike one other →
    AlikeOutcomes alike (client.set key raw one) (twin.set key raw other)
  getMany : ∀ keys one other, alike one other →
    AlikeOutcomes alike (client.getMany keys one) (twin.getMany keys other)
  setMany : ∀ pairs one other, alike one other →
    AlikeOutcomes alike (client.setMany pairs one) (twin.setMany pairs other)
  scan : ∀ cursor pattern count one other, alike one other →
    AlikeOutcomes alike (client.scan cursor pattern count one)
      (twin.scan cursor pattern count other)
  stepsLeft : ∀ one other, alike one other → client.stepsLeft one = twin.stepsLeft other

namespace Remote

section Twins

variable {client twin : Client σ} {alike : σ → σ → Prop} (twins : client.Twins twin alike)
include twins

/-- A batch is fetched alike by twins. -/
theorem fetch_alike (batch : List String) (data : Data) {one other : σ}
    (same : alike one other) :
    AlikeOutcomes alike (fetch client batch data one) (fetch twin batch data other) := by
  have called := twins.getMany batch one other same
  unfold fetch
  cases first : client.getMany batch one with
  | mk answer after =>
    cases second : twin.getMany batch other with
    | mk twinned left =>
      rw [first, second] at called
      obtain ⟨rfl, stillSame⟩ : answer = twinned ∧ alike after left := called
      -- The one answer is refused or collected on both sides.
      cases answer with
      | error error => exact ⟨rfl, stillSame⟩
      | ok slots =>
        dsimp only
        split <;> exact ⟨rfl, stillSame⟩

/-- Keys are taken into batches alike by twins. -/
theorem takeKeys_alike (size : Nat) (keys pending : List String) (data : Data) {one other : σ}
    (same : alike one other) :
    AlikeOutcomes alike (takeKeys client size keys pending data one)
      (takeKeys twin size keys pending data other) := by
  -- The pending keys are the same on both sides, and so the same batch comes to be full.
  induction keys generalizing pending data one other with
  | nil => exact ⟨rfl, same⟩
  | cons key rest ih =>
    rw [takeKeys, takeKeys]
    split
    · have fetched := fetch_alike twins (pending ++ [key]) data same
      cases first : fetch client (pending ++ [key]) data one with
      | mk answer after =>
        cases second : fetch twin (pending ++ [key]) data other with
        | mk twinned left =>
          rw [first, second] at fetched
          obtain ⟨rfl, stillSame⟩ : answer = twinned ∧ alike after left := fetched
          cases answer with
          | error error => exact ⟨rfl, stillSame⟩
          | ok fresh => exact ih [] fresh stillSame
    · exact ih (pending ++ [key]) data same

/-- A scan goes on alike from every cursor. -/
theorem scanFrom_alike (size steps : Nat) (cursor : Cursor) (pending : List String) (data : Data)
    {one other : σ} (same : alike one other) :
    AlikeOutcomes alike (scanFrom client size steps cursor pending data one)
      (scanFrom twin size steps cursor pending data other) := by
  induction steps generalizing cursor pending data one other with
  | zero => exact ⟨rfl, same⟩
  | succ steps ih =>
    have scanned := twins.scan cursor everyKey size one other same
    rw [scanFrom, scanFrom]
    cases first : client.scan cursor everyKey size one with
    | mk answer after =>
      cases second : twin.scan cursor everyKey size other with
      | mk twinned left =>
        rw [first, second] at scanned
        obtain ⟨rfl, pageSame⟩ : answer = twinned ∧ alike after left := scanned
        cases answer with
        | error error => exact ⟨rfl, pageSame⟩
        | ok page =>
          -- Both sides take the keys of the same page.
          obtain ⟨next, keys⟩ := page
          dsimp only
          have taken := takeKeys_alike twins size keys pending data pageSame
          cases third : takeKeys client size keys pending data after with
          | mk answer kept =>
            cases fourth : takeKeys twin size keys pending data left with
            | mk twinned held =>
              rw [third, fourth] at taken
              obtain ⟨rfl, takenSame⟩ : answer = twinned ∧ alike kept held := taken
              cases answer with
              | error error => exact ⟨rfl, takenSame⟩
              | ok filled =>
                obtain ⟨waiting, loaded⟩ := filled
                dsimp only
                -- The scan goes on, or ends with nothing pending, or with one more batch.
                split
                · exact ih next waiting loaded takenSame
                · split
                  · exact ⟨rfl, takenSame⟩
                  · exact fetch_alike twins waiting loaded takenSame

/-- The whole service is read alike by twins, which allow the same number of steps. -/
theorem readAll_alike (size : BatchSize) {one other : σ} (same : alike one other) :
    AlikeOutcomes alike (readAll client size one) (readAll twin size other) := by
  rw [readAll, readAll, twins.stepsLeft one other same]
  exact scanFrom_alike twins size.val _ 0 [] [] same

/-- All entries are written alike by twins. -/
theorem writeAll_alike (data : Data) {one other : σ} (same : alike one other) :
    AlikeOutcomes alike (writeAll client data one) (writeAll twin data other) := by
  unfold writeAll
  split
  · exact ⟨rfl, same⟩
  · exact twins.setMany _ one other same

end Twins

/-- The sides of a remote destination agree when any two of its clients are twins. -/
theorem sidesAgree {clients : Side → Client σ} {alike : σ → σ → Prop}
    (twins : ∀ side twin, (clients side).Twins (clients twin) alike) (size : BatchSize) :
    (destination clients size).SidesAgree alike where
  readAll side twin _ _ same := by
    rw [destination_readAll, destination_readAll]
    exact readAll_alike (twins side twin) size same
  writeAll side twin data _ _ same := by
    rw [destination_writeAll, destination_writeAll]
    exact writeAll_alike (twins side twin) data same
  readOne side twin key one other same := by
    rw [destination_readOne, destination_readOne]
    exact ((twins side twin).get key one other same).map (·.map decodeValue)
  writeOne side twin key value one other same := by
    rw [destination_writeOne, destination_writeOne]
    exact (twins side twin).set key (encodeValue value) one other same

end Remote

namespace Service

/--
Two services with both connections open differ at most in the sides that sent their commands.

- `commands`: their logs have the same commands with the same arguments, in the same order
-/
inductive SameButSides : Service → Service → Prop where
  | intro {service : Service} {calls : List (Side × ServiceCommand)}
    (opened : ∀ side, service.isOpen side = true)
    (commands : service.calls.map Prod.snd = calls.map Prod.snd) :
    SameButSides service (service.withCalls calls)

/-- A service is the same as itself. -/
theorem SameButSides.refl {service : Service} (opened : ∀ side, service.isOpen side = true) :
    service.SameButSides service :=
  .intro opened rfl

variable {one other : Service} {α : Type}

/-- A command that both sides send is put last into both logs. -/
theorem SameButSides.log (same : one.SameButSides other) (side twin : Side)
    (command : ServiceCommand) :
    (one.log side command).SameButSides (other.log twin command) := by
  cases same with
  | @intro calls opened commands =>
    have logged : ((one.log side command).calls).map Prod.snd =
        (calls ++ [(twin, command)]).map Prod.snd := by
      simp [Service.log, commands]
    exact @SameButSides.intro (one.log side command) _ opened logged

/-- A command has alike outcomes from both sides when its answer does not look at the log. -/
theorem serve_alike {answer : Service → Outcome Service α}
    (answers : ∀ one other : Service, one.SameButSides other →
      AlikeOutcomes SameButSides (answer one) (answer other))
    (side twin : Side) (command : ServiceCommand) (same : one.SameButSides other) :
    AlikeOutcomes SameButSides (serve side command answer one)
      (serve twin command answer other) := by
  have logged := same.log side twin command
  have answered := answers _ _ logged
  cases same with
  | @intro calls opened commands =>
    have twinned : (one.withCalls calls).isOpen twin = true := opened twin
    have failing : (one.withCalls calls).failure = one.failure := rfl
    unfold serve
    -- Both connections are open, and the service fails on both sides or on none.
    simp only [opened side, twinned, failing, Bool.not_true, Bool.false_eq_true, ↓reduceIte]
    cases one.failure with
    | some error => exact ⟨rfl, logged⟩
    | none => exact answered

/-- A lookup of several keys answers alike services the same. -/
theorem SameButSides.lookup (same : one.SameButSides other) : one.lookup = other.lookup := by
  cases same with
  -- The log has no part in what is looked up.
  | intro opened commands => rfl

/-- A stored key leaves alike services alike. -/
theorem SameButSides.store (same : one.SameButSides other) (key raw : String) :
    (one.store key raw).SameButSides (other.store key raw) := by
  cases same with
  | intro opened commands => exact @SameButSides.intro (one.store key raw) _ opened commands

/-- Several stored keys do so as well. -/
theorem SameButSides.storeMany (same : one.SameButSides other) (pairs : List (String × String)) :
    (one.storeMany pairs).SameButSides (other.storeMany pairs) := by
  induction pairs generalizing one other with
  | nil => exact same
  | cons pair rest ih => exact ih (same.store pair.1 pair.2)

/-- A scan step answers alike services the same, and takes the same answer from their scripts. -/
theorem SameButSides.scanStep (same : one.SameButSides other) (cursor : Cursor)
    (pattern : String) (count : Nat) :
    (one.scanStep cursor pattern count).1 = (other.scanStep cursor pattern count).1 ∧
      (one.scanStep cursor pattern count).2.SameButSides
        (other.scanStep cursor pattern count).2 := by
  cases same with
  | @intro calls opened commands =>
    unfold Service.scanStep
    rw [show (one.withCalls calls).script = one.script from rfl]
    rcases one.script with _ | _ | ⟨answer, rest⟩
    · exact ⟨rfl, .intro opened commands⟩
    · exact ⟨rfl, .intro opened commands⟩
    · -- The rest of the script stays behind on both sides.
      exact ⟨rfl, @SameButSides.intro { one with script := some rest } _ opened commands⟩

section Answers

variable (same : one.SameButSides other)
include same

/-- Alike services answer a lookup alike. -/
theorem SameButSides.lookup_alike (key : String) :
    AlikeOutcomes SameButSides (one.lookup key, one) (other.lookup key, other) :=
  ⟨congrFun same.lookup key, same⟩

/-- Alike services answer lookups of several keys alike, and cut or fill them up the same. -/
theorem SameButSides.slots_alike (keys : List String) :
    AlikeOutcomes SameButSides
      ((keys.mapM one.lookup).map (withSurplus one.surplus), one)
      ((keys.mapM other.lookup).map (withSurplus other.surplus), other) := by
  refine ⟨?_, same⟩
  rw [same.lookup]
  cases same with
  | intro opened commands => rfl

/-- Alike services store a key alike. -/
theorem SameButSides.store_alike (key raw : String) :
    AlikeOutcomes SameButSides ((.ok (), one.store key raw) : Outcome Service Unit)
      (.ok (), other.store key raw) :=
  ⟨rfl, same.store key raw⟩

/-- Alike services store several keys alike. -/
theorem SameButSides.storeMany_alike (pairs : List (String × String)) :
    AlikeOutcomes SameButSides ((.ok (), one.storeMany pairs) : Outcome Service Unit)
      (.ok (), other.storeMany pairs) :=
  ⟨rfl, same.storeMany pairs⟩

/-- Alike services answer a scan step alike. -/
theorem SameButSides.scan_alike (cursor : Cursor) (pattern : String) (count : Nat) :
    AlikeOutcomes SameButSides
      (.ok (one.scanStep cursor pattern count).1, (one.scanStep cursor pattern count).2)
      (.ok (other.scanStep cursor pattern count).1, (other.scanStep cursor pattern count).2) :=
  have stepped := same.scanStep cursor pattern count
  ⟨congrArg Except.ok stepped.1, stepped.2⟩

end Answers

/-- The connections of a service in memory are twins. -/
theorem client_twins (side twin : Side) : (client side).Twins (client twin) SameButSides where
  get key _ _ same := serve_alike (fun _ _ logged => logged.lookup_alike key) side twin _ same
  set key raw _ _ same :=
    serve_alike (fun _ _ logged => logged.store_alike key raw) side twin _ same
  getMany keys _ _ same := serve_alike (fun _ _ logged => logged.slots_alike keys) side twin _ same
  setMany pairs _ _ same :=
    serve_alike (fun _ _ logged => logged.storeMany_alike pairs) side twin _ same
  scan cursor pattern count _ _ same :=
    serve_alike (fun _ _ logged => logged.scan_alike cursor pattern count) side twin _ same
  stepsLeft _ _ same := by
    cases same with
    | intro opened commands => rfl

end Service

namespace Redis

variable {one other : Service}

/-- A command that is sent from both sides has alike outcomes when serving it has. -/
theorem sent_alike {α : Type} {answer : Service → Outcome Service α}
    (answers : ∀ one other : Service, one.SameButSides other →
      AlikeOutcomes Service.SameButSides (answer one) (answer other))
    (side twin : Side) (command : ServiceCommand) (same : one.SameButSides other) :
    AlikeOutcomes Service.SameButSides (sent side command answer one)
      (sent twin command answer other) := by
  have served := Service.serve_alike answers side twin command same
  cases same with
  | @intro calls opened commands =>
    have twinned : (one.withCalls calls).isOpen twin = true := opened twin
    -- Both connections are open, so both commands go out.
    unfold sent
    rw [if_pos (opened side), if_pos twinned]
    exact served

/-- The blocking and the managed connection to a Redis server are twins. -/
theorem client_twins (side twin : Side) :
    (client side).Twins (client twin) Service.SameButSides where
  get key _ _ same := by
    rw [client_get, client_get]
    exact sent_alike (fun _ _ logged => logged.lookup_alike key) side twin _ same
  set key raw _ _ same := by
    rw [client_set, client_set]
    exact sent_alike (fun _ _ logged => logged.store_alike key raw) side twin _ same
  getMany keys _ _ same := by
    rw [client_getMany, client_getMany]
    -- A batch without keys is answered without a command.
    split
    · exact ⟨rfl, same⟩
    · exact sent_alike (fun _ _ logged => logged.slots_alike keys) side twin _ same
  setMany pairs _ _ same := by
    rw [client_setMany, client_setMany]
    split
    · exact ⟨rfl, same⟩
    · exact sent_alike (fun _ _ logged => logged.storeMany_alike pairs) side twin _ same
  scan cursor pattern count _ _ same := by
    rw [client_scan, client_scan]
    exact sent_alike (fun _ _ logged => logged.scan_alike cursor pattern count) side twin _ same
  stepsLeft := by
    rw [client_stepsLeft, client_stepsLeft]
    exact (Service.client_twins side twin).stepsLeft

end Redis

/-- The sides of a recorder agree, because it makes no difference between them. -/
theorem Recorder.sidesAgree (perKey : Bool) : (destination perKey).SidesAgree Eq :=
  .of_eq (fun _ _ => rfl) (fun _ _ => rfl) (fun _ _ => rfl) fun _ _ => rfl

/-- The sides of a file agree, because each text reads and writes what the other one does. -/
theorem FileDestination.sidesAgree (file : FileDestination) : file.destination.SidesAgree Eq :=
  .of_eq (fun side twin => by rw [destination_readAll, destination_readAll])
    (fun side twin => by rw [destination_writeAll, destination_writeAll])
    (fun _ _ => rfl) fun _ _ => rfl

namespace SyncedStore

/--
It makes no difference which of the requests to a store come from which side.

Over a recorder and over a file every answer is the same, and so is the store after every event.
Over a service with both connections open this holds up to the sides in its log, which has the same
commands with the same arguments in the same order.
-/
theorem sides_make_no_difference :
    (∀ perKey (store : SyncedStore Recorder) events twins,
      List.Forall₂ (Event.Twins Eq) events twins →
        store.history (Recorder.destination perKey) events =
          store.history (Recorder.destination perKey) twins) ∧
    (∀ (file : FileDestination) (store : SyncedStore FileTree) events twins,
      List.Forall₂ (Event.Twins Eq) events twins →
        store.history file.destination events = store.history file.destination twins) ∧
    ∀ clients, clients = Service.client ∨ clients = Redis.client →
      ∀ size (store : SyncedStore Service) events twins,
        (∀ side, store.outside.isOpen side = true) →
        List.Forall₂ (Event.Twins Service.SameButSides) events twins →
          List.Forall₂ (Encounter.Alike Service.SameButSides)
            (store.history (Remote.destination clients size) events)
            (store.history (Remote.destination clients size) twins) := by
  refine ⟨fun perKey store events twins paired => ?_, fun file store events twins paired => ?_,
    fun clients either size store events twins opened paired => ?_⟩
  · exact eq_of_encounters_alike
      (history_alike (Recorder.sidesAgree perKey) (.refl store rfl) paired)
  · exact eq_of_encounters_alike (history_alike file.sidesAgree (.refl store rfl) paired)
  · -- The connections of either kind are twins, and a store starts out like itself.
    have twinned : ∀ side twin, (clients side).Twins (clients twin) Service.SameButSides := by
      rcases either with rfl | rfl
      · exact Service.client_twins
      · exact Redis.client_twins
    exact history_alike (Remote.sidesAgree twinned size) (.refl store (.refl opened)) paired

/-- A read in batches and a write after an outage are the same from the other side. -/
theorem sides_make_no_difference_around_outage :
    let destination := Remote.destination Service.client ⟨1, by decide, by decide⟩
    let service := { Service.holding [("a", "true"), ("b", "null")] [] none with
      script := some [(1, ["a"]), (0, ["b"])] }
    let store : SyncedStore Service := ⟨[], service, true, false⟩
    let breaks (service : Service) : Service := { service with failure := some (.remote "lost") }
    let recovers (service : Service) : Service := { service with failure := none }
    let events (side : Side) : List (Event Service) :=
      [.request side (.backend .readData), .change breaks,
        .request .sync (.backend (.get "a" .cached)), .change recovers,
        .request side (.backend (.set "b" (.bool false) .default))]
    List.Forall₂ (Encounter.Alike Service.SameButSides) (store.history destination (events .sync))
        (store.history destination (events .async)) ∧
      (store.live destination (events .async)).outside.contents.get? "b" =
        some (.text (encodeValue (.bool false))) := by
  intro destination service store breaks recovers events
  have opened : ∀ side, store.outside.isOpen side = true := fun _ => rfl
  -- The service breaks and recovers whoever sent the commands before.
  have breaking : ∀ one other : Service, one.SameButSides other →
      (breaks one).SameButSides (breaks other) := by
    rintro one _ ⟨opened, commands⟩
    exact @Service.SameButSides.intro (breaks one) _ opened commands
  have recovering : ∀ one other : Service, one.SameButSides other →
      (recovers one).SameButSides (recovers other) := by
    rintro one _ ⟨opened, commands⟩
    exact @Service.SameButSides.intro (recovers one) _ opened commands
  have paired : List.Forall₂ (Event.Twins Service.SameButSides) (events .sync) (events .async) :=
    .cons (.request ..) (.cons (.change breaking) (.cons (.request ..)
      (.cons (.change recovering) (.cons (.request ..) .nil))))
  exact ⟨sides_make_no_difference.2.2 Service.client (.inl rfl) _ store _ _ opened paired, rfl⟩

end SyncedStore

end SyncStore
