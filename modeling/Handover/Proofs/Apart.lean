import Handover.Proofs.Course
import Handover.Proofs.RegistryCourse

namespace Handover

open Act

namespace ObjectStore

theorem faults_put (s : ObjectStore) (place : String) (content : Archive) :
    (s.put place content).2.faults = s.faults := by
  unfold put called
  cases s.faults.lookup .put <;> rfl

theorem faults_get (s : ObjectStore) (place : String) : (s.get place).2.faults = s.faults := by
  unfold get called
  cases s.faults.lookup .get with
  | some fault => rfl
  | none =>
    dsimp only
    cases s.objects.lookup place <;> rfl

theorem faults_delete (s : ObjectStore) (place : String) :
    (s.delete place).2.faults = s.faults := by
  unfold delete called
  cases s.faults.lookup .delete <;> rfl

end ObjectStore

namespace RemoteStorage

/-- Whether the faults of the object store are these. -/
def Faulty (faults : List (ObjectOperation × ObjectFault)) (s : RemoteStorage) : Prop :=
  s.store.faults = faults

variable {faults : List (ObjectOperation × ObjectFault)} {α : Type}

theorem staged_faulty (act : Act Workspace α) : Preserves (Faulty faults) (staged act) :=
  fun _ h => h

theorem call_faulty {operation : ObjectStore → Except ObjectFault α × ObjectStore}
    (h : ∀ s, (operation s).2.faults = s.faults) : Preserves (Faulty faults) (call operation) :=
  fun s hs => (h s.store).trans hs

theorem pack_faulty (tenant : Uuid) : Preserves (Faulty faults) (pack tenant) :=
  pack_preserves (staged_faulty _) (fun _ _ content => call_faulty fun store =>
    store.faults_put _ content) (staged_faulty _)

theorem fetch_faulty (tenant : Uuid) : Preserves (Faulty faults) (fetch tenant) :=
  fetch_preserves fun _ _ => call_faulty fun store => store.faults_get _

theorem cleanUp_faulty (tenant : Uuid) : Preserves (Faulty faults) (cleanUp tenant) :=
  cleanUp_preserves (fun _ _ => call_faulty fun store => store.faults_delete _) (staged_faulty _)

end RemoteStorage

namespace Storage

/-- The faults of the object store of a storage; none without one. -/
def faults (s : Storage) : List (ObjectOperation × ObjectFault) :=
  (s.objects?.map (·.faults)).getD []

/-- Whether archives can be deleted. -/
def Disposes (s : Storage) : Prop :=
  s.faults.lookup .delete = none

variable {α : Type}

/-- Whether an action leaves the faults of the object store as they are. -/
def KeepsFaults (act : Act Storage α) : Prop :=
  ∀ s, (act.outcome s).2.faults = s.faults

theorem staged_keepsFaults (act : Act Workspace α) : KeepsFaults (staged act) := by
  intro s
  cases s <;> rfl

theorem either_keepsFaults {alone : Act Workspace α} {both : Act RemoteStorage α}
    (h : ∀ faults, Preserves (RemoteStorage.Faulty faults) both) :
    KeepsFaults (either alone both) := by
  intro s
  cases s with
  | here w => rfl
  | remote r => exact h r.store.faults r rfl

theorem outcome_cleanUp_disposes {s : Storage} (h : s.Disposes) (tenant : Uuid) :
    ((cleanUp tenant).outcome s).1 = .ok () := by
  cases s with
  | here w => rfl
  | remote r =>
    have allowed : r.store.faults.lookup .delete = none := h
    show ((RemoteStorage.cleanUp tenant).outcome r).1 = .ok ()
    rw [RemoteStorage.outcome_cleanUp allowed]

end Storage

variable {δ : Type}

/-- Whether everything around a service acts on the data alone. -/
structure Environment.Apart (env : Environment δ) : Prop where
  ask : ∀ q, ∃ act : Act δ q.Reply, env.ask q = World.onData act
  before : ∀ call, ∃ act : Act δ Unit, env.before call = World.onData act
  now : ∃ act : Act δ Int, env.now = World.onData act

/-- Whether what is stored is removed without being kept from it. -/
def Environment.CleansUp (env : Environment δ) : Prop :=
  ∀ w, ((env.before .cleanUp).outcome w).1 = .ok ()

/-- Whether tenants are found under their own identifiers. -/
def Environment.FindsTenants (env : Environment δ) : Prop :=
  ∀ id w tenant w', (env.ask (.tenant id)).outcome w = (.ok (some tenant), w') → tenant.id = id

theorem Environment.Within.apart {env : Environment δ} {c : Surroundings δ} (e : env.Within c) :
    env.Apart where
  ask q := ⟨_, e.ask q⟩
  before call := by
    by_cases hsave : call = .save
    · exact ⟨_, hsave ▸ e.save⟩
    · by_cases hpack : call = .pack
      · exact ⟨_, hpack ▸ e.pack⟩
      · exact ⟨Pure.pure (), e.others call hsave hpack⟩
  now := ⟨_, e.now⟩

theorem Environment.Within.cleansUp {env : Environment δ} {c : Surroundings δ} (e : env.Within c) :
    env.CleansUp := by
  intro w
  rw [e.others .cleanUp (by simp) (by simp)]
  rfl

theorem Environment.Within.findsTenants {env : Environment δ} {c : Surroundings δ}
    (e : env.Within c) (finds : c.FindsTenants) : env.FindsTenants := by
  intro id w tenant w' asked
  rw [e.ask, World.outcome_onData] at asked
  obtain ⟨found, _⟩ := Prod.mk.inj asked
  exact finds id w.data tenant _ (Prod.ext found rfl)

/-- A world that differs from another one in nothing but the data and what is stored. -/
structure World.Beside (w w' : World δ) : Prop where
  results : w'.results = w.results
  registry : w'.registry = w.registry
  time : w'.time = w.time
  worker : w'.worker = w.worker
  clock : w'.clock = w.clock
  faults : w'.storage.faults = w.storage.faults

namespace World.Beside

variable {w w' w'' : World δ}

theorem refl (w : World δ) : w.Beside w :=
  ⟨rfl, rfl, rfl, rfl, rfl, rfl⟩

theorem trans (h : w.Beside w') (h' : w'.Beside w'') : w.Beside w'' where
  results := h'.results.trans h.results
  registry := h'.registry.trans h.registry
  time := h'.time.trans h.time
  worker := h'.worker.trans h.worker
  clock := h'.clock.trans h.clock
  faults := h'.faults.trans h.faults

theorem withData (w : World δ) (data : δ) : w.Beside { w with data } :=
  ⟨rfl, rfl, rfl, rfl, rfl, rfl⟩

theorem withDue (w : World δ) (due : List Uuid) : w.Beside { w with due } :=
  ⟨rfl, rfl, rfl, rfl, rfl, rfl⟩

theorem registered (h : w.Beside w') (tenant : Uuid) :
    (w.registered tenant).Beside (w'.registered tenant) := by
  refine ⟨?_, ?_, h.time, h.worker, ?_, h.faults⟩
  · rw [World.registered, World.registered, h.results, h.clock]
  · rw [World.registered, World.registered, h.registry, h.time, h.results]
  · rw [World.registered, World.registered, h.clock]

end World.Beside

namespace World

variable (w : World δ) (tenant : Uuid)

/-- A world whose live result of a tenant has been read. -/
def looked : World δ :=
  { w with registry :=
      (w.registry.get w.isEvictable w.time tenant (.resultNotFound (.uuid tenant))).registry }

def peeked : World δ :=
  { w with registry := (w.registry.peek w.isEvictable w.time tenant).2 }

def purged : World δ :=
  { w with registry := (w.registry.purge w.isEvictable w.time).registry }

def removed : World δ :=
  { w with registry := (w.registry.remove tenant).registry }

/-- A property of worlds that all that requests do to results, registry, queue and time keeps up,
and that data and storage have no part in. -/
structure Upkeep (P : World δ → Prop) : Prop where
  aside {w w' : World δ} : P w → w.Beside w' → P w'
  looked {w : World δ} (id : Uuid) : P w → P (w.looked id)
  peeked {w : World δ} (id : Uuid) : P w → P (w.peeked id)
  removed {w : World δ} (id : Uuid) : P w → P (w.removed id)
  purged {w : World δ} : P w → P w.purged
  registered {w : World δ} (id : Uuid) : P w → P (w.registered id)
  discarded {w : World δ} (id : Uuid) (ticket : Nat) : P w →
    P { w with registry := (w.registry.discard id ticket).2 }
  queued {w : World δ} {task : Task} {worker : Worker Task} : P w →
    w.worker.submit task = .ok worker → P { w with worker }
  later {w : World δ} (seconds : Rat) : P w → P { w with time := w.time + seconds }

end World

namespace Service

variable {env : Environment δ} {w : World δ} {α : Type}

theorem onData_beside (act : Act δ α) (w₀ : World δ) : Preserves w₀.Beside (World.onData act) :=
  fun _ h => h.trans (.withData _ _)

theorem useStorage_beside (e : env.Apart) (call : StorageCall) {act : Act Storage α}
    (keeps : Storage.KeepsFaults act) (w₀ : World δ) :
    Preserves w₀.Beside (useStorage env call act) := by
  obtain ⟨ahead, happens⟩ := e.before call
  rw [useStorage, happens]
  exact (onData_beside ahead w₀).bind fun _ w h =>
    h.trans ⟨rfl, rfl, rfl, rfl, rfl, keeps w.storage⟩

/-- What is stored after a use of the storage: as before, if it was kept from happening. -/
theorem useStorage_storage (e : env.Apart) (call : StorageCall) (act : Act Storage α)
    (w : World δ) : ((useStorage env call act).outcome w).2.storage = w.storage ∨
      ((useStorage env call act).outcome w).2.storage = (act.outcome w.storage).2 := by
  obtain ⟨ahead, happens⟩ := e.before call
  rcases run : ahead.outcome w.data with ⟨failure | _, data⟩
  · rw [outcome_useStorage_error happens run]
    exact .inl rfl
  · rw [outcome_useStorage_ok happens run]
    exact .inr rfl

section Export

variable {P : World δ → Prop} {ticket : Nat} {tenant : Tenant} {skipped : List RecordType}

theorem perform_preserves (e : env.Apart)
    (data : ∀ {β : Type} (act : Act δ β), Preserves P (World.onData act)) {owner : Uuid}
    (keeps : ∀ type record, Preserves P (keep env ticket owner type record)) (call : Call) :
    Preserves P ((ports env ticket owner).perform call) := by
  have asked : ∀ q, Preserves P (env.ask q) := by
    intro q
    obtain ⟨act, asks⟩ := e.ask q
    rw [asks]
    exact data act
  cases call with
  | serve type => exact .settle _
  | ask q => exact asked q
  | await tenant entity timeout => exact (asked (.latest tenant entity)).bind fun _ => .settle _
  | now =>
    obtain ⟨act, tells⟩ := e.now
    show Preserves P env.now
    rw [tells]
    exact data act
  | keep type record => exact keeps type record

theorem exportTenant_preserves (e : env.Apart)
    (data : ∀ {β : Type} (act : Act δ β), Preserves P (World.onData act))
    (keeps : ∀ type record, Preserves P (keep env ticket tenant.id type record))
    (prepares : Preserves P (useStorage env .prepare (Storage.prepare tenant.id)))
    (closes : Preserves P (useStorage env .close (Storage.close tenant.id)))
    (packs : Preserves P (useStorage env .pack (Storage.pack tenant.id))) :
    Preserves P (exportTenant env ticket tenant skipped) := by
  have run := Dialogue.run_preserves (perform_preserves e data keeps) (content env tenant skipped)
  exact prepares.bind fun _ => (run.followedBy closes).bind fun _ => packs

end Export

section Stored

variable {P : Storage → Prop} {ticket : Nat} {tenant : Tenant} {skipped : List RecordType}

theorem useStorage_stored (e : env.Apart) (call : StorageCall) {act : Act Storage α}
    (h : Preserves P act) : Preserves (fun w => P w.storage) (useStorage env call act) := by
  intro w hw
  rcases useStorage_storage e call act w with same | used
  · exact same ▸ hw
  · exact used ▸ h w.storage hw

theorem exportTenant_stored (e : env.Apart) (prepares : Preserves P (Storage.prepare tenant.id))
    (saves : ∀ type record, Preserves P (Storage.save tenant.id type record))
    (closes : Preserves P (Storage.close tenant.id))
    (packs : Preserves P (Storage.pack tenant.id)) :
    Preserves (fun w => P w.storage) (exportTenant env ticket tenant skipped) := by
  refine exportTenant_preserves e (fun _ _ h => h) (fun type record => ?_)
    (useStorage_stored e .prepare prepares) (useStorage_stored e .close closes)
    (useStorage_stored e .pack packs)
  exact (useStorage_stored e .save (saves type record)).bind fun _ _ h => h

theorem markResult_stored (ticket : Nat) (mark : Mark) :
    Preserves (fun w : World δ => P w.storage) (markResult ticket mark) := by
  refine .get_bind fun w h => ?_
  cases w.result? ticket with
  | none => exact h
  | some r => exact h

/-- A job keeps up of what is stored what its export keeps up. -/
theorem runExport_stored (h : Preserves (fun w : World δ => P w.storage)
    (exportTenant env ticket tenant skipped)) :
    Preserves (fun w : World δ => P w.storage) (runExport env ticket tenant skipped) := by
  have finished : Preserves (fun w : World δ => P w.storage)
      (finishExport env ticket tenant skipped) :=
    h.attempt.bind fun result => markResult_stored ticket (.ofOutcome result)
  have touched : Preserves (fun w : World δ => P w.storage) (touch tenant.id ticket) :=
    fun _ h => h
  exact (markResult_stored ticket .running).bind fun _ => finished.followedBy touched

end Stored

theorem cleanUp_beside (e : env.Apart) (tenant : Uuid) (w₀ : World δ) :
    Preserves w₀.Beside (cleanUp env tenant) :=
  useStorage_beside e .cleanUp (Storage.either_keepsFaults fun _ =>
    RemoteStorage.cleanUp_faulty tenant) w₀

theorem outcome_cleanUp_ok (e : env.Apart) (cleans : env.CleansUp) (disposes : w.storage.Disposes)
    (tenant : Uuid) : ∃ w', (cleanUp env tenant).outcome w = (.ok (), w') ∧ w.Beside w' := by
  obtain ⟨ahead, happens⟩ := e.before .cleanUp
  have goes := cleans w
  rw [happens, World.outcome_onData] at goes
  have run : (cleanUp env tenant).outcome w = _ :=
    outcome_useStorage_ok happens (Prod.ext goes rfl)
  have beside := cleanUp_beside e tenant w w (.refl w)
  rw [run] at beside
  refine ⟨_, run.trans (Prod.ext (Storage.outcome_cleanUp_disposes disposes tenant) rfl), beside⟩

theorem cleanUp_due (e : env.Apart) (tenant : Uuid) (due : List Uuid) :
    Preserves (fun w : World δ => w.due = due) (cleanUp env tenant) := by
  obtain ⟨ahead, happens⟩ := e.before .cleanUp
  have cleaned : Preserves (fun w : World δ => w.due = due)
      ((Storage.cleanUp tenant).onPart (·.storage) fun w storage => { w with storage }) :=
    fun _ h => h
  rw [cleanUp, useStorage, happens]
  exact .bind (fun _ h => h) fun _ => cleaned

/-- Clean-ups are done as far as they work; no other one waits longer for it. -/
theorem outcome_cleanUpAll_apart (e : env.Apart) (tenants : List Uuid) (w : World δ) :
    ∃ w', (cleanUpAll env tenants).outcome w = (.ok (), w') ∧ w.Beside w' ∧
      w'.due = w.due := by
  induction tenants generalizing w with
  | nil => exact ⟨w, rfl, .refl w, rfl⟩
  | cons tenant rest ih =>
    obtain ⟨w', run, beside, waiting⟩ := ih ((cleanUp env tenant).outcome w).2
    refine ⟨w', ?_, .trans ?_ beside, waiting.trans (cleanUp_due e tenant _ w rfl)⟩
    · exact (outcome_bind_ok (outcome_ignoringFailure _ w)).trans run
    · exact cleanUp_beside e tenant w w (.refl w)

theorem outcome_heed_apart (e : env.Apart) (notices : List (Notice Uuid Nat)) (w : World δ) :
    ∃ w', (heed env notices).outcome w = (.ok (), w') ∧ w.Beside w' := by
  rw [heed]
  split
  next =>
    obtain ⟨w', run, beside, _⟩ := outcome_cleanUpAll_apart e (notices.map (·.key)) w
    exact ⟨w', run, beside⟩
  next => exact ⟨_, rfl, .withDue w _⟩

theorem outcome_tend_apart (e : env.Apart) (count : Nat) (w : World δ) :
    ∃ w', (tend env count).outcome w = (.ok (), w') ∧ w.Beside w' ∧
      w'.due = w.due.drop count := by
  obtain ⟨w', run, beside, waiting⟩ := outcome_cleanUpAll_apart e (w.due.take count)
    { w with due := w.due.drop count }
  exact ⟨w', run, (World.Beside.withDue w _).trans beside, waiting⟩

theorem outcome_tendAll_apart (e : env.Apart) (w : World δ) :
    ∃ w', (tendAll env).outcome w = (.ok (), w') ∧ w.Beside w' ∧ w'.due = [] := by
  obtain ⟨w', run, beside, waiting⟩ := outcome_tend_apart e w.due.length w
  exact ⟨w', run, beside, waiting.trans List.drop_length⟩

/-- Something that may remove entries from the registry does nothing else to a world. -/
theorem outcome_withRegistry_apart (e : env.Apart) (operation : World δ → Removal Uuid Nat α)
    (w : World δ) : ∃ w', (withRegistry env operation).outcome w = ((operation w).answer, w') ∧
      World.Beside { w with registry := (operation w).registry } w' := by
  obtain ⟨w', run, beside⟩ := outcome_heed_apart e (operation w).notices
    { w with registry := (operation w).registry }
  refine ⟨w', ?_, beside⟩
  rw [withRegistry, outcome_bind_ok (outcome_get w)]
  dsimp only
  rw [outcome_bind_ok (outcome_set _ w), outcome_bind_ok run, outcome_settle]

/-- The number that is found is that of the live result. -/
theorem outcome_ticketOf_apart (e : env.Apart) (w : World δ) (tenant : Uuid) :
    ∃ answer w', (ticketOf env tenant).outcome w = (answer, w') ∧ (w.looked tenant).Beside w' ∧
      answer.toOption = live? w tenant := by
  obtain ⟨w', run, beside⟩ := outcome_withRegistry_apart e
    (fun w => w.registry.get w.isEvictable w.time tenant (.resultNotFound (.uuid tenant))) w
  exact ⟨_, w', run, beside, Registry.get_answer ..⟩

/-- Looking at a result reads the live value of the registry, and gives the result it stands for. -/
theorem outcome_getResult_apart (e : env.Apart) (w : World δ) (tenant : Uuid) :
    ∃ answer w', (getResult env tenant).outcome w = (answer, w') ∧ (w.looked tenant).Beside w' ∧
      ∀ r, answer = .ok r → ∃ ticket, live? w tenant = some ticket ∧ w.result? ticket = some r := by
  obtain ⟨ticketed, w', run, beside, hlive⟩ := outcome_ticketOf_apart e w tenant
  cases ticketed with
  | error failure => exact ⟨_, w', outcome_bind_error run, beside, fun _ h => by cases h⟩
  | ok ticket =>
    have same : w'.result? ticket = w.result? ticket := by
      rw [World.result?, beside.results]
      rfl
    rw [getResult, outcome_bind_ok run, resultOf, outcome_bind_ok (outcome_get w'), same]
    cases hr : w.result? ticket with
    | none => exact ⟨_, w', rfl, beside, fun _ h => by cases h⟩
    | some r => exact ⟨_, w', rfl, beside, fun r' h => ⟨ticket, hlive.symm, (Except.ok.inj h) ▸ hr⟩⟩

theorem download_beside (e : env.Apart) (w : World δ) (tenant : Uuid) :
    (w.looked tenant).Beside ((download env tenant).outcome w).2 := by
  obtain ⟨answer, w', run, beside, _⟩ := outcome_getResult_apart e w tenant
  cases answer with
  | error failure =>
    rw [download, outcome_bind_error run]
    exact beside
  | ok r =>
    have keeps : Storage.KeepsFaults (Storage.fetch tenant) :=
      Storage.either_keepsFaults fun _ => RemoteStorage.fetch_faulty tenant
    rw [download, outcome_bind_ok run]
    cases r.isDone with
    | false => exact beside
    | true =>
      cases r.isSuccess with
      | false => exact beside
      | true => exact useStorage_beside e .fetch keeps _ w' beside

/-- What a deletion does: it only reads a result that is not done, and removes one that is. -/
theorem outcome_delete_apart (e : env.Apart) (w : World δ) (tenant : Uuid) :
    ∃ answer w', (delete env tenant).outcome w = (answer, w') ∧
      (((w.looked tenant).Beside w' ∧ ∀ ticket r, live? w tenant = some ticket →
          w.result? ticket = some r → r.isDone = false) ∨
        ((w.looked tenant).removed tenant).Beside w' ∧
          (answer = ((w.looked tenant).registry.remove tenant).answer.map fun _ => ()) ∧
          ∃ ticket r, live? w tenant = some ticket ∧ w.result? ticket = some r ∧
            r.isDone = true) := by
  obtain ⟨answer, w', run, beside, found⟩ := outcome_getResult_apart e w tenant
  cases answer with
  | error failure =>
    refine ⟨_, w', outcome_bind_error run, .inl ⟨beside, fun ticket r hlive hr => ?_⟩⟩
    rw [outcome_getResult_some hlive hr] at run
    cases run
  | ok r =>
    obtain ⟨ticket, hlive, hr⟩ := found r rfl
    rw [delete, outcome_bind_ok run]
    cases done : r.isDone with
    | false =>
      refine ⟨_, w', rfl, .inl ⟨beside, fun ticket' r' hlive' hr' => ?_⟩⟩
      cases hlive.symm.trans hlive'
      cases hr.symm.trans hr'
      exact done
    | true =>
      obtain ⟨w'', removed, beside'⟩ := outcome_withRegistry_apart e
        (fun w => w.registry.remove tenant) w'
      have same : ((w.looked tenant).removed tenant).Beside (w'.removed tenant) := by
        refine ⟨beside.results, ?_, beside.time, beside.worker, beside.clock, beside.faults⟩
        rw [World.removed, beside.registry]
        rfl
      have target := same.trans beside'
      have discarded : (discard (withRegistry env fun w => w.registry.remove tenant)).outcome w' =
          ((w'.registry.remove tenant).answer.map fun _ => (), w'') := by
        rw [outcome_discard, removed]
      refine ⟨_, w'', discarded, .inr ⟨target, ?_, ticket, r, hlive, hr, done⟩⟩
      rw [beside.registry]

/-- A shutdown stops the worker, closes the registry and leaves no clean-up waiting. -/
theorem outcome_shutdown_apart (e : env.Apart) (w : World δ) :
    ∃ w', (shutdown env).outcome w = (w.registry.close.answer, w') ∧
      World.Beside { w with registry := w.registry.close.registry, worker := w.worker.shutdown }
        w' ∧ w'.due = [] := by
  obtain ⟨v, closed, beside⟩ := outcome_withRegistry_apart e (fun w => w.registry.close)
    { w with worker := w.worker.shutdown }
  obtain ⟨w', tended, beside', none⟩ := outcome_tendAll_apart e v
  have stopped : shutdownWorker.outcome w = (.ok (), { w with worker := w.worker.shutdown }) := rfl
  have ends : (tendAll env).outcome ((withRegistry env fun w => w.registry.close).outcome
      { w with worker := w.worker.shutdown }).2 = (.ok (), w') := by
    rw [closed]
    exact tended
  refine ⟨w', ?_, beside.trans beside', none⟩
  rw [shutdown, outcome_bind_ok stopped, outcome_followedBy ends, closed]

theorem outcome_purge_apart (e : env.Apart) (w : World δ) :
    ∃ w', (purge env).outcome w = ((w.registry.purge w.isEvictable w.time).answer, w') ∧
      w.purged.Beside w' :=
  outcome_withRegistry_apart e (fun w => w.registry.purge w.isEvictable w.time) w

/-- What an approval looks at: the tenant, its previous result, and the queue. -/
theorem outcome_approve_apart (e : env.Apart) (w : World δ) (id : Uuid) :
    ∃ answer w', (approve env id).outcome w = (answer, w') ∧
      (w.Beside w' ∨ (w.peeked id).Beside w') ∧
      ∀ tenant, answer = .ok tenant → (w.peeked id).Beside w' ∧
        verdict env w.worker id ((live? w id).bind w.result?) = .ok () ∧
        ∃ v, (env.ask (.tenant id)).outcome w = (.ok (some tenant), v) := by
  obtain ⟨act, asks⟩ := e.ask (.tenant id)
  have asked : (env.ask (.tenant id)).outcome w =
      ((act.outcome w.data).1, { w with data := (act.outcome w.data).2 }) := by
    rw [asks, World.outcome_onData]
  generalize act.outcome w.data = found at asked
  rcases found with ⟨failure | found, data⟩
  · exact ⟨_, _, outcome_bind_error asked, .inl (.withData w data), nofun⟩
  · cases found with
    | none => exact ⟨_, _, outcome_bind_ok asked, .inl (.withData w data), nofun⟩
    | some tenant =>
      have peeked := outcome_peekResult { w with data } id
      have target : (w.peeked id).Beside { w.peeked id with data } := .withData _ data
      refine ⟨_, _, (outcome_bind_ok asked).trans ((outcome_bind_ok peeked).trans
        ((outcome_bind_ok (outcome_get _)).trans (outcome_settle_then _ tenant _))), .inr target,
        fun tenant' h => ⟨target, ?_⟩⟩
      cases approved : verdict env w.worker id ((live? w id).bind w.result?) with
      | error failure =>
        have refused : (verdict env w.worker id ((live? w id).bind w.result?)).map
            (fun _ => tenant) = .ok tenant' := h
        rw [approved] at refused
        cases refused
      | ok =>
        have same : (verdict env w.worker id ((live? w id).bind w.result?)).map
            (fun _ => tenant) = .ok tenant' := h
        rw [approved] at same
        cases same
        exact ⟨rfl, _, asked⟩

/-- A submission is refused, and then changes nothing but the time of the previous result at most,
or its export is registered and its job queued. -/
theorem outcome_submit_apart (e : env.Apart) (cleans : env.CleansUp) (w : World δ)
    (disposes : w.storage.Disposes) (isOpen : w.worker.isOpen = true) (id : Uuid)
    (skipped : List RecordType) :
    (∃ failure w', (submit env id skipped).outcome w = (.error failure, w') ∧
      (w.Beside w' ∨ (w.peeked id).Beside w')) ∨
    ∃ tenant worker w', (submit env id skipped).outcome w = (.ok id, w') ∧
      verdict env w.worker id ((live? w id).bind w.result?) = .ok () ∧
      (∃ v, (env.ask (.tenant id)).outcome w = (.ok (some tenant), v)) ∧
      w.worker.submit (.job w.results.length tenant skipped) = .ok worker ∧
      World.Beside { (w.peeked id).registered id with worker } w' := by
  obtain ⟨answer, w₁, approved, looked, known⟩ := outcome_approve_apart e w id
  cases answer with
  | error failure => exact .inl ⟨failure, w₁, outcome_bind_error approved, looked⟩
  | ok tenant =>
    obtain ⟨peeked, allowed, found⟩ := known tenant rfl
    obtain ⟨w₂, cleaned, beside⟩ : ∃ w₂, (cleanReplaced env w₁ id (w₁.registry.value? id)).outcome
        (w₁.registered id) = (.ok (), w₂) ∧ (w₁.registered id).Beside w₂ := by
      unfold cleanReplaced
      split
      next =>
        refine outcome_cleanUp_ok e cleans ?_ id
        show Storage.Disposes w₁.storage
        rw [Storage.Disposes, peeked.faults]
        exact disposes
      next => exact ⟨_, rfl, .refl _⟩
    obtain ⟨worker, submitted⟩ : ∃ worker,
        w.worker.submit (.job w.results.length tenant skipped) = .ok worker := by
      rw [Worker.submit, isOpen, verdict_ok allowed]
      exact ⟨_, rfl⟩
    have target : World.Beside { (w.peeked id).registered id with worker }
        { w₂ with worker } := by
      have h := (peeked.registered id).trans beside
      exact ⟨h.results, h.registry, h.time, rfl, h.clock, h.faults⟩
    have queued : w₂.worker.submit (.job w₁.results.length tenant skipped) = .ok worker := by
      rw [beside.worker, peeked.results]
      exact (congrArg (Worker.submit · _) peeked.worker).trans submitted
    have entered : (enter env id tenant skipped).outcome w₁ = (.ok (), { w₂ with worker }) := by
      rw [outcome_enter_cleaned cleaned, outcome_handIn_ok queued]
    refine .inr ⟨tenant, worker, _, ?_, allowed, found, submitted, target⟩
    rw [submit, outcome_bind_ok approved, outcome_bind_ok entered]
    rfl

theorem approve_preserves (e : env.Apart) {P : World δ → Prop}
    (aside : ∀ {w w' : World δ}, P w → w.Beside w' → P w')
    (peeks : ∀ {w : World δ} id, P w → P (w.peeked id)) (id : Uuid) :
    Preserves P (approve env id) := by
  intro w h
  obtain ⟨answer, v, approved, looked, _⟩ := outcome_approve_apart e w id
  rw [approved]
  rcases looked with beside | beside
  · exact aside h beside
  · exact aside (peeks id h) beside

/-- What a submission keeps up, if everything it does to results, registry and queue keeps it up and
the data and the storage have no part in it. -/
theorem submit_preserves (e : env.Apart) {P : World δ → Prop}
    (aside : ∀ {w w' : World δ}, P w → w.Beside w' → P w')
    (peeks : ∀ {w : World δ} id, P w → P (w.peeked id))
    (registers : ∀ {w : World δ} id, P w → P (w.registered id))
    (queues : ∀ {w : World δ} {task worker}, P w → w.worker.submit task = .ok worker →
      P { w with worker })
    (discards : ∀ {w : World δ} id ticket, P w →
      P { w with registry := (w.registry.discard id ticket).2 })
    (id : Uuid) (skipped : List RecordType) : Preserves P (submit env id skipped) := by
  have cleans : ∀ (v : World δ) replaced, Preserves P (cleanReplaced env v id replaced) := by
    intro v replaced
    unfold cleanReplaced
    split
    next => exact fun u hu => aside hu (cleanUp_beside e id u u (.refl u))
    next => exact .pure ()
  have hands : ∀ ticket task, Preserves P (handIn id ticket task) := by
    intro ticket task u hu
    cases queued : u.worker.submit task with
    | ok worker =>
      rw [outcome_handIn_ok queued]
      exact queues hu queued
    | error failure =>
      rw [outcome_handIn_error queued]
      exact discards id ticket hu
  have enters : ∀ tenant, Preserves P (enter env id tenant skipped) := by
    intro tenant v hv
    have cleaned := cleans v (v.registry.value? id) _ (registers id hv)
    rcases run : (cleanReplaced env v id (v.registry.value? id)).outcome (v.registered id) with
      ⟨failure | _, u⟩
    · rw [run] at cleaned
      rw [outcome_enter_uncleaned run]
      exact cleaned
    · rw [run] at cleaned
      rw [outcome_enter_cleaned run]
      exact hands _ _ u cleaned
  exact (approve_preserves e aside peeks id).bind fun tenant =>
    (enters tenant).bind fun _ => .pure id

theorem request_preserves (e : env.Apart) {P : World δ → Prop} (u : World.Upkeep P)
    {op : Operation} (hop : op ≠ .run) (h : P w) : P (after env w op) := by
  cases op with
  | submit id skipped =>
    exact submit_preserves e u.aside u.peeked u.registered u.queued u.discarded id skipped w h
  | run => exact absurd rfl hop
  | look id =>
    obtain ⟨_, _, run, beside, _⟩ := outcome_getResult_apart e w id
    rw [after, run]
    exact u.aside (u.looked id h) beside
  | download id => exact u.aside (u.looked id h) (download_beside e w id)
  | delete id =>
    obtain ⟨_, _, run, ⟨beside, _⟩ | ⟨beside, _⟩⟩ := outcome_delete_apart e w id
    · rw [after, run]
      exact u.aside (u.looked id h) beside
    · rw [after, run]
      exact u.aside (u.removed id (u.looked id h)) beside
  | purge =>
    obtain ⟨_, run, beside⟩ := outcome_purge_apart e w
    rw [after, run]
    exact u.aside (u.purged h) beside
  | advance seconds => exact u.later seconds h

end Service

/-- A world that a running job has changed by keeping records of its own at most. -/
structure World.Amid (w₀ : World δ) (ticket : Nat) (w : World δ) : Prop where
  counted : ∃ rows, w₀.Counted ticket rows w
  faults : w.storage.faults = w₀.storage.faults

namespace World.Amid

variable {w₀ w w' : World δ} {ticket : Nat}

theorem refl (w : World δ) (ticket : Nat) : w.Amid ticket w :=
  ⟨⟨[], rfl, rfl, rfl, rfl, (List.modify_id ticket w.results).symm, by simp⟩, rfl⟩

theorem beside (h : w₀.Amid ticket w) (h' : w.Beside w') : w₀.Amid ticket w' := by
  obtain ⟨⟨rows, counted⟩, faults⟩ := h
  exact ⟨⟨rows, h'.registry.trans counted.registry, h'.time.trans counted.time,
    h'.worker.trans counted.worker, h'.clock.trans counted.clock,
    h'.results.trans counted.results, counted.writable⟩, h'.faults.trans faults⟩

theorem report (h : w₀.Amid ticket w) {type : RecordType} {record : Value} {line : String}
    (written : Json.line type record = .ok line) : w₀.Amid ticket (w.report ticket type) := by
  obtain ⟨⟨rows, counted⟩, faults⟩ := h
  refine ⟨⟨rows ++ [(type, record)], counted.registry, counted.time, counted.worker,
    counted.clock, ?_, fun row hrow => ?_⟩, faults⟩
  · show w.results.modify ticket (fun r => r.report type) = _
    rw [counted.results, List.modify_modify_eq]
    congr 1
    funext r
    exact (JobResult.reported_concat r rows type record).symm
  · rcases List.mem_append.mp hrow with hrow | hrow
    · exact counted.writable row hrow
    · obtain rfl := List.mem_singleton.mp hrow
      exact ⟨line, written⟩

end World.Amid

namespace Service

variable {env : Environment δ} {w₀ : World δ} {ticket : Nat}

theorem onData_amid {α : Type} (act : Act δ α) : Preserves (w₀.Amid ticket) (World.onData act) :=
  fun _ h => h.beside (.withData _ _)

theorem useStorage_amid (e : env.Apart) (call : StorageCall) {act : Act Storage Unit}
    (keeps : Storage.KeepsFaults act) : Preserves (w₀.Amid ticket) (useStorage env call act) :=
  fun w h => h.beside (useStorage_beside e call keeps w w (.refl w))

/-- A record that has been saved can be written. -/
theorem save_written (e : env.Apart) {tenant : Uuid} {type : RecordType} {record : Value}
    {w w' : World δ}
    (h : (useStorage env .save (Storage.save tenant type record)).outcome w = (.ok (), w')) :
    ∃ line, Json.line type record = .ok line := by
  cases written : Json.line type record with
  | ok line => exact ⟨line, rfl⟩
  | error failure =>
    have refused : (Storage.save tenant type record).outcome w.storage = (.error failure, _) :=
      Storage.outcome_staged
        (Workspace.outcome_save_unwritten written w.storage.workspace tenant type)
    obtain ⟨ahead, happens⟩ := e.before .save
    rcases run : ahead.outcome w.data with ⟨other | _, data⟩
    · rw [outcome_useStorage_error happens run] at h
      cases h
    · rw [outcome_useStorage_ok happens run, refused] at h
      cases h

theorem keep_amid (e : env.Apart) (tenant : Uuid) (type : RecordType) (record : Value) :
    Preserves (w₀.Amid ticket) (keep env ticket tenant type record) := by
  intro w h
  have keeps : Storage.KeepsFaults (Storage.save tenant type record) := Storage.staged_keepsFaults _
  have amid := useStorage_amid e .save keeps w h
  rcases run : (useStorage env .save (Storage.save tenant type record)).outcome w with
    ⟨failure | _, w'⟩
  · rw [keep, outcome_bind_error run]
    rwa [run] at amid
  · obtain ⟨line, written⟩ := save_written e run
    rw [keep, outcome_bind_ok run]
    rw [run] at amid
    exact amid.report written

theorem exportTenant_amid (e : env.Apart) (tenant : Tenant) (skipped : List RecordType) :
    Preserves (w₀.Amid ticket) (exportTenant env ticket tenant skipped) :=
  exportTenant_preserves e onData_amid (keep_amid e tenant.id)
    (useStorage_amid e .prepare (Storage.staged_keepsFaults _))
    (useStorage_amid e .close (Storage.staged_keepsFaults _))
    (useStorage_amid e .pack (Storage.either_keepsFaults fun _ =>
      RemoteStorage.pack_faulty tenant.id))

/-- A job that has waited is run to the end of its result. What is stored afterwards is what its
export leaves. -/
theorem runExport_apart (e : env.Apart) {w : World δ} {tenant : Tenant} {moment : Instant}
    (queued : w.result? ticket = some (.submitted tenant.id moment))
    (skipped : List RecordType) :
    let run := (exportTenant env ticket tenant skipped).outcome (w.started ticket)
    ∃ rows w', (runExport env ticket tenant skipped).outcome w = (.ok (), w') ∧
      w.Ended ticket tenant.id tenant.id rows run.1 w' ∧ w'.storage = run.2.storage ∧
      w'.storage.faults = (w.started ticket).storage.faults := by
  have amid : (w.started ticket).Amid ticket
      ((exportTenant env ticket tenant skipped).outcome (w.started ticket)).2 :=
    exportTenant_amid e tenant skipped _ (.refl _ ticket)
  rcases run : (exportTenant env ticket tenant skipped).outcome (w.started ticket) with
    ⟨result, w₂⟩
  rw [run] at amid
  obtain ⟨⟨rows, counted⟩, faults⟩ := amid
  obtain ⟨w', ends, ended, files⟩ := runExport_ends queued run counted
  exact ⟨rows, w', ends, ended, files, files ▸ faults⟩

end Service

end Handover
