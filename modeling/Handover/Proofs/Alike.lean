import Handover.Proofs.Parallel
import Handover.Proofs.Operations

namespace Handover

open Act (Parallel)

variable {δ α : Type}

/-- Whether two worlds differ in nothing but their data and their storage, which stand in
relations. -/
def World.Alike (D : δ → δ → Prop) (S : Storage → Storage → Prop) (w v : World δ) : Prop :=
  ∃ data storage, v = { w with data, storage } ∧ D w.data data ∧ S w.storage storage

/-- Whether an action has no part in the data and the storage. -/
def Act.Blind (act : Act (World δ) α) : Prop :=
  ∀ (w : World δ) data storage, act.outcome { w with data, storage } =
    ((act.outcome w).1, { (act.outcome w).2 with data, storage })

variable {D : δ → δ → Prop} {S : Storage → Storage → Prop}

theorem Act.Blind.parallel {act : Act (World δ) α} (h : act.Blind) :
    Parallel (World.Alike D S) act act := by
  rintro w _ ⟨data, storage, rfl, hD, hS⟩
  have own : act.outcome w = ((act.outcome w).1,
    { (act.outcome w).2 with data := w.data, storage := w.storage }) := h w w.data w.storage
  have ownData : (act.outcome w).2.data = w.data := congrArg (·.2.data) own
  have ownStorage : (act.outcome w).2.storage = w.storage := congrArg (·.2.storage) own
  rw [h w data storage]
  exact ⟨rfl, data, storage, rfl, ownData ▸ hD, ownStorage ▸ hS⟩

theorem World.onData_parallel {act : Act δ α}
    (h : ∀ data data', D data data' → (act.outcome data').1 = (act.outcome data).1 ∧
      D (act.outcome data).2 (act.outcome data').2) :
    Parallel (World.Alike D S) (World.onData act) (World.onData act) := by
  rintro w _ ⟨data, storage, rfl, hD, hS⟩
  obtain ⟨answer, related⟩ := h w.data data hD
  exact ⟨answer, _, storage, rfl, related, hS⟩

/-- Whether the surroundings of a service answer alike in any two states of theirs that stand in a
relation. -/
structure Surroundings.Respects (c : Surroundings δ) (D : δ → δ → Prop) : Prop where
  ask : ∀ q, Parallel D (c.ask q) (c.ask q)
  now : Parallel D c.now c.now
  writing : Parallel D c.writing c.writing
  packing : Parallel D c.packing c.packing

theorem Surroundings.respects_eq (c : Surroundings δ) : c.Respects Eq :=
  ⟨fun q => .same (c.ask q), .same c.now, .same c.writing, .same c.packing⟩

namespace Service

variable {env : Environment δ}

section Related

variable {R : World δ → World δ → Prop} {ticket : Nat} {tenant : Uuid}

theorem perform_related (asks : ∀ q, Parallel R (env.ask q) (env.ask q))
    (now : Parallel R env.now env.now) (keeps : ∀ type record,
      Parallel R (keep env ticket tenant type record) (keep env ticket tenant type record))
    (call : Call) : Parallel R ((ports env ticket tenant).perform call)
      ((ports env ticket tenant).perform call) := by
  cases call with
  | serve type => exact .settle _
  | ask q => exact asks q
  | await owner entity timeout => exact (asks (.latest owner entity)).bind fun _ => .settle _
  | now => exact now
  | keep type record => exact keeps type record

/-- What is fetched has to go alike only where the result that is looked at succeeded. How alike the
answers are may be a relation of its own. -/
theorem download_related (A : Except Failure Archive → Except Failure Archive → Prop)
    (same : ∀ answer, A answer answer) {w v : World δ}
    (looks : Parallel R (getResult env tenant) (getResult env tenant)) (related : R w v)
    (fetches : ∀ r w' v', (getResult env tenant).outcome w = (.ok r, w') →
      (getResult env tenant).outcome v = (.ok r, v') → r.status = .succeeded → R w' v' →
      let fetch := useStorage env .fetch (Storage.fetch tenant)
      A (fetch.outcome w').1 (fetch.outcome v').1 ∧ R (fetch.outcome w').2 (fetch.outcome v').2) :
    A ((download env tenant).outcome w).1 ((download env tenant).outcome v).1 ∧
      R ((download env tenant).outcome w).2 ((download env tenant).outcome v).2 := by
  obtain ⟨failure, w', v', run, run', left⟩ | ⟨r, w', v', run, run', left⟩ := looks.cases related
  · rw [download, Act.outcome_bind_error run, Act.outcome_bind_error run']
    exact ⟨same _, left⟩
  rw [download, Act.outcome_bind_ok run, Act.outcome_bind_ok run']
  cases r.isDone with
  | false => exact ⟨same _, left⟩
  | true =>
    cases success : r.isSuccess with
    | false => exact ⟨same _, left⟩
    | true => exact fetches r w' v' run run' (of_decide_eq_true success) left

end Related

theorem useStorage_parallel {call : StorageCall} {act : Act Storage α}
    (before : Parallel (World.Alike D S) (env.before call) (env.before call))
    (h : ∀ s s', S s s' → (act.outcome s').1 = (act.outcome s).1 ∧
      S (act.outcome s).2 (act.outcome s').2) :
    Parallel (World.Alike D S) (useStorage env call act) (useStorage env call act) := by
  refine before.bind fun _ => ?_
  rintro w _ ⟨data, storage, rfl, hD, hS⟩
  obtain ⟨answer, related⟩ := h w.storage storage hS
  exact ⟨answer, data, _, rfl, hD, related⟩

theorem onRegistry_blind {operation : World δ → α × Registry Uuid Nat}
    (h : ∀ w data storage, operation { w with data, storage } = operation w) :
    (onRegistry operation).Blind := by
  intro w data storage
  show (Except.ok (operation { w with data, storage }).1,
    { w with data, storage, registry := (operation { w with data, storage }).2 }) = _
  rw [h]
  rfl

theorem markResult_blind (ticket : Nat) (mark : Mark) :
    (markResult (δ := δ) ticket mark).Blind := by
  intro w data storage
  simp only [markResult, Act.outcome_bind, Act.outcome_get, World.result?]
  rcases w.results[ticket]? with _ | r <;> rfl

theorem enqueue_blind (task : Task) : (enqueue (δ := δ) task).Blind := by
  intro w data storage
  simp only [enqueue, Act.outcome_bind, Act.outcome_get, Act.outcome_settle]
  rcases w.worker.submit task with failure | worker <;> rfl

theorem resultOf_blind (ticket : Nat) : (resultOf (δ := δ) ticket).Blind := by
  intro w data storage
  simp only [resultOf, Act.outcome_bind, Act.outcome_get, World.result?]
  rcases w.results[ticket]? with _ | r <;> rfl

theorem register_blind (tenant : Uuid) : (register (δ := δ) tenant).Blind :=
  fun _ _ _ => rfl

theorem peekResult_blind (tenant : Uuid) : (peekResult (δ := δ) tenant).Blind :=
  fun _ _ _ => rfl

theorem touch_blind (tenant : Uuid) (ticket : Nat) : (touch (δ := δ) tenant ticket).Blind :=
  fun _ _ _ => rfl

theorem handIn_parallel (id : Uuid) (ticket : Nat) (task : Task) :
    Parallel (World.Alike D S) (handIn id ticket task) (handIn id ticket task) := by
  refine (enqueue_blind task).parallel.attempt.bind fun result => ?_
  rcases result with failure | _
  · have discarded : (onRegistry fun w : World δ => w.registry.discard id ticket).Blind :=
      onRegistry_blind fun _ _ _ => rfl
    exact discarded.parallel.discard.bind fun _ => .throw failure
  · exact .pure ()

section Clean

variable (clean : ∀ tenant, Parallel (World.Alike D S) (cleanUp env tenant) (cleanUp env tenant))
include clean

theorem cleanUpAll_parallel (tenants : List Uuid) :
    Parallel (World.Alike D S) (cleanUpAll env tenants) (cleanUpAll env tenants) :=
  .forM fun tenant _ => (clean tenant).ignoringFailure

theorem heed_parallel (notices : List (Notice Uuid Nat)) :
    Parallel (World.Alike D S) (heed env notices) (heed env notices) := by
  rw [heed]
  split
  next => exact cleanUpAll_parallel clean _
  next =>
    have waits : (modify fun w : World δ =>
        { w with due := w.due ++ notices.map (·.key) } : Act (World δ) Unit).Blind :=
      fun _ _ _ => rfl
    exact waits.parallel

theorem tend_parallel (count : Nat) :
    Parallel (World.Alike D S) (tend env count) (tend env count) := by
  refine .get_bind ?_
  rintro w _ ⟨data, storage, rfl, hD, hS⟩
  exact (Parallel.set ⟨data, storage, rfl, hD, hS⟩).bind fun _ => cleanUpAll_parallel clean _

theorem tendAll_parallel : Parallel (World.Alike D S) (tendAll env) (tendAll env) := by
  refine .get_bind ?_
  rintro w _ ⟨_, _, rfl, _⟩
  exact tend_parallel clean _

theorem withRegistry_parallel {operation : World δ → Removal Uuid Nat α}
    (h : ∀ w data storage, operation { w with data, storage } = operation w) :
    Parallel (World.Alike D S) (withRegistry env operation) (withRegistry env operation) := by
  rintro w _ ⟨data, storage, rfl, hD, hS⟩
  let removal := operation w
  have rest : Parallel (World.Alike D S)
      (do heed env removal.notices; Act.settle removal.answer)
      (do heed env removal.notices; Act.settle removal.answer) :=
    (heed_parallel clean removal.notices).bind fun _ => .settle removal.answer
  have related : World.Alike D S { w with registry := removal.registry }
      { w with data, storage, registry := removal.registry } := ⟨data, storage, rfl, hD, hS⟩
  have run : ∀ v : World δ, operation v = removal → (withRegistry env operation).outcome v =
      (do heed env removal.notices; Act.settle removal.answer : Act (World δ) α).outcome
        { v with registry := removal.registry } := by
    intro v hv
    rw [withRegistry, Act.outcome_bind_ok (Act.outcome_get v)]
    dsimp only
    rw [hv, Act.outcome_bind_ok (Act.outcome_set _ v)]
  rw [run w rfl, run _ (h w data storage)]
  exact rest _ _ related

theorem getResult_parallel (tenant : Uuid) :
    Parallel (World.Alike D S) (getResult env tenant) (getResult env tenant) :=
  (withRegistry_parallel clean fun _ _ _ => rfl).bind fun ticket => (resultOf_blind ticket).parallel

theorem download_parallel {tenant : Uuid}
    (fetch : Parallel (World.Alike D S) (useStorage env .fetch (Storage.fetch tenant))
      (useStorage env .fetch (Storage.fetch tenant))) :
    Parallel (World.Alike D S) (download env tenant) (download env tenant) := fun _ _ alike =>
  download_related (fun answer other => other = answer) (fun _ => rfl)
    (getResult_parallel clean tenant) alike fun _ _ _ _ _ _ => fetch _ _

theorem delete_parallel (tenant : Uuid) :
    Parallel (World.Alike D S) (delete env tenant) (delete env tenant) := by
  refine (getResult_parallel clean tenant).bind fun r => ?_
  cases r.isDone
  · exact .throw _
  · exact (withRegistry_parallel clean fun _ _ _ => rfl).discard

theorem purge_parallel : Parallel (World.Alike D S) (purge env) (purge env) :=
  withRegistry_parallel clean fun _ _ _ => rfl

theorem shutdown_parallel : Parallel (World.Alike D S) (shutdown env) (shutdown env) := by
  have stopped : (shutdownWorker (δ := δ)).Blind := fun _ _ _ => rfl
  exact stopped.parallel.bind fun _ =>
    (withRegistry_parallel clean fun _ _ _ => rfl).followedBy (tendAll_parallel clean)

theorem enter_parallel (id : Uuid) (tenant : Tenant) (skipped : List RecordType) :
    Parallel (World.Alike D S) (enter env id tenant skipped) (enter env id tenant skipped) := by
  refine .get_bind ?_
  rintro w _ ⟨data, storage, rfl, _, _⟩
  refine (register_blind id).parallel.bind fun (ticket, replaced) => ?_
  refine .bind ?_ fun _ => handIn_parallel id ticket _
  show Parallel _ (cleanReplaced env w id replaced) (cleanReplaced env w id replaced)
  unfold cleanReplaced
  split
  next => exact clean id
  next => exact .pure ()

theorem submit_parallel {id : Uuid} (skipped : List RecordType)
    (asks : Parallel (World.Alike D S) (env.ask (.tenant id)) (env.ask (.tenant id))) :
    Parallel (World.Alike D S) (submit env id skipped) (submit env id skipped) := by
  have approves : Parallel (World.Alike D S) (approve env id) (approve env id) := by
    refine asks.bind fun found => ?_
    rcases found with _ | tenant
    · exact .throw _
    · refine (peekResult_blind id).parallel.bind fun previous => .get_bind ?_
      rintro w _ ⟨data, storage, rfl, _, _⟩
      exact (Parallel.settle (verdict env w.worker id previous)).bind fun _ => .pure tenant
  exact approves.bind fun tenant => (enter_parallel clean id tenant skipped).bind fun _ => .pure id

end Clean

section Content

variable {c : Surroundings δ} {ticket : Nat} {tenant : Tenant} {skipped : List RecordType}

theorem onData_alike {act : Act δ α} (h : Parallel D act act) :
    Parallel (World.Alike D S) (World.onData act) (World.onData act) :=
  World.onData_parallel h

variable (e : env.Within c) (respects : c.Respects D) (saves : ∀ type record,
  Parallel S (Storage.save tenant.id type record) (Storage.save tenant.id type record))
include e respects saves

theorem keep_parallel (type : RecordType) (record : Value) : Parallel (World.Alike D S)
    (keep env ticket tenant.id type record) (keep env ticket tenant.id type record) := by
  have reported : (modify fun w => w.report ticket type : Act (World δ) PUnit).Blind :=
    fun _ _ _ => rfl
  refine (useStorage_parallel ?_ (saves type record)).bind fun _ => reported.parallel
  rw [e.save]
  exact onData_alike respects.writing

theorem perform_parallel (call : Call) : Parallel (World.Alike D S)
    ((ports env ticket tenant.id).perform call) ((ports env ticket tenant.id).perform call) := by
  refine perform_related (fun q => ?_) ?_ (keep_parallel e respects saves) call
  · rw [e.ask]
    exact onData_alike (respects.ask q)
  · rw [e.now]
    exact onData_alike respects.now

/-- The content of an export is kept alike, record by record. -/
theorem content_parallel {w v : World δ} (h : World.Alike D S w v) :
    let d := content env tenant skipped
    let collaborators := ports env ticket tenant.id
    ((d.run collaborators).outcome v).1 = ((d.run collaborators).outcome w).1 ∧
      World.Alike D S ((d.run collaborators).outcome w).2
        ((d.run collaborators).outcome v).2 ∧
      d.saved collaborators v = d.saved collaborators w := by
  intro d collaborators
  rw [← Dialogue.answered_nothing d]
  exact Dialogue.run_parallel (fun call _ => perform_parallel e respects saves call) d h

/-- An export goes alike in storages that are prepared, saved to, closed and packed alike. What it
leaves of their relation may depend on its outcome. -/
theorem exportTenant_parallel {R : Storage → Storage → Prop}
    (Q : Except Failure Unit → Storage → Storage → Prop)
    (prepares : ∀ s s', R s s' → S (s.withWorkspace (s.workspace.prepared tenant.id))
      (s'.withWorkspace (s'.workspace.prepared tenant.id)))
    (closes : Parallel S (Storage.close tenant.id) (Storage.close tenant.id))
    (fails : ∀ s s' failure, S s s' → Q (.error failure) s s')
    (packs : ∀ s s', S s s' →
      ((Storage.pack tenant.id).outcome s').1 = ((Storage.pack tenant.id).outcome s).1 ∧
        Q ((Storage.pack tenant.id).outcome s).1 ((Storage.pack tenant.id).outcome s).2
          ((Storage.pack tenant.id).outcome s').2)
    {w v : World δ} (h : World.Alike D R w v) :
    let act := exportTenant env ticket tenant skipped
    (act.outcome v).1 = (act.outcome w).1 ∧
      World.Alike D (Q (act.outcome w).1) (act.outcome w).2 (act.outcome v).2 := by
  have kept : Parallel (World.Alike D S)
      ((content env tenant skipped).run (ports env ticket tenant.id))
      ((content env tenant skipped).run (ports env ticket tenant.id)) := fun w v h =>
    ⟨(content_parallel e respects saves h).1, (content_parallel e respects saves h).2.1⟩
  have closed : Parallel (World.Alike D S) (useStorage env .close (Storage.close tenant.id))
      (useStorage env .close (Storage.close tenant.id)) := by
    refine useStorage_parallel ?_ closes
    rw [e.others .close (by simp) (by simp)]
    exact .pure ()
  have begun : World.Alike D S (w.begun tenant.id) (v.begun tenant.id) := by
    obtain ⟨data, storage, rfl, asked, related⟩ := h
    exact ⟨data, _, rfl, asked, prepares _ _ related⟩
  intro act
  dsimp only [act]
  rw [exportTenant, Act.outcome_bind_ok (outcome_prepare e w tenant.id),
    Act.outcome_bind_ok (outcome_prepare e v tenant.id)]
  obtain ⟨failure, w', v', run, run', staged⟩ | ⟨_, w', v', run, run', staged⟩ :=
    (kept.followedBy closed).cases begun
  · rw [Act.outcome_bind_error run, Act.outcome_bind_error run']
    obtain ⟨data, storage, same, asked, both⟩ := staged
    exact ⟨rfl, data, storage, same, asked, fails _ _ failure both⟩
  rw [Act.outcome_bind_ok run, Act.outcome_bind_ok run']
  clear run'
  obtain ⟨before, storage, rfl, asked, both⟩ := staged
  let v' : World δ := { w' with data := before, storage }
  obtain ⟨failure, data, data', packing, packing', still⟩ |
    ⟨_, data, data', packing, packing', still⟩ := respects.packing.cases asked
  · have refused := outcome_pack_refused (w := v') e packing' tenant.id
    rw [outcome_pack_refused e packing, refused]
    exact ⟨rfl, data', storage, rfl, still, fails _ _ failure both⟩
  · have packed : (useStorage env .pack (Storage.pack tenant.id)).outcome v' = _ :=
      outcome_useStorage_ok e.pack packing'
    rw [outcome_useStorage_ok e.pack packing, packed]
    obtain ⟨answer, left⟩ := packs _ _ both
    exact ⟨answer, data', _, rfl, still, left⟩

end Content

theorem runExport_parallel {ticket : Nat} {tenant : Tenant} {skipped : List RecordType}
    (exports : Parallel (World.Alike D S) (exportTenant env ticket tenant skipped)
      (exportTenant env ticket tenant skipped)) :
    Parallel (World.Alike D S) (runExport env ticket tenant skipped)
      (runExport env ticket tenant skipped) := by
  refine (markResult_blind ticket .running).parallel.bind fun _ => ?_
  refine .followedBy ?_ (touch_blind tenant.id ticket).parallel
  exact exports.attempt.bind fun result => (markResult_blind ticket (.ofOutcome result)).parallel

theorem runNext_parallel (exports : ∀ ticket tenant skipped, Parallel (World.Alike D S)
      (exportTenant env ticket tenant skipped) (exportTenant env ticket tenant skipped)) :
    Parallel (World.Alike D S) (runNext env) (runNext env) := by
  refine .get_bind ?_
  rintro w _ ⟨data, storage, rfl, hD, hS⟩
  dsimp only
  rcases w.worker.start? with _ | ⟨place, task, worker⟩
  · exact .pure none
  · have started : World.Alike D S { w with worker } { w with data, storage, worker } :=
      ⟨data, storage, rfl, hD, hS⟩
    have task_parallel : Parallel (World.Alike D S) (runTask env task) (runTask env task) := by
      cases task with
      | filler => exact .pure ()
      | job ticket tenant skipped => exact runExport_parallel (exports ticket tenant skipped)
    have finished : (modify fun w => { w with worker := w.worker.setPhase place .finished } :
        Act (World δ) PUnit).Blind := fun _ _ _ => rfl
    exact (Parallel.set started).bind fun _ => task_parallel.attempt.bind fun outcome =>
      finished.parallel.bind fun _ => .pure (some outcome)

end Service

end Handover
