import Handover.Proofs.Orderly

namespace Handover

open Act

variable {δ : Type}

/-- A job that the worker is running. -/
structure Running where
  place : Nat
  ticket : Nat
  tenant : Tenant
  deriving Repr

/-- How far the worker is with a job: its export goes on, its result is marked, or the time of its
result has started anew. -/
inductive Duty where
  | idle
  | exporting (job : Running)
  | marked (job : Running)
  | touched (job : Running)
  deriving Repr

/-- A service and what its worker is doing. -/
structure Session (δ : Type) where
  world : World δ
  duty : Duty

/-- What a running job does with its surroundings at a time. -/
inductive Effort where
  | prepare
  | call (call : Call)
  | close
  | pack
  deriving Repr

/-- What happens next in a session. -/
inductive Move where
  | request (op : Operation)
  | start
  | effort (effort : Effort)
  | mark (outcome : Except Failure Unit)
  | touch
  | leave

/-- A move is a request to the service, or it belongs to the worker alone; running a whole job is
no request. -/
theorem Move.request_or (move : Move) :
    (∃ op, op ≠ .run ∧ move = .request op) ∨ ∀ op, move = .request op → op = .run := by
  by_cases asked : ∃ op, op ≠ .run ∧ move = .request op
  · exact .inl asked
  · refine .inr fun op same => ?_
    by_cases hop : op = .run
    · exact hop
    · exact absurd ⟨op, hop, same⟩ asked

open Service

def Effort.act (env : Environment δ) (ticket : Nat) (tenant : Uuid) : Effort → Act (World δ) Unit
  | .prepare => useStorage env .prepare (Storage.prepare tenant)
  | .call wanted => discard ((ports env ticket tenant).perform wanted)
  | .close => useStorage env .close (Storage.close tenant)
  | .pack => useStorage env .pack (Storage.pack tenant)

namespace Session

/-- A session after a move. A job is started when the worker is idle, and what a job does happens
in its order only; running a whole job is no single move. -/
def step (env : Environment δ) (s : Session δ) : Move → Session δ
  | .request .run => s
  | .request op => { s with world := Service.after env s.world op }
  | .start =>
    match s.duty, s.world.worker.start? with
    | .idle, some (place, .job ticket tenant _, worker) =>
      ⟨World.started { s.world with worker } ticket, .exporting ⟨place, ticket, tenant⟩⟩
    | _, _ => s
  | .effort effort =>
    match s.duty with
    | .exporting job =>
      { s with world := ((effort.act env job.ticket job.tenant.id).outcome s.world).2 }
    | _ => s
  | .mark outcome =>
    match s.duty with
    | .exporting job =>
      ⟨((markResult job.ticket (.ofOutcome outcome)).outcome s.world).2, .marked job⟩
    | _ => s
  | .touch =>
    match s.duty with
    | .marked job => ⟨((Service.touch job.tenant.id job.ticket).outcome s.world).2, .touched job⟩
    | _ => s
  | .leave =>
    match s.duty with
    | .touched job =>
      ⟨{ s.world with worker := s.world.worker.setPhase job.place .finished }, .idle⟩
    | _ => s

/-- A session after some moves. -/
def after (env : Environment δ) (s : Session δ) (moves : List Move) : Session δ :=
  moves.foldl (step env) s

variable {env : Environment δ} {s : Session δ}

theorem step_request {op : Operation} (h : op ≠ .run) :
    step env s (.request op) = ⟨Service.after env s.world op, s.duty⟩ := by
  cases op with
  | run => exact absurd rfl h
  | _ => rfl

theorem step_effort (env : Environment δ) (s : Session δ) (effort : Effort) :
    step env s (.effort effort) = s ∨ ∃ job, s.duty = .exporting job ∧
      step env s (.effort effort) =
        ⟨((effort.act env job.ticket job.tenant.id).outcome s.world).2, .exporting job⟩ := by
  unfold step
  cases s.duty with
  | exporting job => exact .inr ⟨job, rfl, rfl⟩
  | _ => exact .inl rfl

theorem step_mark (env : Environment δ) (s : Session δ) (outcome : Except Failure Unit) :
    step env s (.mark outcome) = s ∨ ∃ job, s.duty = .exporting job ∧
      step env s (.mark outcome) =
        ⟨((markResult job.ticket (.ofOutcome outcome)).outcome s.world).2, .marked job⟩ := by
  unfold step
  cases s.duty with
  | exporting job => exact .inr ⟨job, rfl, rfl⟩
  | _ => exact .inl rfl

theorem step_touch_marked {job : Running} (duty : s.duty = .marked job) :
    step env s .touch = ⟨{ s.world with registry :=
      (s.world.registry.touch s.world.time job.tenant.id job.ticket).2 }, .touched job⟩ := by
  rw [step, duty]
  rfl

theorem step_touch (env : Environment δ) (s : Session δ) :
    step env s .touch = s ∨ ∃ job, s.duty = .marked job ∧ step env s .touch =
      ⟨{ s.world with registry :=
        (s.world.registry.touch s.world.time job.tenant.id job.ticket).2 }, .touched job⟩ := by
  cases duty : s.duty with
  | marked job => exact .inr ⟨job, rfl, step_touch_marked duty⟩
  | _ =>
    rw [step, duty]
    exact .inl rfl

theorem step_leave (env : Environment δ) (s : Session δ) :
    step env s .leave = s ∨ ∃ job, s.duty = .touched job ∧ step env s .leave =
      ⟨{ s.world with worker := s.world.worker.setPhase job.place .finished }, .idle⟩ := by
  unfold step
  cases s.duty with
  | touched job => exact .inr ⟨job, rfl, rfl⟩
  | _ => exact .inl rfl

theorem after_append (env : Environment δ) (s : Session δ) (moves more : List Move) :
    after env s (moves ++ more) = after env (after env s moves) more :=
  List.foldl_append

end Session

/-- Whether the result of the job on duty is as far as the job itself. -/
def World.Serves (w : World δ) : Duty → Prop
  | .exporting job => ∃ r, w.result? job.ticket = some r ∧ r.status = .running ∧
      r.tenant = job.tenant.id
  | .marked job => ∃ r, w.result? job.ticket = some r ∧ r.isDone = true ∧ r.tenant = job.tenant.id
  | _ => True

theorem World.Serves.of_results {w w' : World δ} {duty : Duty} (h : w.Serves duty)
    (old : ∀ ticket r, w.result? ticket = some r → w'.result? ticket = some r) :
    w'.Serves duty := by
  cases duty with
  | exporting job =>
    obtain ⟨r, hr, fields⟩ := h
    exact ⟨r, old job.ticket r hr, fields⟩
  | marked job =>
    obtain ⟨r, hr, fields⟩ := h
    exact ⟨r, old job.ticket r hr, fields⟩
  | _ => trivial

/-- A world after something a job does: the registry is the same, and so is every result that is
done. -/
structure World.Works (w w' : World δ) : Prop where
  registry : w'.registry = w.registry
  time : w'.time = w.time
  ended : ∀ ticket r, w.result? ticket = some r → r.isDone = true → w'.result? ticket = some r

theorem World.Works.of_rewrites {w w' : World δ} {ticket : Nat} (rewrites : w.Rewrites ticket w')
    {r : JobResult} (hr : w.result? ticket = some r) (unfinished : r.isDone = false) :
    w.Works w' where
  registry := rewrites.registry
  time := rewrites.time
  ended other r' hr' done := by
    have hne : other ≠ ticket := by
      rintro rfl
      cases hr.symm.trans hr'
      exact nomatch unfinished.symm.trans done
    exact (rewrites.others other hne).trans hr'

theorem World.result?_marked {w : World δ} {ticket : Nat} {r : JobResult}
    (hr : w.result? ticket = some r) (r' : JobResult) :
    (w.marked ticket r').result? ticket = some r' :=
  List.getElem?_set_self (List.getElem?_eq_some_iff.mp hr).1

theorem World.result?_started {w : World δ} {ticket : Nat} {tenant : Uuid} {moment : Instant}
    (h : w.result? ticket = some (.submitted tenant moment)) :
    (w.started ticket).result? ticket = some { JobResult.submitted tenant moment with
      status := .running, startedAt := some w.clock.now } := by
  rw [(started_eq h).2]
  exact result?_marked h _

namespace Service

variable {env : Environment δ} {w : World δ}

theorem effort_amid (e : env.Apart) (w₀ : World δ) (ticket : Nat) (tenant : Uuid)
    (effort : Effort) : Preserves (w₀.Amid ticket) (effort.act env ticket tenant) := by
  cases effort with
  | prepare => exact useStorage_amid e .prepare (Storage.staged_keepsFaults _)
  | call wanted => exact (perform_preserves e onData_amid (keep_amid e tenant) wanted).discard
  | close => exact useStorage_amid e .close (Storage.staged_keepsFaults _)
  | pack =>
    exact useStorage_amid e .pack (Storage.either_keepsFaults fun _ =>
      RemoteStorage.pack_faulty tenant)

end Service

namespace Session

variable {env : Environment δ} {s : Session δ}

/-- A session in which registry, queue and results belong together, also those of the job on
duty. -/
structure Orderly (s : Session δ) : Prop where
  world : s.world.Orderly
  serves : s.world.Serves s.duty

theorem Orderly.idle {w : World δ} (h : w.Orderly) : Orderly ⟨w, .idle⟩ :=
  ⟨h, trivial⟩

theorem Orderly.exporting (h : s.Orderly) {job : Running} (duty : s.duty = .exporting job) :
    ∃ r, s.world.result? job.ticket = some r ∧ r.status = .running ∧ r.tenant = job.tenant.id := by
  have serves := h.serves
  rwa [duty] at serves

theorem Orderly.marked (h : s.Orderly) {job : Running} (duty : s.duty = .marked job) :
    ∃ r, s.world.result? job.ticket = some r ∧ r.isDone = true ∧ r.tenant = job.tenant.id := by
  have serves := h.serves
  rwa [duty] at serves

/-- A job that waits is not the one on duty. -/
theorem Orderly.apart (h : s.Orderly) {job : Running} (duty : s.duty = .exporting job) :
    ∀ number owner other, .job number owner other ∈ s.world.worker.waiting →
      number ≠ job.ticket := by
  rintro number owner other hm rfl
  obtain ⟨r, hr, running, _⟩ := h.exporting duty
  obtain ⟨moment, waiting⟩ := h.world.queued job.ticket owner other hm
  cases hr.symm.trans waiting
  cases running

/-- What a start does: nothing, or the oldest job that waits is on duty from then on. -/
theorem Orderly.step_start (env : Environment δ) (h : s.Orderly) : step env s .start = s ∨
    ∃ place ticket tenant moment, s.world.result? ticket = some (.submitted tenant.id moment) ∧
      (∀ number owner other, .job number owner other ∈
        (s.world.worker.setPhase place .running).waiting → number ≠ ticket) ∧
      step env s .start = ⟨World.started
        { s.world with worker := s.world.worker.setPhase place .running } ticket,
        .exporting ⟨place, ticket, tenant⟩⟩ := by
  unfold step
  cases s.duty with
  | idle =>
    cases front : s.world.worker.waiting with
    | nil =>
      rw [Worker.start?_nil front]
      exact .inl rfl
    | cons task rest =>
      obtain ⟨place, start, others⟩ := Worker.start?_front front
      rw [start]
      cases task with
      | filler => exact absurd (front ▸ List.mem_cons_self) h.world.exports
      | job ticket tenant skipped =>
        obtain ⟨moment, waited⟩ :=
          h.world.queued ticket tenant skipped (front ▸ List.mem_cons_self)
        refine .inr ⟨place, ticket, tenant, moment, waited, fun number owner other hm => ?_, rfl⟩
        rw [others .running (by simp)] at hm
        exact h.world.later front number owner other hm
  | _ => exact .inl rfl

theorem Orderly.start (h : s.Orderly) : (step env s .start).Orderly := by
  rcases h.step_start env with same | ⟨place, ticket, tenant, moment, waited, apart, same⟩
  · rw [same]
    exact h
  · let v : World δ := { s.world with worker := s.world.worker.setPhase place .running }
    have queued : v.result? ticket = some (.submitted tenant.id moment) := waited
    have dequeued : v.Orderly :=
      h.world.dequeued rfl (s.world.worker.setPhase_waiting place (by simp))
    rw [same]
    exact ⟨dequeued.rewrites (markResult_rewrites v ticket .running) apart,
      _, World.result?_started queued, rfl, rfl⟩

theorem Orderly.effort (e : env.Apart) (h : s.Orderly) (effort : Effort) :
    (step env s (.effort effort)).Orderly := by
  rcases step_effort env s effort with same | ⟨job, duty, same⟩
  · rw [same]
    exact h
  · have amid := effort_amid e s.world job.ticket job.tenant.id effort s.world (.refl _ _)
    obtain ⟨r, hr, running, howner⟩ := h.exporting duty
    obtain ⟨⟨rows, counted⟩, _⟩ := id amid
    obtain ⟨status, owner⟩ := r.reported_fields rows
    rw [same]
    refine ⟨h.world.rewrites (.of_amid amid) (h.apart duty), r.reported rows, ?_,
      status.trans running, owner.trans howner⟩
    rw [World.result?, counted.results, List.getElem?_modify_eq]
    exact congrArg (Option.map _) hr

theorem Orderly.mark (h : s.Orderly) (outcome : Except Failure Unit) :
    (step env s (.mark outcome)).Orderly := by
  rcases step_mark env s outcome with same | ⟨job, duty, same⟩
  · rw [same]
    exact h
  · obtain ⟨r, hr, running, howner⟩ := h.exporting duty
    have marked := outcome_markResult hr (ofOutcome_accepted running outcome s.world.clock.now)
    have rewrites := markResult_rewrites s.world job.ticket (.ofOutcome outcome)
    rw [marked] at rewrites
    rw [same, marked]
    refine ⟨h.world.rewrites rewrites (h.apart duty), _, World.result?_marked hr _, ?_, howner⟩
    cases outcome <;> rfl

theorem Orderly.touch (h : s.Orderly) : (step env s .touch).Orderly := by
  rcases step_touch env s with same | ⟨job, duty, same⟩
  · rw [same]
    exact h
  · rw [same]
    refine ⟨h.world.sheds (.of_same _ (h.world.registry.touch _ _ _) (fun other => ?_) (.refl _)),
      trivial⟩
    exact Registry.touch_value? ..

theorem Orderly.leave (h : s.Orderly) : (step env s .leave).Orderly := by
  rcases step_leave env s with same | ⟨job, duty, same⟩
  · rw [same]
    exact h
  · rw [same]
    exact .idle (h.world.dequeued rfl (s.world.worker.setPhase_waiting job.place (by simp)))

theorem Orderly.request (e : env.Apart) (cleans : env.CleansUp) (finds : env.FindsTenants)
    (h : s.Orderly) (op : Operation) : (step env s (.request op)).Orderly := by
  by_cases hop : op = .run
  · subst hop
    exact h
  · have serves : World.Serves (Service.after env s.world op) s.duty :=
      h.serves.of_results fun ticket r hr => request_result e cleans finds h.world hop hr
    rw [step_request hop]
    exact ⟨request_orderly e cleans finds h.world hop, serves⟩

/-- What happens next if no request is made: something that a job does, or the time of the result of
a job that is marked starts anew. -/
theorem Orderly.work_cases (e : env.Apart) (h : s.Orderly) {move : Move}
    (unasked : ∀ op, move = .request op → op = .run) :
    s.world.Works (step env s move).world ∧ (∀ job, (step env s move).duty = .marked job →
        s.duty = .marked job ∨ s.duty = .exporting job) ∨
      ∃ job, s.duty = .marked job ∧ step env s move = ⟨{ s.world with registry :=
        (s.world.registry.touch s.world.time job.tenant.id job.ticket).2 }, .touched job⟩ := by
  have still : step env s move = s → s.world.Works (step env s move).world ∧
      ∀ job, (step env s move).duty = .marked job →
        s.duty = .marked job ∨ s.duty = .exporting job := by
    intro same
    rw [same]
    exact ⟨⟨rfl, rfl, fun _ _ hr _ => hr⟩, fun _ => .inl⟩
  cases move with
  | request op =>
    cases unasked op rfl
    exact .inl (still rfl)
  | start =>
    rcases h.step_start env with same | ⟨place, ticket, tenant, moment, waited, _, same⟩
    · exact .inl (still same)
    · have rewrites := markResult_rewrites
        { s.world with worker := s.world.worker.setPhase place .running } ticket .running
      obtain ⟨registry, time, ended⟩ := World.Works.of_rewrites rewrites waited rfl
      rw [same]
      exact .inl ⟨⟨registry, time, ended⟩, nofun⟩
  | effort effort =>
    rcases step_effort env s effort with same | ⟨job, duty, same⟩
    · exact .inl (still same)
    · have amid := effort_amid e s.world job.ticket job.tenant.id effort s.world (.refl _ _)
      obtain ⟨r, hr, running, _⟩ := h.exporting duty
      rw [same]
      exact .inl ⟨.of_rewrites (.of_amid amid) hr (JobResult.isDone_of running), nofun⟩
  | mark outcome =>
    rcases step_mark env s outcome with same | ⟨job, duty, same⟩
    · exact .inl (still same)
    · have rewrites := markResult_rewrites s.world job.ticket (.ofOutcome outcome)
      obtain ⟨r, hr, running, _⟩ := h.exporting duty
      rw [same]
      refine .inl ⟨.of_rewrites rewrites hr (JobResult.isDone_of running), ?_⟩
      rintro job' ⟨⟩
      exact .inr duty
  | touch =>
    rcases step_touch env s with same | touched
    · exact .inl (still same)
    · exact .inr touched
  | leave =>
    rcases step_leave env s with same | ⟨job, _, same⟩
    · exact .inl (still same)
    · rw [same]
      exact .inl ⟨⟨rfl, rfl, fun _ _ hr _ => hr⟩, nofun⟩

/-- Every move keeps a session orderly. -/
theorem Orderly.step (e : env.Apart) (cleans : env.CleansUp) (finds : env.FindsTenants)
    (h : s.Orderly) (move : Move) : (step env s move).Orderly := by
  cases move with
  | request op => exact h.request e cleans finds op
  | start => exact h.start
  | effort effort => exact h.effort e effort
  | mark outcome => exact h.mark outcome
  | touch => exact h.touch
  | leave => exact h.leave

/-- What every move keeps up in an orderly session, all its moves keep up. -/
theorem Orderly.invariant {P : Session δ → Prop} (e : env.Apart) (cleans : env.CleansUp)
    (finds : env.FindsTenants)
    (next : ∀ t : Session δ, t.Orderly → P t → ∀ move, P (Session.step env t move))
    (h : s.Orderly) (hs : P s) (moves : List Move) :
    (after env s moves).Orderly ∧ P (after env s moves) := by
  induction moves generalizing s with
  | nil => exact ⟨h, hs⟩
  | cons move rest ih => exact ih (h.step e cleans finds move) (next s h hs move)

theorem Orderly.after (e : env.Apart) (cleans : env.CleansUp) (finds : env.FindsTenants)
    (h : s.Orderly) (moves : List Move) : (after env s moves).Orderly :=
  (h.invariant (P := fun _ => True) e cleans finds (fun _ _ _ _ => trivial) trivial moves).1

/-- Whether a job on duty comes from one world to another one by its efforts. -/
def Reaches (env : Environment δ) (job : Running) (w w' : World δ) : Prop :=
  ∃ efforts : List Effort,
    after env ⟨w, .exporting job⟩ (efforts.map .effort) = ⟨w', .exporting job⟩

theorem effort_reaches (job : Running) (w₀ : World δ) (effort : Effort) :
    Preserves (Reaches env job w₀) (effort.act env job.ticket job.tenant.id) := by
  rintro w ⟨efforts, reached⟩
  refine ⟨efforts ++ [effort], ?_⟩
  rw [List.map_append, after_append, reached]
  rfl

/-- An export is a sequence of efforts. -/
theorem exportTenant_reaches (env : Environment δ) (job : Running) (w₀ : World δ)
    (skipped : List RecordType) :
    Preserves (Reaches env job w₀) (exportTenant env job.ticket job.tenant skipped) := by
  have perform : ∀ wanted, Preserves (Reaches env job w₀)
      ((ports env job.ticket job.tenant.id).perform wanted) := by
    intro wanted w hw
    have reached := effort_reaches job w₀ (.call wanted) w hw
    rwa [Effort.act, outcome_discard] at reached
  have run := Dialogue.run_preserves perform (content env job.tenant skipped)
  exact (effort_reaches job w₀ .prepare).bind fun _ =>
    (run.followedBy (effort_reaches job w₀ .close)).bind fun _ => effort_reaches job w₀ .pack

/-- Running a job to its end is one of the things that may happen in a session. -/
theorem run_moves (env : Environment δ) {w : World δ} (h : w.Fresh) :
    ∃ moves, after env ⟨w, .idle⟩ moves = ⟨Service.after env w .run, .idle⟩ := by
  cases front : w.worker.waiting with
  | nil =>
    refine ⟨[], ?_⟩
    rw [Service.after, outcome_runNext_idle front]
    rfl
  | cons task rest =>
    obtain ⟨place, start, _⟩ := Worker.start?_front front
    obtain ⟨ticket, tenant, skipped, owner, moment, rfl, waited⟩ :=
      h task (front ▸ List.mem_cons_self)
    let job : Running := ⟨place, ticket, tenant⟩
    let v : World δ := { w with worker := w.worker.setPhase place .running }
    have begun : (markResult ticket .running).outcome v = (.ok (), v.started ticket) :=
      (started_eq (w := v) waited).1
    rcases run : (exportTenant env ticket tenant skipped).outcome (v.started ticket) with
      ⟨outcome, w₂⟩
    have reached := exportTenant_reaches env job (v.started ticket) skipped
      (v.started ticket) ⟨[], rfl⟩
    rw [run] at reached
    obtain ⟨efforts, reached⟩ := reached
    have started : step env ⟨w, .idle⟩ .start = ⟨v.started ticket, .exporting job⟩ := by
      rw [step, start]
    have ended : ((runTask env (.job ticket tenant skipped)).outcome v).2 =
        ((Service.touch tenant.id ticket).outcome
          ((markResult ticket (.ofOutcome outcome)).outcome w₂).2).2 := by
      rw [runTask, runExport, outcome_bind_ok begun, outcome_followedBy_state, finishExport,
        outcome_bind_ok (outcome_attempt _ _), run]
    rcases ran : (runTask env (.job ticket tenant skipped)).outcome v with ⟨result, w'⟩
    rw [ran] at ended
    obtain rfl : w' = _ := ended
    -- The efforts end where the export does; marking, touching and leaving follow in both.
    refine ⟨.start :: efforts.map .effort ++ [.mark outcome, .touch, .leave], ?_⟩
    show after env (step env ⟨w, .idle⟩ .start) (efforts.map .effort ++ _) = _
    rw [started, after_append, reached, Service.after, outcome_runNext start ran]
    rfl

/-- Every course is a session in which no request comes while a job runs. -/
theorem course_moves (e : env.Apart) (cleans : env.CleansUp) (finds : env.FindsTenants)
    {w : World δ} (h : w.Orderly) (ops : List Operation) :
    ∃ moves, after env ⟨w, .idle⟩ moves = ⟨ops.foldl (Service.after env) w, .idle⟩ := by
  induction ops generalizing w with
  | nil => exact ⟨[], rfl⟩
  | cons op rest ih =>
    obtain ⟨moves, reached⟩ : ∃ moves, after env ⟨w, .idle⟩ moves =
        ⟨Service.after env w op, .idle⟩ := by
      by_cases hop : op = .run
      · subst hop
        exact run_moves env h.fresh
      · exact ⟨[.request op], step_request hop⟩
    have orderly := (Orderly.idle h).after e cleans finds moves
    rw [reached] at orderly
    obtain ⟨more, further⟩ := ih orderly.world
    refine ⟨moves ++ more, ?_⟩
    rw [after_append, reached, further]
    rfl

end Session

end Handover
