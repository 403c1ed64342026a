import Handover.Proofs.Session
import Mathlib.Logic.Function.Iterate

namespace Handover

variable {δ σ α : Type}

/-- What is left of a job that has been started: its folder is to be prepared, records of its content
are to be saved, its files are to be packed, its result is to end, or it has only to leave. -/
inductive Rest where
  | prepare (skipped : List RecordType)
  | save (content : Dialogue Unit)
  | pack
  | finish (outcome : Except Failure Unit)
  | leave

/-- A service and the job that its worker is going through. -/
structure Bench (δ : Type) where
  world : World δ
  work : Option (Running × Rest)

/-- Whose turn it is: somebody makes a request, or the worker does the next thing. -/
inductive Turn where
  | request (op : Operation)
  | work
  deriving Repr

open Service

namespace Rest

/-- Does something, and tells what is left then. -/
def follow (act : Act σ α) (left : Except Failure α → Rest) (s : σ) : Rest × σ :=
  (left (act.outcome s).1, (act.outcome s).2)

def prepared (content : Dialogue Unit) : Except Failure Unit → Rest
  | .ok () => save content
  | .error failure => finish (.error failure)

def replied (next : α → Dialogue Unit) : Except Failure α → Rest
  | .ok reply => save (next reply)
  | .error failure => save (.failed failure)

/-- What is left when the files are closed: they are packed if all records have been saved. -/
def closed (saved : Except Failure Unit) : Except Failure Unit → Rest
  | .ok () =>
    match saved with
    | .ok () => pack
    | .error failure => finish (.error failure)
  | .error failure => finish (.error failure)

/-- The next thing that a job does. The time of its result starts anew at the moment at which the
result ends. -/
def go (env : Environment δ) (job : Running) : Rest → World δ → Rest × World δ
  | prepare skipped =>
    follow (useStorage env .prepare (Storage.prepare job.tenant.id))
      (prepared (content env job.tenant skipped))
  | save (.call c next) => follow ((ports env job.ticket job.tenant.id).perform c) (replied next)
  | save (.done ()) =>
    follow (useStorage env .close (Storage.close job.tenant.id)) (closed (.ok ()))
  | save (.failed failure) =>
    follow (useStorage env .close (Storage.close job.tenant.id)) (closed (.error failure))
  | pack => follow (useStorage env .pack (Storage.pack job.tenant.id)) finish
  | finish outcome =>
    follow ((markResult job.ticket (.ofOutcome outcome)).followedBy (touch job.tenant.id job.ticket))
      fun _ => leave
  | leave => fun w => (leave, w)

/-- What is left of the export of a job. -/
def remaining (env : Environment δ) (job : Running) : Rest → Act (World δ) Unit
  | prepare skipped => exportTenant env job.ticket job.tenant skipped
  | save content => do
    (content.run (ports env job.ticket job.tenant.id)).followedBy
      (useStorage env .close (Storage.close job.tenant.id))
    useStorage env .pack (Storage.pack job.tenant.id)
  | pack => useStorage env .pack (Storage.pack job.tenant.id)
  | finish outcome => Act.settle outcome
  | leave => pure ()

end Rest

namespace Bench

def admits (s : Bench δ) : Operation → Bool
  | .run => s.work.isNone
  | _ => true

/-- The worker does the next thing: it starts a job when it has none. -/
def proceed (env : Environment δ) (s : Bench δ) : Bench δ :=
  match s.work with
  | none =>
    match s.world.worker.start? with
    | some (place, .job ticket tenant skipped, worker) =>
      ⟨World.started { s.world with worker } ticket,
        some (⟨place, ticket, tenant⟩, .prepare skipped)⟩
    | _ => s
  | some (job, .leave) =>
    ⟨{ s.world with worker := s.world.worker.setPhase job.place .finished }, none⟩
  | some (job, rest) =>
    ⟨(rest.go env job s.world).2, some (job, (rest.go env job s.world).1)⟩

/-- A service after a turn. A job can be run at a stroke only when the worker has none. -/
def turn (env : Environment δ) (s : Bench δ) : Turn → Bench δ
  | .request op => if s.admits op then { s with world := Service.after env s.world op } else s
  | .work => s.proceed env

def duty : Option (Running × Rest) → Duty
  | none => .idle
  | some (job, .leave) => .touched job
  | some (job, _) => .exporting job

def session (s : Bench δ) : Session δ :=
  ⟨s.world, duty s.work⟩

end Bench

namespace Rest

variable {env : Environment δ} {job : Running}

/-- What is left of an export is that before a step. -/
theorem remaining_prepare (env : Environment δ) (job : Running) (skipped : List RecordType)
    (w : World δ) :
    let left := (prepare skipped).go env job w
    ((prepare skipped).remaining env job).outcome w = (left.1.remaining env job).outcome left.2 := by
  simp only [go, follow, remaining]
  rcases run : (useStorage env .prepare (Storage.prepare job.tenant.id)).outcome w with
    ⟨failure | _, w'⟩
  · rw [exportTenant, Act.outcome_bind_error run]
    rfl
  · rw [exportTenant, Act.outcome_bind_ok run]
    rfl

theorem remaining_call (env : Environment δ) (job : Running) (c : Call)
    (next : c.Reply → Dialogue Unit) (w : World δ) :
    let left := (save (.call c next)).go env job w
    ((save (.call c next)).remaining env job).outcome w =
      (left.1.remaining env job).outcome left.2 := by
  have first : ∀ (act act' : Act (World δ) Unit) (last : Act (World δ) Unit)
      (rest : Unit → Act (World δ) Unit) (w w' : World δ), act.outcome w = act'.outcome w' →
      (act.followedBy last >>= rest).outcome w = (act'.followedBy last >>= rest).outcome w' := by
    intro act act' last rest w w' same
    simp only [Act.outcome_bind, Act.followedBy, Act.outcome_ofOutcome, same]
  simp only [go, follow, remaining]
  rcases run : ((ports env job.ticket job.tenant.id).perform c).outcome w with ⟨failure | reply, w'⟩
  · refine first _ _ _ _ w w' ?_
    rw [Dialogue.outcome_run_call_error run, Dialogue.outcome_run_failed]
  · refine first _ _ _ _ w w' ?_
    rw [Dialogue.outcome_run_call_ok run]

theorem remaining_closed (env : Environment δ) (job : Running) (saved : Except Failure Unit)
    (w : World δ) :
    let left := follow (useStorage env .close (Storage.close job.tenant.id)) (closed saved) w
    ((Act.settle saved).followedBy (useStorage env .close (Storage.close job.tenant.id)) >>=
      fun _ => useStorage env .pack (Storage.pack job.tenant.id)).outcome w =
        (left.1.remaining env job).outcome left.2 := by
  simp only [follow]
  rcases run : (useStorage env .close (Storage.close job.tenant.id)).outcome w with
    ⟨failure | _, w'⟩
  · rw [Act.outcome_bind_error (by
      rw [Act.followedBy, Act.outcome_ofOutcome, Act.outcome_settle]
      dsimp only
      rw [run])]
    rfl
  · have ended : ((Act.settle saved).followedBy
        (useStorage env .close (Storage.close job.tenant.id))).outcome w = (saved, w') :=
      Act.outcome_followedBy run
    rcases saved with failure | _
    · rw [Act.outcome_bind_error ended]
      rfl
    · rw [Act.outcome_bind_ok ended]
      rfl

end Rest

namespace Bench

variable {env : Environment δ} {s : Bench δ}

theorem proceed_go (env : Environment δ) {job : Running} (rest : Rest) (h : rest ≠ .leave)
    (w : World δ) : proceed env ⟨w, some (job, rest)⟩ =
      ⟨(rest.go env job w).2, some (job, (rest.go env job w).1)⟩ := by
  cases rest with
  | leave => exact absurd rfl h
  | _ => rfl

/-- Whether the worker gets to the end of what is left of an export, and with the same outcome. -/
def Ends (env : Environment δ) (job : Running) (rest : Rest) (w : World δ) : Prop :=
  ∃ turns, (proceed env)^[turns] ⟨w, some (job, rest)⟩ =
    ⟨((rest.remaining env job).outcome w).2,
      some (job, .finish ((rest.remaining env job).outcome w).1)⟩

theorem Ends.of_go {job : Running} {w : World δ} (rest : Rest) (h : rest ≠ .leave)
    (same : (rest.remaining env job).outcome w =
      ((rest.go env job w).1.remaining env job).outcome (rest.go env job w).2)
    (further : Ends env job (rest.go env job w).1 (rest.go env job w).2) :
    Ends env job rest w := by
  obtain ⟨turns, ended⟩ := further
  refine ⟨turns + 1, ?_⟩
  rw [Function.iterate_succ_apply, proceed_go env rest h, ended, same]

theorem finish_ends (env : Environment δ) (job : Running) (outcome : Except Failure Unit)
    (w : World δ) : Ends env job (.finish outcome) w :=
  ⟨0, rfl⟩

theorem pack_ends (env : Environment δ) (job : Running) (w : World δ) :
    Ends env job .pack w :=
  .of_go .pack nofun rfl (finish_ends env job _ _)

theorem closed_ends (env : Environment δ) (job : Running) (saved : Except Failure Unit)
    (w : World δ) :
    let left :=
      Rest.follow (useStorage env .close (Storage.close job.tenant.id)) (Rest.closed saved) w
    Ends env job left.1 left.2 := by
  simp only [Rest.follow]
  rcases ((useStorage env .close (Storage.close job.tenant.id)).outcome w).1 with failure | _
  · exact finish_ends env job _ _
  · rcases saved with failure | _
    · exact finish_ends env job _ _
    · exact pack_ends env job _

/-- The content of an export is saved call by call. -/
theorem save_ends (env : Environment δ) (job : Running) (content : Dialogue Unit) (w : World δ) :
    Ends env job (.save content) w := by
  have failed : ∀ failure w, Ends env job (.save (.failed failure)) w := fun failure w =>
    .of_go (.save (.failed failure)) nofun
      (Rest.remaining_closed env job (.error failure) w) (closed_ends env job _ w)
  induction content generalizing w with
  | done a =>
    exact .of_go (.save (.done a)) nofun (Rest.remaining_closed env job (.ok ()) w)
      (closed_ends env job _ w)
  | failed failure => exact failed failure w
  | call c next ih =>
    refine .of_go (.save (.call c next)) nofun (Rest.remaining_call env job c next w) ?_
    simp only [Rest.go, Rest.follow]
    rcases (((ports env job.ticket job.tenant.id).perform c).outcome w).1 with failure | reply
    · exact failed failure _
    · exact ih reply _

theorem prepare_ends (env : Environment δ) (job : Running) (skipped : List RecordType)
    (w : World δ) : Ends env job (.prepare skipped) w := by
  refine .of_go (.prepare skipped) nofun (Rest.remaining_prepare env job skipped w) ?_
  simp only [Rest.go, Rest.follow]
  rcases ((useStorage env .prepare (Storage.prepare job.tenant.id)).outcome w).1 with failure | _
  · exact finish_ends env job _ _
  · exact save_ends env job _ _

/-- A worker that goes through a job turn by turn comes to the same as one that runs it at a
stroke. -/
theorem turns_run (env : Environment δ) {w : World δ} (h : w.Fresh) :
    ∃ turns, (proceed env)^[turns] ⟨w, none⟩ = ⟨Service.after env w .run, none⟩ := by
  cases front : w.worker.waiting with
  | nil =>
    refine ⟨0, ?_⟩
    rw [Service.after, outcome_runNext_idle front]
    rfl
  | cons task rest =>
    obtain ⟨place, start, _⟩ := Worker.start?_front front
    obtain ⟨ticket, tenant, skipped, owner, moment, rfl, waited⟩ :=
      h task (front ▸ List.mem_cons_self)
    let job : Running := ⟨place, ticket, tenant⟩
    let v : World δ := { w with worker := w.worker.setPhase place .running }
    have begun : (markResult ticket .running).outcome v = (.ok (), v.started ticket) :=
      (started_eq (w := v) waited).1
    have started : proceed env ⟨w, none⟩ =
        ⟨v.started ticket, some (job, .prepare skipped)⟩ := by
      rw [proceed]
      dsimp only
      rw [start]
    obtain ⟨turns, reached⟩ := prepare_ends env job skipped (v.started ticket)
    rcases run : (exportTenant env ticket tenant skipped).outcome (v.started ticket) with
      ⟨outcome, w₂⟩
    rw [show (Rest.prepare skipped).remaining env job =
      exportTenant env ticket tenant skipped from rfl, run] at reached
    have ended : ((runTask env (.job ticket tenant skipped)).outcome v).2 =
        (((markResult ticket (.ofOutcome outcome)).followedBy
          (touch tenant.id ticket)).outcome w₂).2 := by
      rw [runTask, runExport, Act.outcome_bind_ok begun, Act.outcome_followedBy_state,
        Act.outcome_followedBy_state, finishExport,
        Act.outcome_bind_ok (Act.outcome_attempt _ _), run]
    rcases ran : (runTask env (.job ticket tenant skipped)).outcome v with ⟨result, w'⟩
    rw [ran] at ended
    obtain rfl : w' = _ := ended
    -- Once the export has ended, its result ends and the worker is idle again.
    refine ⟨turns + 1 + 1 + 1, ?_⟩
    rw [Function.iterate_succ_apply, started, Function.iterate_succ_apply',
      Function.iterate_succ_apply', reached, Service.after, outcome_runNext start ran]
    rfl

theorem duty_prepared (job : Running) (content : Dialogue Unit) (result : Except Failure Unit) :
    duty (some (job, .prepared content result)) = .exporting job := by
  cases result <;> rfl

theorem duty_replied (job : Running) (next : α → Dialogue Unit) (result : Except Failure α) :
    duty (some (job, .replied next result)) = .exporting job := by
  cases result <;> rfl

theorem duty_closed (job : Running) (saved result : Except Failure Unit) :
    duty (some (job, .closed saved result)) = .exporting job := by
  cases result <;> cases saved <;> rfl

/-- What the worker does in a turn are moves of a session, none of which is a request. -/
theorem proceed_moves (env : Environment δ) (s : Bench δ) : ∃ moves : List Move,
    (∀ op, .request op ∉ moves) ∧ Session.after env s.session moves = (s.proceed env).session := by
  obtain ⟨w, _ | ⟨job, rest⟩⟩ := s
  · refine ⟨[.start], by simp, ?_⟩
    show Session.step env ⟨w, .idle⟩ .start = _
    rw [Session.step, proceed]
    dsimp only
    rcases w.worker.start? with _ | ⟨place, _ | ⟨ticket, tenant, skipped⟩, worker⟩ <;> rfl
  have one : ∀ {α : Type} (effort : Effort) (act : Act (World δ) α) (left : Except Failure α → Rest),
      ((effort.act env job.ticket job.tenant.id).outcome w).2 = (act.outcome w).2 →
      (∀ result, duty (some (job, left result)) = .exporting job) →
      Session.after env ⟨w, .exporting job⟩ [.effort effort] =
        session ⟨(act.outcome w).2, some (job, left (act.outcome w).1)⟩ := by
    intro α effort act left same exporting
    rw [session, exporting, ← same]
    rfl
  cases rest with
  | prepare skipped =>
    exact ⟨[.effort .prepare], by simp, one .prepare _ _ rfl (duty_prepared job _)⟩
  | save content =>
    cases content with
    | done a => exact ⟨[.effort .close], by simp, one .close _ _ rfl (duty_closed job (.ok ()))⟩
    | failed failure =>
      exact ⟨[.effort .close], by simp, one .close _ _ rfl (duty_closed job (.error failure))⟩
    | call c next =>
      refine ⟨[.effort (.call c)], by simp, one (.call c) _ _ ?_ (duty_replied job next)⟩
      rw [Effort.act, Act.outcome_discard]
  | pack => exact ⟨[.effort .pack], by simp, one .pack _ _ rfl fun _ => rfl⟩
  | finish outcome =>
    refine ⟨[.mark outcome, .touch], by simp, ?_⟩
    rw [proceed_go env (.finish outcome) (by simp), session, Rest.go, Rest.follow,
      Act.outcome_followedBy_state]
    rfl
  | leave => exact ⟨[.leave], by simp, rfl⟩

variable (e : env.Apart) (cleans : env.CleansUp) (finds : env.FindsTenants)
include e cleans finds

theorem turn_orderly (h : s.session.Orderly) (turn : Turn) :
    (s.turn env turn).session.Orderly := by
  cases turn with
  | work =>
    obtain ⟨moves, _, reached⟩ := proceed_moves env s
    exact reached ▸ h.after e cleans finds moves
  | request op =>
    rw [Bench.turn]
    cases admitted : s.admits op with
    | false => exact h
    | true =>
      rw [if_pos rfl]
      by_cases hop : op = .run
      · subst hop
        obtain ⟨w, work⟩ := s
        obtain rfl : work = none := Option.isNone_iff_eq_none.mp admitted
        obtain ⟨moves, reached⟩ := Session.run_moves env h.world.fresh
        exact (reached ▸ h.after e cleans finds moves : Session.Orderly _)
      · have moved := h.request e cleans finds op
        rwa [Session.step_request hop] at moved

/-- The worker registers nobody, and drops nobody either. -/
theorem proceed_value? (h : s.session.Orderly) (tenant : Uuid) :
    (s.proceed env).world.registry.value? tenant = s.world.registry.value? tenant := by
  obtain ⟨moves, unasked, reached⟩ := proceed_moves env s
  suffices kept : ∀ t : Session δ, t.Orderly → (∀ op, .request op ∉ moves) →
      (Session.after env t moves).world.registry.value? tenant =
        t.world.registry.value? tenant by
    have same := kept s.session h unasked
    rwa [reached] at same
  clear reached unasked
  induction moves with
  | nil => exact fun t _ _ => rfl
  | cons move rest ih =>
    intro t orderly unasked
    have alone : ∀ op, move = .request op → op = .run := fun op same =>
      absurd (same ▸ List.mem_cons_self) (unasked op)
    have others := ih (Session.step env t move) (orderly.step e cleans finds move)
      fun op later => unasked op (List.mem_cons_of_mem move later)
    refine others.trans ?_
    rcases orderly.work_cases e alone with ⟨works, _⟩ | ⟨job, _, same⟩
    · rw [works.registry]
    · rw [same]
      exact Registry.touch_value? ..

end Bench

end Handover
