import Handover.Proofs.Entries
import Handover.Proofs.Life
import Handover.Proofs.Session
import Mathlib.Logic.Relation

namespace Handover

open Act (Preserves)

variable {δ : Type}

/-- The states that a result can enter next. -/
inductive JobStatus.Next : JobStatus → JobStatus → Prop where
  | start : Next .submitted .running
  | succeed : Next .running .succeeded
  | fail : Next .running .failed

/-- Whether a result can become another one: its states go forward, its counts do not go back, and
once it is done it stays the same. -/
structure JobResult.Becomes (r r' : JobResult) : Prop where
  tenant : r'.tenant = r.tenant
  submittedAt : r'.submittedAt = r.submittedAt
  status : Relation.ReflTransGen JobStatus.Next r.status r'.status
  counts : ∀ type, r.count type ≤ r'.count type
  final : r.isDone = true → r' = r

namespace JobResult

theorem Becomes.refl (r : JobResult) : r.Becomes r :=
  ⟨rfl, rfl, .refl, fun _ => Nat.le_refl _, fun _ => rfl⟩

theorem Becomes.trans {r r' r'' : JobResult} (h : r.Becomes r') (h' : r'.Becomes r'') :
    r.Becomes r'' where
  tenant := h'.tenant.trans h.tenant
  submittedAt := h'.submittedAt.trans h.submittedAt
  status := h.status.trans h'.status
  counts type := Nat.le_trans (h.counts type) (h'.counts type)
  final done := by
    have same := h.final done
    subst same
    exact h'.final done

theorem reported_submittedAt (r : JobResult) (rows : List (RecordType × Value)) :
    (r.reported rows).submittedAt = r.submittedAt := by
  induction rows generalizing r with
  | nil => rfl
  | cons row rest ih => exact ih (r.report row.1)

theorem Becomes.reported {r : JobResult} (h : r.isDone = false)
    (rows : List (RecordType × Value)) : r.Becomes (r.reported rows) := by
  obtain ⟨status, tenant⟩ := r.reported_fields rows
  refine ⟨tenant, r.reported_submittedAt rows, ?_, fun type => ?_, fun done => ?_⟩
  · rw [status]
  · rw [count_reported]
    exact Nat.le_add_right _ _
  · exact nomatch h.symm.trans done

theorem Becomes.marked {r r' : JobResult} (next : JobStatus.Next r.status r'.status)
    (tenant : r'.tenant = r.tenant) (submittedAt : r'.submittedAt = r.submittedAt)
    (stats : r'.stats = r.stats) : r.Becomes r' := by
  refine ⟨tenant, submittedAt, .single next, fun type => ?_, fun done => ?_⟩
  · exact Nat.le_of_eq (by rw [count, count, stats])
  · rw [isDone] at done
    cases status : r.status with
    | submitted =>
      rw [status] at done
      cases done
    | running =>
      rw [status] at done
      cases done
    | succeeded =>
      rw [status] at next
      cases next
    | failed =>
      rw [status] at next
      cases next

end JobResult

namespace Service

variable {env : Environment δ} {w : World δ}

/-- What a submission leaves of results and worker: it makes one result at most, and queues its job
if it is accepted. -/
theorem submit_books (e : env.Apart) (w : World δ) (id : Uuid) (skipped : List RecordType) :
    let run := (submit env id skipped).outcome w
    let made := w.results ++ [JobResult.submitted id w.clock.now]
    ((∃ failure, run.1 = .error failure) ∧ run.2.worker = w.worker ∧
        (run.2.results = w.results ∨ run.2.results = made)) ∨
      (run.1 = .ok id ∧ run.2.results = made ∧ ∃ tenant,
        w.worker.submit (.job w.results.length tenant skipped) = .ok run.2.worker) := by
  obtain ⟨answer, v, approved, looked, known⟩ := outcome_approve_apart e w id
  intro run made
  cases answer with
  | error failure =>
    have refused : run = (.error failure, v) := Act.outcome_bind_error approved
    rw [refused]
    refine .inl ⟨⟨failure, rfl⟩, ?_, .inl ?_⟩
    · rcases looked with beside | beside <;> exact beside.worker
    · rcases looked with beside | beside <;> exact beside.results
  | ok tenant =>
    obtain ⟨peeked, _⟩ := known tenant rfl
    have entering : run = (enter env id tenant skipped >>= fun _ => pure id).outcome v :=
      Act.outcome_bind_ok approved
    have cleaning : Preserves (v.registered id).Beside
        (cleanReplaced env v id (v.registry.value? id)) := by
      unfold cleanReplaced
      split
      next => exact cleanUp_beside e id _
      next => exact .pure ()
    have beside := cleaning _ (.refl _)
    have results : ∀ u : World δ, (v.registered id).Beside u → u.results = made := by
      intro u h
      rw [h.results, World.registered, peeked.results, peeked.clock]
      rfl
    have worker : ∀ u : World δ, (v.registered id).Beside u → u.worker = w.worker :=
      fun u h => h.worker.trans peeked.worker
    rcases cleaned : (cleanReplaced env v id (v.registry.value? id)).outcome (v.registered id) with
      ⟨failure | _, u⟩
    · rw [cleaned] at beside
      rw [entering, Act.outcome_bind_error (outcome_enter_uncleaned cleaned)]
      exact .inl ⟨⟨failure, rfl⟩, worker u beside, .inr (results u beside)⟩
    · rw [cleaned] at beside
      have entered : (enter env id tenant skipped).outcome v = _ := outcome_enter_cleaned cleaned
      have ticket : v.results.length = w.results.length := congrArg List.length peeked.results
      rw [ticket] at entered
      cases queued : u.worker.submit (.job w.results.length tenant skipped) with
      | error failure =>
        rw [outcome_handIn_error queued] at entered
        rw [entering, Act.outcome_bind_error entered]
        exact .inl ⟨⟨failure, rfl⟩, worker u beside, .inr (results u beside)⟩
      | ok queue =>
        rw [outcome_handIn_ok queued] at entered
        rw [entering, Act.outcome_bind_ok entered]
        refine .inr ⟨rfl, results u beside, tenant, ?_⟩
        rw [← worker u beside]
        exact queued

/-- Any other request makes no result and queues no job. -/
theorem request_books (e : env.Apart) (w : World δ) {op : Operation} (hop : op ≠ .run)
    (other : ∀ id skipped, op ≠ .submit id skipped) :
    (after env w op).results = w.results ∧ (after env w op).worker = w.worker := by
  cases op with
  | submit id skipped => exact absurd rfl (other id skipped)
  | run => exact absurd rfl hop
  | look tenant =>
    obtain ⟨answer, w', run, beside, _⟩ := outcome_getResult_apart e w tenant
    rw [after, run]
    exact ⟨beside.results, beside.worker⟩
  | download tenant =>
    have beside := download_beside e w tenant
    exact ⟨beside.results, beside.worker⟩
  | delete tenant =>
    obtain ⟨answer, w', run, ⟨beside, _⟩ | ⟨beside, _⟩⟩ := outcome_delete_apart e w tenant <;>
      rw [after, run] <;> exact ⟨beside.results, beside.worker⟩
  | purge =>
    obtain ⟨w', run, beside⟩ := outcome_purge_apart e w
    rw [after, run]
    exact ⟨beside.results, beside.worker⟩
  | advance seconds => exact ⟨rfl, rfl⟩

theorem shutdown_books (e : env.Apart) (w : World δ) :
    ((shutdown env).outcome w).2.results = w.results ∧
      ((shutdown env).outcome w).2.worker = w.worker.shutdown := by
  obtain ⟨w', run, beside, _⟩ := outcome_shutdown_apart e w
  rw [run]
  exact ⟨beside.results, beside.worker⟩

end Service

/-- Something that happens to a service at any time: a move in its session, its worker or all of it is
shut down, or what it stores is changed from outside. -/
inductive Happening where
  | move (move : Move)
  | stop
  | shutdown
  | disturb (storage : Storage)

def Duty.ticket? : Duty → Option Nat
  | .idle => none
  | .exporting job => some job.ticket
  | .marked job => some job.ticket
  | .touched job => some job.ticket

/-- A world after something that has been done for one job at most: no other result has changed, and
that of the job has gone on. -/
def World.Evolves (concerned : Option Nat) (w w' : World δ) : Prop :=
  ∀ number r, w.result? number = some r → ∃ r', w'.result? number = some r' ∧ r.Becomes r' ∧
    (concerned ≠ some number → r' = r)

namespace World

variable {w w' : World δ} {concerned : Option Nat}

theorem Evolves.of_results (old : ∀ number r, w.result? number = some r → w'.result? number = some r) :
    w.Evolves concerned w' :=
  fun number r hr => ⟨r, old number r hr, .refl r, fun _ => rfl⟩

theorem Evolves.of_same (same : w'.results = w.results) : w.Evolves concerned w' :=
  .of_results fun number r hr => by rw [result?, same]; exact hr

theorem Evolves.of_made {r : JobResult} (made : w'.results = w.results ++ [r]) :
    w.Evolves concerned w' := by
  refine .of_results fun number r hr => ?_
  obtain ⟨hlt, _⟩ := List.getElem?_eq_some_iff.mp hr
  rw [result?, made, List.getElem?_append_left hlt]
  exact hr

theorem Evolves.of_one {ticket : Nat} {r r' : JobResult} (hr : w.result? ticket = some r)
    (hr' : w'.result? ticket = some r') (becomes : r.Becomes r')
    (others : ∀ number, number ≠ ticket → w'.result? number = w.result? number) :
    w.Evolves (some ticket) w' := by
  intro number r₀ hr₀
  by_cases own : number = ticket
  · subst own
    cases hr.symm.trans hr₀
    exact ⟨r', hr', becomes, fun apart => absurd rfl apart⟩
  · exact ⟨r₀, (others number own).trans hr₀, .refl r₀, fun _ => rfl⟩

end World

namespace Session

open Service

def happen (env : Environment δ) (s : Session δ) : Happening → Session δ
  | .move move => step env s move
  | .stop => { s with world := (shutdownWorker.outcome s.world).2 }
  | .shutdown => { s with world := ((shutdown env).outcome s.world).2 }
  | .disturb storage => { s with world := { s.world with storage } }

/-- A session after whatever happens. -/
def pass (env : Environment δ) (happenings : List Happening) (s : Session δ) : Session δ :=
  happenings.foldl (happen env) s

theorem pass_append (env : Environment δ) (s : Session δ) (before : List Happening)
    (happening : Happening) (rest : List Happening) :
    s.pass env (before ++ happening :: rest) =
      ((s.pass env before).happen env happening).pass env rest :=
  List.foldl_append

/-- The number of the job that is started. -/
def started? (s : Session δ) : Happening → Option Nat
  | .move .start =>
    match s.duty, s.world.worker.start? with
    | .idle, some (_, .job ticket _ _, _) => some ticket
    | _, _ => none
  | _ => none

/-- The number of the job for which something is done. -/
def concerned? (s : Session δ) : Happening → Option Nat
  | .move .start => s.started? (.move .start)
  | .move (.request _) => none
  | .move _ => s.duty.ticket?
  | _ => none

/-- The number of an export that is accepted, and its tenant. -/
def accepted? (env : Environment δ) (s : Session δ) : Happening → Option (Nat × Uuid)
  | .move (.request (.submit id skipped)) =>
    match ((submit env id skipped).outcome s.world).1 with
    | .ok tenant => some (s.world.results.length, tenant)
    | .error _ => none
  | _ => none

/-- The jobs that are started, in order. -/
def begun (env : Environment δ) : List Happening → Session δ → List Nat
  | [], _ => []
  | happening :: rest, s => (s.started? happening).toList ++ begun env rest (s.happen env happening)

/-- The exports that are accepted, in order. -/
def taken (env : Environment δ) : List Happening → Session δ → List (Nat × Uuid)
  | [], _ => []
  | happening :: rest, s =>
    (s.accepted? env happening).toList ++ taken env rest (s.happen env happening)

/-- A session in which these exports have been accepted and these jobs started, in this order. The
jobs that wait are the last ones that have been accepted, as far as they have not been cancelled, and
nothing has been done yet to their results. -/
structure Booked (taken : List (Nat × Uuid)) (begun : List Nat) (s : Session δ) : Prop where
  order : (taken.map (·.1) ++ [s.world.results.length]).Pairwise (· < ·)
  lined : (begun ++ s.world.worker.waiting.filterMap Task.ticket?).Sublist (taken.map (·.1))
  queued : ∀ task ∈ s.world.worker.waiting, ∃ ticket tenant skipped owner moment,
    task = .job ticket tenant skipped ∧ (ticket, owner) ∈ taken ∧
      s.world.result? ticket = some (.submitted owner moment)
  duty : ∀ ticket, s.duty.ticket? = some ticket → ticket ∈ begun
  running : ∀ job, s.duty = .exporting job →
    ∃ r, s.world.result? job.ticket = some r ∧ r.status = .running

namespace Booked

variable {env : Environment δ} {s t : Session δ} {ts : List (Nat × Uuid)} {bs : List Nat}

/-- A job that has been started does not wait any more. -/
theorem apart (h : s.Booked ts bs) {ticket : Nat} (begun : ticket ∈ bs) {other : Nat}
    {tenant : Tenant} {skipped : List RecordType}
    (waits : .job other tenant skipped ∈ s.world.worker.waiting) : other ≠ ticket := by
  rintro rfl
  have distinct := (h.order.sublist (List.sublist_append_left _ _)).sublist h.lined
  have waiting : other ∈ s.world.worker.waiting.filterMap Task.ticket? :=
    List.mem_filterMap.mpr ⟨_, waits, rfl⟩
  exact Nat.lt_irrefl other ((List.pairwise_append.mp distinct).2.2 other begun other waiting)

/-- What is booked while no result is made and no job is started: the results of jobs that wait stay
as they are. -/
theorem kept (h : s.Booked ts bs) (size : t.world.results.length = s.world.results.length)
    (waiting : t.world.worker.waiting.Sublist s.world.worker.waiting)
    (old : ∀ ticket tenant skipped, .job ticket tenant skipped ∈ s.world.worker.waiting →
      t.world.result? ticket = s.world.result? ticket)
    (duty : ∀ ticket, t.duty.ticket? = some ticket → s.duty.ticket? = some ticket)
    (running : ∀ job, t.duty = .exporting job →
      ∃ r, t.world.result? job.ticket = some r ∧ r.status = .running) : t.Booked ts bs := by
  refine ⟨by rw [size]; exact h.order, ?_, fun task waits => ?_, fun ticket on => h.duty ticket
    (duty ticket on), running⟩
  · exact ((List.Sublist.refl bs).append (waiting.filterMap Task.ticket?)).trans h.lined
  · obtain ⟨ticket, tenant, skipped, owner, moment, rfl, mem, hr⟩ :=
      h.queued task (waiting.subset waits)
    exact ⟨ticket, tenant, skipped, owner, moment, rfl, mem,
      (old ticket tenant skipped (waiting.subset waits)).trans hr⟩

/-- What is booked while all results stay as they are. -/
theorem same (h : s.Booked ts bs) (results : t.world.results = s.world.results)
    (waiting : t.world.worker.waiting.Sublist s.world.worker.waiting) (duty : t.duty = s.duty) :
    t.Booked ts bs := by
  have result := World.result?_congr results
  refine h.kept (congrArg List.length results) waiting (fun ticket _ _ _ => result ticket) ?_
    fun job on => ?_
  · rw [duty]
    exact fun _ => id
  · rw [result]
    exact h.running job (duty ▸ on)

/-- What is booked when a result has been made and no job is queued for it. -/
theorem made (h : s.Booked ts bs) {r : JobResult} (results : t.world.results = s.world.results ++ [r])
    (worker : t.world.worker = s.world.worker) (duty : t.duty = s.duty) : t.Booked ts bs := by
  have old : ∀ ticket r, s.world.result? ticket = some r → t.world.result? ticket = some r := by
    intro ticket r hr
    obtain ⟨hlt, _⟩ := List.getElem?_eq_some_iff.mp hr
    rw [World.result?, results, List.getElem?_append_left hlt]
    exact hr
  refine ⟨?_, by rw [worker]; exact h.lined, fun task waits => ?_, by rw [duty]; exact h.duty,
    fun job on => ?_⟩
  · obtain ⟨earlier, _, below⟩ := List.pairwise_append.mp h.order
    refine List.pairwise_append.mpr ⟨earlier, by simp, fun number mem later hlater => ?_⟩
    have := below number mem s.world.results.length (by simp)
    rw [List.mem_singleton.mp hlater, results, List.length_append]
    exact Nat.lt_add_right _ this
  · rw [worker] at waits
    obtain ⟨ticket, tenant, skipped, owner, moment, rfl, mem, hr⟩ := h.queued task waits
    exact ⟨ticket, tenant, skipped, owner, moment, rfl, mem, old ticket _ hr⟩
  · obtain ⟨r, hr, running⟩ := h.running job (duty ▸ on)
    exact ⟨r, old job.ticket r hr, running⟩

/-- What is booked when an export has been accepted: its result is new, and its job waits behind all
others. -/
theorem accepted (h : s.Booked ts bs) {id : Uuid} {moment : Instant} {tenant : Tenant}
    {skipped : List RecordType}
    (results : t.world.results = s.world.results ++ [.submitted id moment])
    (queued : s.world.worker.submit (.job s.world.results.length tenant skipped) =
      .ok t.world.worker) (duty : t.duty = s.duty) :
    t.Booked (ts ++ [(s.world.results.length, id)]) bs := by
  obtain ⟨waiting, _⟩ := Worker.submit_ok queued
  -- As if the result had been made without a job, which is queued then.
  have before : Booked ts bs { t with world := { t.world with worker := s.world.worker } } :=
    h.made results rfl duty
  have made : t.world.result? s.world.results.length = some (.submitted id moment) := by
    rw [World.result?, results, List.getElem?_concat_length]
  refine ⟨?_, ?_, fun task waits => ?_, before.duty, before.running⟩
  · rw [results, List.map_append, List.length_append]
    exact World.pairwise_concat_succ h.order
  · rw [waiting, List.filterMap_append, ← List.append_assoc, List.map_append]
    exact h.lined.append (.refl _)
  · rw [waiting] at waits
    rcases List.mem_append.mp waits with old | new
    · obtain ⟨ticket, tenant, skipped, owner, moment, rfl, mem, hr⟩ := before.queued task old
      exact ⟨ticket, tenant, skipped, owner, moment, rfl, List.mem_append_left _ mem, hr⟩
    · exact ⟨_, tenant, skipped, id, moment, List.mem_singleton.mp new,
        List.mem_append_right _ (List.mem_singleton.mpr rfl), made⟩

theorem request (e : env.Apart) (h : s.Booked ts bs) (op : Operation) :
    (step env s (.request op)).Booked (ts ++ (s.accepted? env (.move (.request op))).toList) bs ∧
      s.world.Evolves none (step env s (.request op)).world := by
  by_cases hop : op = .run
  · subst hop
    refine ⟨?_, .of_same rfl⟩
    show Booked (ts ++ []) bs s
    rw [List.append_nil]
    exact h
  by_cases submits : ∃ id skipped, op = .submit id skipped
  · obtain ⟨id, skipped, rfl⟩ := submits
    have stepped : step env s (.request (.submit id skipped)) =
        ⟨((submit env id skipped).outcome s.world).2, s.duty⟩ := rfl
    rw [stepped]
    rcases submit_books e s.world id skipped with
      ⟨⟨failure, refused⟩, worker, results | results⟩ | ⟨answer, results, tenant, queued⟩
    · rw [accepted?, refused, Option.toList_none, List.append_nil]
      exact ⟨h.same results (worker ▸ .refl _) rfl, .of_same results⟩
    · rw [accepted?, refused, Option.toList_none, List.append_nil]
      exact ⟨h.made results worker rfl, .of_made results⟩
    · rw [accepted?, answer]
      exact ⟨h.accepted results queued rfl, .of_made results⟩
  · have other : ∀ id skipped, op ≠ .submit id skipped := fun id skipped same =>
      submits ⟨id, skipped, same⟩
    obtain ⟨results, worker⟩ := request_books e s.world hop other
    have unasked : s.accepted? env (.move (.request op)) = none := by
      cases op with
      | submit id skipped => exact absurd rfl (other id skipped)
      | _ => rfl
    rw [unasked, Option.toList_none, List.append_nil, step_request hop]
    exact ⟨h.same results (worker ▸ .refl _) rfl, .of_same results⟩

/-- What a start does: nothing, or the oldest job that waits is on duty from then on, and nothing has
been done to its result before. -/
theorem step_start (env : Environment δ) (h : s.Booked ts bs) :
    (step env s .start = s ∧ s.started? (.move .start) = none) ∨
      ∃ place ticket tenant skipped owner moment rest,
        s.world.worker.waiting = .job ticket tenant skipped :: rest ∧
        (s.world.worker.setPhase place .running).waiting = rest ∧
        s.started? (.move .start) = some ticket ∧ (ticket, owner) ∈ ts ∧
        s.world.result? ticket = some (.submitted owner moment) ∧
        step env s .start = ⟨World.started
          { s.world with worker := s.world.worker.setPhase place .running } ticket,
          .exporting ⟨place, ticket, tenant⟩⟩ := by
  unfold step started?
  cases s.duty with
  | idle =>
    cases front : s.world.worker.waiting with
    | nil =>
      rw [Worker.start?_nil front]
      exact .inl ⟨rfl, rfl⟩
    | cons task rest =>
      obtain ⟨place, start, others⟩ := Worker.start?_front front
      obtain ⟨ticket, tenant, skipped, owner, moment, rfl, mem, hr⟩ :=
        h.queued task (front ▸ List.mem_cons_self)
      rw [start]
      exact .inr ⟨place, ticket, tenant, skipped, owner, moment, rest, rfl,
        others .running (by simp), rfl, mem, hr, rfl⟩
  | _ => exact .inl ⟨rfl, rfl⟩

theorem start (env : Environment δ) (h : s.Booked ts bs) :
    (step env s .start).Booked ts (bs ++ (s.started? (.move .start)).toList) ∧
      s.world.Evolves (s.started? (.move .start)) (step env s .start).world ∧
      (step env s .start).world.registry = s.world.registry := by
  rcases h.step_start env with ⟨same, none⟩ |
    ⟨place, ticket, tenant, skipped, owner, moment, rest, front, left, started, _, hr, same⟩
  · rw [same, none, Option.toList_none, List.append_nil]
    exact ⟨h, .of_same rfl, rfl⟩
  · let v : World δ := { s.world with worker := s.world.worker.setPhase place .running }
    have queued : v.result? ticket = some (.submitted owner moment) := hr
    let r : JobResult := { JobResult.submitted owner moment with
      status := .running, startedAt := some v.clock.now }
    have marked : v.started ticket = v.marked ticket r := (started_eq queued).2
    have own : (v.started ticket).result? ticket = some r := World.result?_started queued
    have others : ∀ number, number ≠ ticket →
        (v.started ticket).result? number = s.world.result? number := by
      intro number hne
      rw [marked]
      exact List.getElem?_set_ne (Ne.symm hne)
    have lined : (bs ++ [ticket] ++ rest.filterMap Task.ticket?).Sublist (ts.map (·.1)) := by
      have before := h.lined
      rw [front] at before
      rw [List.append_assoc]
      exact before
    have distinct := (h.order.sublist (List.sublist_append_left _ _)).sublist lined
    rw [started, same]
    refine ⟨⟨?_, ?_, fun task waits => ?_, ?_, ?_⟩, ?_, ?_⟩
    · rw [marked]
      show (ts.map (·.1) ++ [(s.world.results.set ticket r).length]).Pairwise (· < ·)
      rw [List.length_set]
      exact h.order
    · rw [marked]
      show (bs ++ [ticket] ++ (s.world.worker.setPhase place .running).waiting.filterMap
        Task.ticket?).Sublist _
      rw [left]
      exact lined
    · rw [marked] at waits
      have later : task ∈ rest := left ▸ waits
      obtain ⟨number, tenant', skipped', owner', moment', rfl, mem, hr'⟩ :=
        h.queued task (front ▸ List.mem_cons_of_mem _ later)
      refine ⟨number, tenant', skipped', owner', moment', rfl, mem, (others number ?_).trans hr'⟩
      rintro rfl
      exact Nat.lt_irrefl number ((List.pairwise_append.mp distinct).2.2 number (by simp) number
        (List.mem_filterMap.mpr ⟨_, later, rfl⟩))
    · rintro number ⟨⟩
      simp
    · rintro job ⟨⟩
      exact ⟨r, own, rfl⟩
    · exact .of_one hr own (.marked .start rfl rfl rfl) others
    · rw [marked]
      rfl

theorem effort (e : env.Apart) (h : s.Booked ts bs) (effort : Effort) :
    (step env s (.effort effort)).Booked ts bs ∧
      s.world.Evolves s.duty.ticket? (step env s (.effort effort)).world ∧
      (step env s (.effort effort)).world.registry = s.world.registry := by
  rcases step_effort env s effort with same | ⟨job, duty, same⟩
  · rw [same]
    exact ⟨h, .of_same rfl, rfl⟩
  · have amid := effort_amid e s.world job.ticket job.tenant.id effort s.world (.refl _ _)
    obtain ⟨⟨rows, counted⟩, _⟩ := id amid
    have rewrites := World.Rewrites.of_amid amid
    obtain ⟨r, hr, running⟩ := h.running job duty
    have own : (((effort.act env job.ticket job.tenant.id).outcome s.world).2).result?
        job.ticket = some (r.reported rows) := by
      rw [World.result?, counted.results, List.getElem?_modify_eq]
      exact congrArg (Option.map _) hr
    have started : job.ticket ∈ bs := h.duty job.ticket (by rw [duty]; rfl)
    rw [same, duty]
    refine ⟨h.kept rewrites.size (rewrites.worker ▸ .refl _) (fun ticket tenant skipped waits =>
      rewrites.others ticket (h.apart started waits)) (by rw [duty]; exact fun _ => id) ?_,
      .of_one hr own (.reported (JobResult.isDone_of running) rows) rewrites.others,
      rewrites.registry⟩
    rintro job' ⟨⟩
    exact ⟨r.reported rows, own, (r.reported_fields rows).1.trans running⟩

theorem mark (env : Environment δ) (h : s.Booked ts bs) (outcome : Except Failure Unit) :
    (step env s (.mark outcome)).Booked ts bs ∧
      s.world.Evolves s.duty.ticket? (step env s (.mark outcome)).world ∧
      (step env s (.mark outcome)).world.registry = s.world.registry := by
  rcases step_mark env s outcome with same | ⟨job, duty, same⟩
  · rw [same]
    exact ⟨h, .of_same rfl, rfl⟩
  · obtain ⟨r, hr, running⟩ := h.running job duty
    have rewrites := markResult_rewrites s.world job.ticket (.ofOutcome outcome)
    have marked := outcome_markResult hr (ofOutcome_accepted running outcome s.world.clock.now)
    have started : job.ticket ∈ bs := h.duty job.ticket (by rw [duty]; rfl)
    rw [marked] at rewrites
    have next : JobStatus.Next r.status (endStatus outcome) := by
      rw [running]
      rcases outcome with failure | _
      · exact .fail
      · exact .succeed
    rw [same, duty, marked]
    exact ⟨h.kept rewrites.size (rewrites.worker ▸ .refl _) (fun ticket tenant skipped waits =>
      rewrites.others ticket (h.apart started waits)) (by rw [duty]; exact fun _ => id) nofun,
      .of_one hr (World.result?_marked hr _) (.marked next rfl rfl rfl) rewrites.others,
      rewrites.registry⟩

theorem touch (env : Environment δ) (h : s.Booked ts bs) : (step env s .touch).Booked ts bs ∧
    s.world.Evolves s.duty.ticket? (step env s .touch).world ∧
    ∀ key entry, s.world.registry.held? key = some entry → s.duty.ticket? ≠ some entry.value →
      (step env s .touch).world.registry.held? key = some entry := by
  rcases step_touch env s with same | ⟨job, duty, same⟩
  · rw [same]
    exact ⟨h, .of_same rfl, fun _ _ held _ => held⟩
  · rw [same, duty]
    refine ⟨h.kept rfl (.refl _) (fun _ _ _ _ => rfl) (by rw [duty]; exact fun _ => id) nofun,
      .of_same rfl, fun key entry held apart => ?_⟩
    have touched := Registry.held?_touch s.world.registry s.world.time job.tenant.id key job.ticket
    refine touched.trans ?_
    by_cases own : key = job.tenant.id
    · subst own
      rw [if_pos rfl, held, Option.map_some, if_neg fun value => apart (congrArg some value.symm)]
    · rw [if_neg own]
      exact held

theorem leave (env : Environment δ) (h : s.Booked ts bs) : (step env s .leave).Booked ts bs ∧
    s.world.Evolves s.duty.ticket? (step env s .leave).world ∧
    (step env s .leave).world.registry = s.world.registry := by
  rcases step_leave env s with same | ⟨job, duty, same⟩
  · rw [same]
    exact ⟨h, .of_same rfl, rfl⟩
  · rw [same]
    exact ⟨h.kept rfl (s.world.worker.setPhase_waiting job.place (by simp)) (fun _ _ _ _ => rfl)
      nofun nofun, .of_same rfl, rfl⟩

theorem fresh (h : s.Booked ts bs) : s.world.Fresh := by
  intro task waits
  obtain ⟨ticket, tenant, skipped, owner, moment, same, _, hr⟩ := h.queued task waits
  exact ⟨ticket, tenant, skipped, owner, moment, same, hr⟩

theorem shut (e : env.Apart) (h : s.Booked ts bs) :
    Booked ts bs { s with world := ((Service.shutdown env).outcome s.world).2 } := by
  obtain ⟨results, worker⟩ := shutdown_books e s.world
  refine h.same results ?_ rfl
  rw [worker, waiting_shutdown]
  exact List.nil_sublist _

end Booked

/-- Whether something that happens changes nothing but what belongs to the job that it is about: no
other result, and, unless it is a request or the shutdown of the service, no entry of another result
in the registry. -/
structure Confines (env : Environment δ) (s : Session δ) (happening : Happening) : Prop where
  results : s.world.Evolves (s.concerned? happening) (s.happen env happening).world
  entries : ∀ move, happening = .move move → (∀ op, move ≠ .request op) →
    ∀ key entry, s.world.registry.held? key = some entry →
      s.concerned? happening ≠ some entry.value →
      (s.happen env happening).world.registry.held? key = some entry

namespace Booked

variable {env : Environment δ} {s : Session δ} {ts : List (Nat × Uuid)} {bs : List Nat}

theorem happen (e : env.Apart) (h : s.Booked ts bs) (happening : Happening) :
    (s.happen env happening).Booked (ts ++ (s.accepted? env happening).toList)
      (bs ++ (s.started? happening).toList) ∧ Confines env s happening := by
  have still : ∀ {t : Session δ}, t.Booked ts bs → t.Booked (ts ++ []) (bs ++ []) := by
    intro t booked
    rwa [List.append_nil, List.append_nil]
  have untold : ∀ move, (s.happen env (.move move)).world.registry = s.world.registry →
      s.world.Evolves (s.concerned? (.move move)) (s.happen env (.move move)).world →
      Confines env s (.move move) := by
    intro move registry evolves
    exact ⟨evolves, fun _ _ _ key entry held _ => by rw [registry]; exact held⟩
  cases happening with
  | move move =>
    cases move with
    | request op =>
      obtain ⟨booked, evolves⟩ := h.request e op
      have kept : Booked (ts ++ (s.accepted? env (.move (.request op))).toList) (bs ++ [])
          (step env s (.request op)) := by rwa [List.append_nil]
      refine ⟨kept, evolves, fun move same unasked => ?_⟩
      cases same
      exact absurd rfl (unasked op)
    | start =>
      obtain ⟨booked, evolves, registry⟩ := h.start env
      have kept : Booked (ts ++ []) (bs ++ (s.started? (.move .start)).toList)
          (step env s .start) := by rwa [List.append_nil]
      exact ⟨kept, untold .start registry evolves⟩
    | effort effort =>
      obtain ⟨booked, evolves, registry⟩ := h.effort e effort
      exact ⟨still booked, untold (.effort effort) registry evolves⟩
    | mark outcome =>
      obtain ⟨booked, evolves, registry⟩ := h.mark env outcome
      exact ⟨still booked, untold (.mark outcome) registry evolves⟩
    | touch =>
      obtain ⟨booked, evolves, entries⟩ := h.touch env
      exact ⟨still booked, evolves, fun _ _ _ => entries⟩
    | leave =>
      obtain ⟨booked, evolves, registry⟩ := h.leave env
      exact ⟨still booked, untold .leave registry evolves⟩
  | stop =>
    have idle : s.world.worker.shutdown.waiting.Sublist s.world.worker.waiting := by
      rw [waiting_shutdown]
      exact List.nil_sublist _
    exact ⟨still (h.same rfl idle rfl), .of_same rfl, nofun⟩
  | shutdown => exact ⟨still (h.shut e), .of_same (shutdown_books e s.world).1, nofun⟩
  | disturb storage => exact ⟨still (h.same rfl (.refl _) rfl), .of_same rfl, nofun⟩

/-- Whatever happens, what is accepted and started is booked, and results only go on. -/
theorem pass (e : env.Apart) (h : s.Booked ts bs) (happenings : List Happening) :
    (s.pass env happenings).Booked (ts ++ taken env happenings s) (bs ++ begun env happenings s) ∧
      ∀ number r, s.world.result? number = some r →
        ∃ r', (s.pass env happenings).world.result? number = some r' ∧ r.Becomes r' := by
  induction happenings generalizing s ts bs with
  | nil =>
    rw [taken, begun, List.append_nil, List.append_nil]
    exact ⟨h, fun number r hr => ⟨r, hr, .refl r⟩⟩
  | cons happening rest ih =>
    obtain ⟨booked, confined⟩ := h.happen e happening
    obtain ⟨ended, further⟩ := ih booked
    rw [List.append_assoc, List.append_assoc] at ended
    refine ⟨ended, fun number r hr => ?_⟩
    obtain ⟨r', hr', becomes, _⟩ := confined.results number r hr
    obtain ⟨r'', hr'', later⟩ := further number r' hr'
    exact ⟨r'', hr'', becomes.trans later⟩

end Booked

variable {env : Environment δ} {s : Session δ} {ts : List (Nat × Uuid)} {bs : List Nat}

/-- The result of an export that is accepted is new. -/
theorem accepted?_fresh (e : env.Apart) {happening : Happening} {number : Nat} {tenant : Uuid}
    (accepted : s.accepted? env happening = some (number, tenant)) :
    s.world.result? number = none ∧ (s.happen env happening).world.result? number =
      some (.submitted tenant s.world.clock.now) := by
  cases happening with
  | move move =>
    cases move with
    | request op =>
      cases op with
      | submit id skipped =>
        rw [accepted?] at accepted
        rcases submit_books e s.world id skipped with ⟨⟨failure, refused⟩, _⟩ | ⟨answer, results, _⟩
        · rw [refused] at accepted
          cases accepted
        · have made : (s.happen env (.move (.request (.submit id skipped)))).world.results =
              s.world.results ++ [.submitted id s.world.clock.now] := results
          rw [answer] at accepted
          cases accepted
          refine ⟨List.getElem?_eq_none (Nat.le_refl _), ?_⟩
          rw [World.result?, made]
          exact List.getElem?_concat_length
      | _ => cases accepted
    | _ => cases accepted
  | _ => cases accepted

/-- A job that is started has been accepted, and its result is as it was made. -/
theorem Booked.started?_fresh (h : s.Booked ts bs) {happening : Happening} {number : Nat}
    (started : s.started? happening = some number) : ∃ tenant moment, (number, tenant) ∈ ts ∧
      s.world.result? number = some (.submitted tenant moment) := by
  unfold started? at started
  split at started
  next =>
    split at started
    next place ticket tenant skipped worker duty start =>
      cases started
      cases front : s.world.worker.waiting with
      | nil =>
        rw [Worker.start?_nil front] at start
        cases start
      | cons task rest =>
        obtain ⟨place', found, _⟩ := Worker.start?_front front
        obtain ⟨ticket', tenant', skipped', owner, moment, rfl, mem, hr⟩ :=
          h.queued task (front ▸ List.mem_cons_self)
        cases found.symm.trans start
        exact ⟨owner, moment, mem, hr⟩
    next => cases started
  next => cases started

/-- Every accepted export is run at most once and has a result of its own. Whatever happens to the
service and its storage, under either policy: the accepted exports have different numbers, the jobs
are started in their order, none of them twice, and each with a result for which nothing has been
done since it was made; only what is done for a job changes its result, and all that the worker does
for a job leaves the entries of other results as they are; states go forward, counts do not go back,
and a result that is done stays as it is. Running a job at a stroke is a case of this. -/
theorem results_final (c : Surroundings δ) (plan : JobPlan) (allows : Bool) (bound : Nat)
    (w₀ : World δ) (unused : w₀.Unused) (happenings : List Happening) :
    let env := Environment.around c plan allows bound
    let s₀ : Session δ := ⟨w₀, .idle⟩
    let numbers := (taken env happenings s₀).map (·.1)
    numbers.Pairwise (· < ·) ∧ (begun env happenings s₀).Sublist numbers ∧
      ∀ before happening rest, happenings = before ++ happening :: rest →
        let s := s₀.pass env before
        let s' := s.happen env happening
        (∀ number tenant, s.accepted? env happening = some (number, tenant) →
          s.world.result? number = none ∧
            s'.world.result? number = some (.submitted tenant s.world.clock.now)) ∧
        (∀ number, s.started? happening = some number → ∃ tenant moment,
          (number, tenant) ∈ taken env before s₀ ∧
            s.world.result? number = some (.submitted tenant moment)) ∧
        Confines env s happening ∧
        (∀ number r, s.world.result? number = some r →
          ∃ r', (s'.pass env rest).world.result? number = some r' ∧ r.Becomes r') ∧
        (s.duty = .idle → ∃ moves, after env s moves = ⟨Service.after env s.world .run, .idle⟩) := by
  intro env s₀ numbers
  have e : env.Apart := (Environment.around_within c plan allows bound).apart
  have begins : s₀.Booked [] [] := by
    have idle : w₀.worker.waiting = [] := by rw [Worker.waiting, unused.jobs]; rfl
    refine ⟨by simp, ?_, fun task waits => ?_, fun number run => ?_, by simp⟩
    · show ([] ++ w₀.worker.waiting.filterMap Task.ticket?).Sublist _
      rw [idle]
      exact .refl []
    · have waits' : task ∈ w₀.worker.waiting := waits
      rw [idle] at waits'
      cases waits'
    · cases run
  have ended := (begins.pass e happenings).1
  refine ⟨ended.order.sublist (List.sublist_append_left _ _),
    (List.sublist_append_left _ _).trans ended.lined, fun before happening rest split => ?_⟩
  intro s s'
  have booked : s.Booked (taken env before s₀) (begun env before s₀) := (begins.pass e before).1
  obtain ⟨next, confined⟩ := booked.happen e happening
  refine ⟨fun number tenant => accepted?_fresh e, fun number => booked.started?_fresh, confined,
    fun number r hr => ?_, fun idle => ?_⟩
  · obtain ⟨r', hr', becomes, _⟩ := confined.results number r hr
    obtain ⟨r'', hr'', later⟩ := (next.pass e rest).2 number r' hr'
    exact ⟨r'', hr'', becomes.trans later⟩
  · have same : s = ⟨s.world, .idle⟩ := by rw [← idle]
    rw [same]
    exact run_moves env booked.fresh

/-- An export is replaced while its job runs, and ends well; nothing changes its result any more,
neither the failure of the newer one nor the shutdown of the service. -/
theorem results_final_replaced :
    let w₀ : World Store := ⟨⟨[.tenant ⟨⟨7⟩, .str "acme"⟩]⟩, [], ⟨60, true, .idle, []⟩, 0,
      ⟨2, true, []⟩, .here (.new "data.tar"), ⟨0⟩, []⟩
    let env := Environment.around (.ofStore 0) ⟨.standard, 2, 1, .null, []⟩ true 9
    let s₀ : Session Store := ⟨w₀, .idle⟩
    let before : List Happening := [.move (.request (.submit ⟨7⟩ [])), .move .start,
      .move (.request (.submit ⟨7⟩ [])), .move (.effort .prepare),
      .move (.effort (.call (.keep .tenant (.str "acme")))), .move (.mark (.ok ())),
      .move .touch, .move .leave]
    let rest : List Happening := [.stop, .move (.effort .prepare),
      .move (.mark (.error .workerShutdown)), .shutdown, .move .touch, .move .leave]
    let happenings := before ++ .move .start :: rest
    w₀.Unused ∧ (taken env happenings s₀).map (·.1) = [0, 1] ∧
      begun env happenings s₀ = [0, 1] ∧
      (s₀.pass env happenings).world.results.map (·.status) = [.succeeded, .failed] ∧
      ∃ r, (s₀.pass env before).world.result? 0 = some r ∧ r.status = .succeeded ∧
        (s₀.pass env happenings).world.result? 0 = some r := by
  intro w₀ env s₀ before rest happenings
  have unused : w₀.Unused := ⟨rfl, rfl, by decide, rfl, rfl, by decide⟩
  have accepted : (taken env happenings s₀).map (·.1) = [0, 1] := by decide +kernel
  have started : begun env happenings s₀ = [0, 1] := by decide +kernel
  have statuses : (s₀.pass env happenings).world.results.map (·.status) =
      [.succeeded, .failed] := by decide +kernel
  have succeeded : ((s₀.pass env before).world.result? 0).map (·.status) = some .succeeded := by
    decide +kernel
  obtain ⟨r, hr, status⟩ := Option.map_eq_some_iff.mp succeeded
  obtain ⟨_, _, steps⟩ := results_final (.ofStore 0) ⟨.standard, 2, 1, .null, []⟩ true 9 w₀ unused
    happenings
  obtain ⟨_, _, _, onward, _⟩ := steps before (.move .start) rest rfl
  obtain ⟨r', hr', becomes⟩ := onward 0 r hr
  have same : r' = r := becomes.final (JobResult.isDone_of status)
  rw [same, ← pass_append env s₀ before (.move .start) rest] at hr'
  exact ⟨unused, accepted, started, statuses, r, hr, status, hr'⟩

end Session

end Handover
