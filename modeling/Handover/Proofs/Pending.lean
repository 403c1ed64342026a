import Handover.Proofs.Orderly
import Handover.Proofs.Refusal
import Handover.Proofs.Retrieval

namespace Handover

open Act

variable {δ : Type}

/-- The tenant that a job exports, with the number of its result. -/
def Task.assignment? : Task → Option (Uuid × Nat)
  | filler => none
  | job ticket tenant _ => some (tenant.id, ticket)

namespace World

/-- The registered results that are not finished, under their tenants. -/
def unfinished (w : World δ) : List (Uuid × Nat) :=
  (w.registry.entries.filter fun e => !w.isEvictable e.value).map fun e => (e.key, e.value)

/-- The exports that wait or run. -/
def pending (w : World δ) : List (Uuid × Nat) :=
  (w.worker.jobs.filter fun j => j.phase.isPending).filterMap fun j => j.job.assignment?

/-- A world in which the registered results that are not finished are those of the jobs that wait.
No job is running, and no two are there for one tenant. -/
structure Paired (bound : Int) (w : World δ) : Prop extends w.Orderly where
  capacity : w.worker.capacity = bound
  quiet : w.worker.Quiet
  room : (w.worker.waiting.length : Int) ≤ bound
  registered : ∀ ticket tenant skipped, .job ticket tenant skipped ∈ w.worker.waiting →
    w.registry.value? tenant.id = some ticket
  awaited : ∀ tenant ticket, w.registry.value? tenant = some ticket →
    w.isEvictable ticket = false → ∃ owner skipped, .job ticket owner skipped ∈ w.worker.waiting

variable {w w' : World δ} {bound : Int}

theorem Unused.paired (h : w.Unused) (disposes : w.storage.Disposes) :
    w.Paired w.worker.capacity := by
  have idle : w.worker.waiting = [] := by rw [Worker.waiting, h.jobs]; rfl
  refine ⟨h.orderly disposes, rfl, by simp [Worker.Quiet, h.jobs], ?_, ?_, ?_⟩
  · rw [idle]
    exact Int.le_of_lt h.capacity
  · intro ticket tenant skipped hm
    rw [idle] at hm
    cases hm
  · intro tenant ticket hv
    rw [Registry.value?, Registry.held?, h.entries] at hv
    cases hv

theorem Paired.waiting_unfinished (h : w.Paired bound) {ticket : Nat} {tenant : Tenant}
    {skipped : List RecordType} (hm : .job ticket tenant skipped ∈ w.worker.waiting) :
    w.isEvictable ticket = false := by
  obtain ⟨moment, hr⟩ := h.queued ticket tenant skipped hm
  exact not_evictable hr rfl

theorem Paired.sheds (h : w.Paired bound) (sheds : w.Sheds w') : w'.Paired bound := by
  refine ⟨h.toOrderly.sheds sheds, ?_, ?_, ?_, ?_, ?_⟩
  · exact (congrArg Worker.capacity sheds.worker).trans h.capacity
  · rw [sheds.worker]
    exact h.quiet
  · rw [sheds.worker]
    exact h.room
  · intro ticket tenant skipped hm
    rw [sheds.worker] at hm
    exact sheds.retained tenant.id ticket (h.registered ticket tenant skipped hm)
      (h.waiting_unfinished hm)
  · intro tenant ticket hv stays
    rw [sheds.isEvictable] at stays
    rw [sheds.worker]
    exact h.awaited tenant ticket (sheds.old tenant ticket hv) stays

theorem Paired.beside (h : w.Paired bound) (h' : w.Beside w') : w'.Paired bound :=
  h.sheds (.of_same _ h.registry (fun _ => rfl) h')

/-- The world after a job has been registered and queued, if the previous result of its tenant was
finished. -/
theorem Paired.submitted (h : w.Paired bound) {tenant : Tenant} {skipped : List RecordType}
    {worker : Worker Task} (submitted :
      w.worker.submit (.job w.results.length tenant skipped) = .ok worker)
    (free : ∀ ticket, w.registry.value? tenant.id = some ticket → w.isEvictable ticket = true) :
    Paired bound { w.registered tenant.id with worker } := by
  have value_self := Registry.value?_put_self w.registry w.time tenant.id w.results.length
  have value_other : ∀ other, other ≠ tenant.id →
      (w.registered tenant.id).registry.value? other = w.registry.value? other := fun other hne =>
    Registry.value?_put_of_ne w.registry w.time w.results.length hne
  obtain ⟨waiting, _⟩ := Worker.submit_ok submitted
  obtain ⟨grown, room⟩ := Worker.submit_accepted submitted
  refine ⟨h.toOrderly.registered submitted, ?_, h.quiet.submit submitted, ?_, ?_, ?_⟩
  · exact (congrArg Worker.capacity grown).trans h.capacity
  · rw [h.quiet.depth_eq, h.capacity] at room
    show (worker.waiting.length : Int) ≤ bound
    rw [waiting, List.length_append, List.length_singleton]
    omega
  · intro ticket owner other hm
    have hm' : Task.job ticket owner other ∈
        w.worker.waiting ++ [.job w.results.length tenant skipped] := waiting ▸ hm
    rcases List.mem_append.mp hm' with hold | hnew
    · have hv := h.registered ticket owner other hold
      have hne : owner.id ≠ tenant.id := by
        intro hid
        have done := free ticket (hid ▸ hv)
        rw [h.waiting_unfinished hold] at done
        cases done
      exact (value_other owner.id hne).trans hv
    · cases List.mem_singleton.mp hnew
      exact value_self
  · intro other ticket hv stays
    show ∃ owner skipped, _ ∈ worker.waiting
    rw [waiting]
    by_cases hne : other = tenant.id
    · subst hne
      cases value_self.symm.trans hv
      exact ⟨tenant, skipped, by simp⟩
    · have stays' : w.isEvictable ticket = false := by
        rw [← isEvictable_registered w tenant.id]
        exact stays
      obtain ⟨owner, skipped', hm⟩ :=
        h.awaited other ticket ((value_other other hne).symm.trans hv) stays'
      exact ⟨owner, skipped', List.mem_append_left _ hm⟩

/-- The world after the oldest job has run. -/
theorem Paired.ran {tenant : Tenant} {skipped : List RecordType} {ticket place : Nat}
    {rest : List Task} {rows : List (RecordType × Value)} {result : Except Failure Unit}
    (h : w.Paired bound) (front : w.worker.waiting = .job ticket tenant skipped :: rest)
    (left : ∀ phase, phase ≠ .queued → (w.worker.setPhase place phase).waiting = rest)
    (ended : Ended { w with worker := w.worker.setPhase place .running } ticket tenant.id tenant.id
      rows result w')
    (faults : w'.storage.faults = w.storage.faults) :
    Paired bound { w' with worker := w'.worker.setPhase place .finished } := by
  have value : ∀ other, w'.registry.value? other = w.registry.value? other := by
    intro other
    rw [ended.registry]
    exact Registry.touch_value? w.registry w.time tenant.id other ticket
  have finished : w'.worker.setPhase place .finished =
      (w.worker.setPhase place .running).setPhase place .finished :=
    congrArg (Worker.setPhase · place .finished) ended.worker
  obtain ⟨remaining, orderly⟩ := h.toOrderly.ran front left ended faults
  refine ⟨orderly, ?_, ?_, ?_, ?_, ?_⟩
  · exact (congrArg Worker.capacity finished).trans h.capacity
  · show (w'.worker.setPhase place .finished).Quiet
    rw [finished]
    exact h.quiet.finished place
  · have room := h.room
    rw [front, List.length_cons] at room
    show ((w'.worker.setPhase place .finished).waiting.length : Int) ≤ bound
    rw [remaining]
    omega
  · intro number owner other hm
    have hm' : Task.job number owner other ∈ rest := remaining ▸ hm
    exact (value owner.id).trans
      (h.registered number owner other (front ▸ List.mem_cons_of_mem _ hm'))
  · intro other number hv stays
    show ∃ owner skipped, _ ∈ (w'.worker.setPhase place .finished).waiting
    rw [remaining]
    have hne : number ≠ ticket := by
      rintro rfl
      obtain ⟨r, hr, _, hstatus, _⟩ := ended.ended
      have done : r.isDone = true := by
        rw [JobResult.isDone, hstatus]
        cases result <;> rfl
      have unfinished : w'.isEvictable number = false := stays
      rw [isEvictable, hr, Option.any_some, done] at unfinished
      cases unfinished
    have stays' : w.isEvictable number = false := by
      have same : w'.result? number = w.result? number := ended.others number hne
      rw [isEvictable, ← same]
      exact stays
    obtain ⟨owner, skipped', hm⟩ := h.awaited other number ((value other).symm.trans hv) stays'
    rcases List.mem_cons.mp (front ▸ hm) with hfront | hrest
    · cases hfront
      exact absurd rfl hne
    · exact ⟨owner, skipped', hrest⟩

end World

namespace Service

variable {env : Environment δ} {w : World δ} {bound : Int}

/-- What a submission finds when a second export beside an unfinished one is refused. -/
theorem verdict_free (h : w.Paired bound) (refuses : env.allowsResubmission = false) {id : Uuid}
    (allowed : verdict env w.worker id ((live? w id).bind w.result?) = .ok ()) {ticket : Nat}
    (hv : w.registry.value? id = some ticket) : w.isEvictable ticket = true := by
  cases stays : w.isEvictable ticket with
  | true => rfl
  | false =>
    obtain ⟨r, hr, _⟩ := h.owned id ticket hv
    have unfinished : r.isDone = false := by
      rw [World.isEvictable, hr, Option.any_some] at stays
      exact stays
    rw [World.live?_of_unfinished hv stays, Option.bind_some, hr, verdict, refuses,
      Option.any_some, unfinished] at allowed
    cases allowed

/-- A step of the service keeps every unfinished result registered. -/
structure Steady (bound : Int) (w w' : World δ) : Prop where
  paired : w'.Paired bound
  retained : ∀ tenant ticket, w.registry.value? tenant = some ticket →
    w.isEvictable ticket = false → w'.registry.value? tenant = some ticket

theorem request_steady (e : env.Apart) (cleans : env.CleansUp) (finds : env.FindsTenants)
    (refuses : env.allowsResubmission = false) (h : w.Paired bound) {op : Operation}
    (hop : op ≠ .run) : Steady bound w (after env w op) := by
  rcases request_cases e cleans finds h.toOrderly hop with
    sheds | ⟨tenant, skipped, worker, _, _, allowed, submitted, beside⟩
  · exact ⟨h.sheds sheds, sheds.retained⟩
  · have peeked : w.Sheds (w.peeked tenant.id) := peeked_sheds h.registry (.refl _)
    have free : ∀ ticket, (w.peeked tenant.id).registry.value? tenant.id = some ticket →
        (w.peeked tenant.id).isEvictable ticket = true := fun ticket hv =>
      verdict_free h refuses allowed (peeked.old tenant.id ticket hv)
    have paired := ((h.sheds peeked).submitted submitted free).beside beside
    refine ⟨paired, fun other ticket hv stays => ?_⟩
    have hne : other ≠ tenant.id := by
      rintro rfl
      rw [verdict_free h refuses allowed hv] at stays
      cases stays
    rw [beside.registry]
    exact (Registry.value?_put_of_ne _ _ _ hne).trans (peeked.retained other ticket hv stays)

/-- The oldest job that waits is run to its end. -/
theorem run_steady (e : env.Apart) (h : w.Paired bound) :
    Steady bound w ((runNext env).outcome w).2 ∧
      ((runNext env).outcome w).2.worker.waiting = w.worker.waiting.tail := by
  cases front : w.worker.waiting with
  | nil =>
    rw [outcome_runNext_idle front]
    exact ⟨⟨h, fun _ _ hv _ => hv⟩, front⟩
  | cons task rest =>
    cases task with
    | filler => exact absurd (front ▸ List.mem_cons_self) h.exports
    | job ticket tenant skipped =>
      obtain ⟨place, rows, result, w', left, ended, _, _, faults, run⟩ :=
        runNext_front e h.toOrderly front
      rw [run]
      refine ⟨⟨h.ran front left ended faults, fun other number hv' _ => ?_⟩, ?_⟩
      · show w'.registry.value? other = _
        rw [ended.registry]
        exact (Registry.touch_value? ..).trans hv'
      · exact (h.toOrderly.ran front left ended faults).1

theorem after_steady (e : env.Apart) (cleans : env.CleansUp) (finds : env.FindsTenants)
    (refuses : env.allowsResubmission = false) (h : w.Paired bound) (op : Operation) :
    Steady bound w (after env w op) := by
  by_cases hop : op = .run
  · subst hop
    exact (run_steady e h).1
  · exact request_steady e cleans finds refuses h hop

/-- The records that jobs save have no part in the worlds of a course. -/
theorem course_fst (env : Environment δ) (ops : List Operation) (w : World δ) :
    (course env ops w).1 = ops.foldl (after env) w := by
  suffices all : ∀ s : World δ × Chronicle,
      (ops.foldl (step env) s).1 = ops.foldl (after env) s.1 from all (w, [])
  induction ops with
  | nil => exact fun _ => rfl
  | cons op rest ih => exact fun s => ih (step env s op)

theorem course_append (env : Environment δ) (ops more : List Operation) (w : World δ) :
    (course env (ops ++ more) w).1 = more.foldl (after env) (course env ops w).1 := by
  rw [course_fst, course_fst, List.foldl_append]

theorem course_paired (e : env.Apart) (cleans : env.CleansUp) (finds : env.FindsTenants)
    (refuses : env.allowsResubmission = false) (h : w.Paired bound) (ops : List Operation) :
    (course env ops w).1.Paired bound := by
  rw [course_fst]
  induction ops generalizing w with
  | nil => exact h
  | cons op rest ih => exact ih (after_steady e cleans finds refuses h op).paired

/-- Every run takes one job from the queue. -/
theorem runs_waiting (e : env.Apart) (h : w.Paired bound) (n : Nat) :
    ((List.replicate n Operation.run).foldl (after env) w).Paired bound ∧
      ((List.replicate n Operation.run).foldl (after env) w).worker.waiting =
        w.worker.waiting.drop n := by
  induction n generalizing w with
  | zero => exact ⟨h, rfl⟩
  | succ n ih =>
    obtain ⟨steady, waiting⟩ := run_steady e h
    obtain ⟨paired, rest⟩ := ih (w := after env w .run) steady.paired
    refine ⟨paired, rest.trans ?_⟩
    rw [show (after env w .run).worker.waiting = w.worker.waiting.tail from waiting,
      List.drop_tail]

end Service

namespace World

variable {w : World δ} {bound : Int}

theorem Paired.mem_unfinished (h : w.Paired bound) {p : Uuid × Nat} :
    p ∈ w.unfinished ↔ w.registry.value? p.1 = some p.2 ∧ w.isEvictable p.2 = false := by
  obtain ⟨tenant, ticket⟩ := p
  rw [unfinished, List.mem_map]
  constructor
  · rintro ⟨e, he, hp⟩
    cases hp
    obtain ⟨mem, stays⟩ := List.mem_filter.mp he
    exact ⟨h.registry.value?_of_mem mem, by simpa using stays⟩
  · rintro ⟨hv, stays⟩
    obtain ⟨e, he, rfl, rfl⟩ := Registry.mem_of_value? hv
    exact ⟨e, List.mem_filter.mpr ⟨he, by simpa using stays⟩, rfl⟩

theorem Paired.pending_eq (h : w.Paired bound) :
    w.pending = w.worker.waiting.filterMap Task.assignment? := by
  rw [pending, h.quiet.pending_eq, Worker.waiting, Worker.queued, List.filterMap_map]
  rfl

theorem Paired.mem_pending (h : w.Paired bound) {p : Uuid × Nat} :
    p ∈ w.pending ↔
      ∃ tenant skipped, .job p.2 tenant skipped ∈ w.worker.waiting ∧ tenant.id = p.1 := by
  obtain ⟨id, ticket⟩ := p
  rw [h.pending_eq, List.mem_filterMap]
  constructor
  · rintro ⟨task, hm, htask⟩
    cases task with
    | filler => cases htask
    | job number tenant skipped =>
      cases htask
      exact ⟨tenant, skipped, hm, rfl⟩
  · rintro ⟨tenant, skipped, hm, rfl⟩
    exact ⟨_, hm, rfl⟩

theorem Paired.unfinished_iff_pending (h : w.Paired bound) (p : Uuid × Nat) :
    p ∈ w.unfinished ↔ p ∈ w.pending := by
  rw [h.mem_unfinished, h.mem_pending]
  constructor
  · rintro ⟨hv, stays⟩
    obtain ⟨owner, skipped, hm⟩ := h.awaited p.1 p.2 hv stays
    obtain ⟨moment, hr⟩ := h.queued p.2 owner skipped hm
    obtain ⟨r, hr', howner⟩ := h.owned p.1 p.2 hv
    cases hr.symm.trans hr'
    exact ⟨owner, skipped, hm, howner⟩
  · rintro ⟨tenant, skipped, hm, hid⟩
    exact ⟨hid ▸ h.registered p.2 tenant skipped hm, h.waiting_unfinished hm⟩

theorem Paired.unfinished_keyed (h : w.Paired bound) : (w.unfinished.map (·.1)).Nodup := by
  rw [unfinished, List.map_map]
  exact h.registry.keyed.sublist (List.filter_sublist.map _)

theorem Paired.pending_nodup (h : w.Paired bound) : w.pending.Nodup := by
  have tickets : w.pending.map (·.2) = w.worker.waiting.filterMap Task.ticket? := by
    rw [h.pending_eq, List.map_filterMap]
    congr 1
    funext task
    cases task <;> rfl
  have increasing := (List.pairwise_append.mp h.order).1
  rw [← tickets] at increasing
  exact List.Pairwise.of_map (·.2) (fun _ _ hlt => fun h => Nat.lt_irrefl _ (h ▸ hlt)) increasing

theorem Paired.unfinished_perm (h : w.Paired bound) : w.unfinished.Perm w.pending := by
  have nodup : w.unfinished.Nodup :=
    List.Pairwise.of_map (·.1) (fun _ _ hne h => hne (congrArg _ h)) h.unfinished_keyed
  exact (List.perm_ext_iff_of_nodup nodup h.pending_nodup).mpr h.unfinished_iff_pending

theorem Paired.length_pending (h : w.Paired bound) : w.pending.length = w.worker.depth := by
  rw [h.pending_eq, h.quiet.depth_eq, List.filterMap_length_eq_length]
  intro task hm
  cases task with
  | filler => exact absurd hm h.exports
  | job ticket tenant skipped => rfl

end World

namespace Service

/-- When a second export beside an unfinished one is refused, the unfinished results are in every
course those of the jobs that wait, at most one for a tenant and no more than the queue may hold.
Nothing that is done with the service takes one of them away, and when the jobs have run, every
registered result is done. -/
theorem unfinished_pending (env : Environment δ) (e : env.Apart) (cleans : env.CleansUp)
    (finds : env.FindsTenants) (refuses : env.allowsResubmission = false) (w₀ : World δ)
    (unused : w₀.Unused) (disposes : w₀.storage.Disposes) (ops : List Operation) :
    let w := (course env ops w₀).1
    w.unfinished.Perm w.pending ∧
    (w.unfinished.map (·.1)).Nodup ∧
    w.pending.length = w.worker.depth ∧ (w.unfinished.length : Int) ≤ w₀.worker.capacity ∧
    (∀ p ∈ w.unfinished, w.registry.value? p.1 = some p.2 ∧
      ∃ moment, w.result? p.2 = some (.submitted p.1 moment)) ∧
    (∀ op, ∀ p ∈ w.unfinished, (after env w op).registry.value? p.1 = some p.2) ∧
    let ended := (course env (ops ++ List.replicate w.worker.depth .run) w₀).1
    ended.worker.depth = 0 ∧ ∀ tenant ticket, ended.registry.value? tenant = some ticket →
      ∃ r, ended.result? ticket = some r ∧ r.isDone = true := by
  intro w
  have paired : w.Paired w₀.worker.capacity :=
    course_paired e cleans finds refuses (unused.paired disposes) ops
  have perm := paired.unfinished_perm
  refine ⟨perm, paired.unfinished_keyed, paired.length_pending, ?_, fun p hp => ?_,
    fun op p hp => ?_, ?_⟩
  · rw [perm.length_eq, paired.length_pending, paired.quiet.depth_eq]
    exact paired.room
  · have waits := (paired.unfinished_iff_pending p).mp hp
    obtain ⟨tenant, skipped, hm, hid⟩ := paired.mem_pending.mp waits
    exact ⟨(paired.mem_unfinished.mp hp).1, hid ▸ paired.queued p.2 tenant skipped hm⟩
  · obtain ⟨hv, stays⟩ := paired.mem_unfinished.mp hp
    exact (after_steady e cleans finds refuses paired op).retained p.1 p.2 hv stays
  · intro ended
    have same : ended = (List.replicate w.worker.depth .run).foldl (after env) w :=
      course_append env ops _ w₀
    obtain ⟨paired', waiting⟩ := runs_waiting e paired w.worker.depth
    rw [← same] at paired' waiting
    have idle : ended.worker.waiting = [] := by
      rw [waiting, paired.quiet.depth_eq, List.drop_length]
    refine ⟨by rw [paired'.quiet.depth_eq, idle]; rfl, fun tenant ticket hv => ?_⟩
    obtain ⟨r, hr, _⟩ := paired'.owned tenant ticket hv
    refine ⟨r, hr, ?_⟩
    cases done : r.isDone with
    | true => rfl
    | false =>
      obtain ⟨owner, skipped, hm⟩ := paired'.awaited tenant ticket hv (World.not_evictable hr done)
      rw [idle] at hm
      cases hm

/-- Of two exports one has run; submitting the other one again is refused. -/
theorem unfinished_pending_second :
    let store : Store := ⟨[.tenant ⟨⟨7⟩, .str "acme"⟩, .tenant ⟨⟨8⟩, .str "umbra"⟩]⟩
    let w₀ : World Store := ⟨store, [], ⟨60, true, .idle, []⟩, 0, ⟨2, true, []⟩,
      .here (.new "data.tar"), ⟨0⟩, []⟩
    let env := Environment.around (.ofStore 0) ⟨.standard, 2, 1, .null, []⟩ false 9
    let skipped := RecordType.all.filter (· ≠ .tenant)
    let w := (course env [.submit ⟨7⟩ skipped, .submit ⟨8⟩ skipped, .run, .submit ⟨8⟩ skipped,
      .advance 100, .purge] w₀).1
    w.unfinished = [(⟨8⟩, 1)] ∧ w.worker.depth = 1 ∧ w.unfinished.Perm w.pending ∧
      (after env w (.delete ⟨8⟩)).registry.value? ⟨8⟩ = some 1 := by
  intro store w₀ env skipped w
  have within : env.Within (.ofStore 0) := Environment.around_within ..
  have unused : w₀.Unused := ⟨rfl, rfl, by decide, rfl, rfl, by decide⟩
  have one : w.unfinished = [(⟨8⟩, 1)] := by decide +kernel
  have depth : w.worker.depth = 1 := by decide +kernel
  obtain ⟨perm, _, _, _, _, kept, _⟩ := unfinished_pending env within.apart within.cleansUp
    (within.findsTenants (ofStore_findsTenants 0)) rfl w₀ unused rfl
    [.submit ⟨7⟩ skipped, .submit ⟨8⟩ skipped, .run, .submit ⟨8⟩ skipped, .advance 100, .purge]
  exact ⟨one, depth, perm, kept (.delete ⟨8⟩) (⟨8⟩, 1) (by rw [one]; exact List.mem_cons_self)⟩

end Service

end Handover
