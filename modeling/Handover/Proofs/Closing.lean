import Handover.Proofs.Telling

namespace Handover

open Act (Preserves)

variable {δ : Type}

namespace Worker

variable {τ : Type} {w : Worker τ} {place : Nat}

theorem running_started (idle : w.places (· = .running) = [])
    (waits : w.phase? place = some .queued) :
    (w.setPhase place .running).places (· = .running) = [place] := by
  have nobody : ∀ p, w.phase? p ≠ some .running := by
    intro p running
    have mem : p ∈ w.places (· = .running) := mem_places.mpr ⟨_, running, rfl⟩
    rw [idle] at mem
    cases mem
  refine (eq_places (List.pairwise_singleton ..) fun p => ?_).symm
  rw [mem_places, phase?_setPhase, List.mem_singleton]
  by_cases own : p = place
  · simp [own, waits]
  · simp [own, nobody p]

theorem running_finished (alone : w.places (· = .running) = [place]) :
    (w.setPhase place .finished).places (· = .running) = [] := by
  refine List.eq_nil_iff_forall_not_mem.mpr fun p mem => ?_
  rw [mem_places, phase?_setPhase] at mem
  split at mem
  next => simp at mem
  next other => exact other (List.mem_singleton.mp (alone ▸ mem_places.mpr mem))

/-- Where no job waits, the pending ones are those that run. -/
theorem depth_unwaited (h : w.waiting = []) : w.depth = (w.places (· = .running)).length := by
  have unqueued := start?_none (start?_nil h)
  rw [depth_eq]
  refine congrArg List.length (places_congr fun p => ?_)
  have apart : w.phase? p ≠ some .queued := by
    intro waits
    have mem : p ∈ w.places (· = .queued) := mem_places.mpr ⟨_, waits, rfl⟩
    rw [unqueued] at mem
    cases mem
  cases found : w.phase? p with
  | none => simp
  | some phase => cases phase <;> simp_all [Phase.isPending]

end Worker

namespace Service

variable {env : Environment δ} {c : Surroundings δ} {w : World δ} {s : Storage} {due : List Uuid}

/-- Where nothing is registered, nothing is told of. -/
theorem notices_retired (h : w.Retired s due) (op : Operation) : notices env w op = [] := by
  have unfound : ∀ tenant, notices.found w tenant = [] := by
    intro tenant
    rw [notices.found, Registry.get_empty h.entries]
  cases op with
  | look tenant => exact unfound tenant
  | download tenant => exact unfound tenant
  | delete tenant =>
    rw [notices, unfound, outcome_getResult_retired h]
    rfl
  | purge => rw [notices, Registry.purge_empty h.entries]
  | _ => rfl

theorem outcome_download_retired (h : w.Retired s due) (tenant : Uuid) :
    (download env tenant).outcome w = (.error (notFound tenant), w) :=
  Act.outcome_bind_error (outcome_getResult_retired h tenant)

theorem outcome_delete_retired (h : w.Retired s due) (tenant : Uuid) :
    (delete env tenant).outcome w = (.error (notFound tenant), w) :=
  Act.outcome_bind_error (outcome_getResult_retired h tenant)

/-- A submission for a tenant that is known is refused: for the jobs that are still pending, or
because the worker has been shut down. -/
theorem submit_retired_refused (e : env.Within c) (h : w.Retired s due) {id : Uuid}
    (knows : c.Knows id w.data) (skipped : List RecordType) :
    ((submit env id skipped).outcome w).1 = .error
      (if w.worker.capacity ≤ queueDepth w then .queueFull (.int w.worker.capacity)
        else .workerShutdown) := by
  obtain ⟨tenant, data, asked⟩ := knows
  have unheld := Registry.held?_empty h.entries id
  have previous : (live? w id).bind w.result? = none := by
    rw [live?, Registry.peek, unheld]
    rfl
  have peeked : (w.registry.peek w.isEvictable w.time id).2 = w.registry := by
    rw [Registry.peek, unheld]
  have approved := outcome_approve_known e asked
  rw [previous, peeked, verdict] at approved
  by_cases full : w.worker.capacity ≤ queueDepth w
  · have noRoom : w.worker.isFull = true := decide_eq_true full
    rw [if_pos noRoom] at approved
    rw [if_pos full, submit, Act.outcome_bind_error approved]
  · have room : w.worker.isFull = false := decide_eq_false full
    rw [room, if_neg Bool.false_ne_true] at approved
    rw [if_neg full]
    have unregistered : World.Retired s due { w with data, registry := w.registry } :=
      ⟨h.entries, h.isOpen, h.idle, h.storage, h.due⟩
    rw [submit, Act.outcome_bind_ok approved,
      Act.outcome_bind_error (outcome_enter_retired unregistered id tenant skipped)]

end Service

namespace Session

open Service

variable {env : Environment δ} {s t : Session δ} {capacity : Int}

/-- A session of a worker in which no other job runs than the one on duty. -/
structure Manned (capacity : Int) (s : Session δ) : Prop where
  capacity : s.world.worker.capacity = capacity
  running : s.world.worker.places (· = .running) = s.duty.place?.toList

theorem Labours.manned (labours : s.Labours t) (h : s.Manned capacity) : t.Manned capacity := by
  obtain ⟨same, place⟩ | ⟨place, idle, waits, worker, taken⟩ | ⟨place, busy, left, worker⟩ :=
    labours.worker
  · exact ⟨same ▸ h.capacity, by rw [same, place]; exact h.running⟩
  · have free : s.world.worker.places (· = .running) = [] := by rw [h.running, idle]; rfl
    exact ⟨worker ▸ h.capacity, by rw [worker, taken]; exact Worker.running_started free waits⟩
  · have alone : s.world.worker.places (· = .running) = [place] := by rw [h.running, busy]; rfl
    exact ⟨worker ▸ h.capacity, by rw [worker, left]; exact Worker.running_finished alone⟩

theorem manned_upkeep (capacity : Int) (duty : Duty) :
    World.Upkeep fun w : World δ => Manned capacity ⟨w, duty⟩ where
  aside h beside := ⟨beside.worker ▸ h.capacity, beside.worker ▸ h.running⟩
  looked _ h := ⟨h.capacity, h.running⟩
  peeked _ h := ⟨h.capacity, h.running⟩
  removed _ h := ⟨h.capacity, h.running⟩
  purged h := ⟨h.capacity, h.running⟩
  registered _ h := ⟨h.capacity, h.running⟩
  discarded _ _ h := ⟨h.capacity, h.running⟩
  queued h accepted := by
    have worker := (Worker.submit_accepted accepted).1
    refine ⟨worker ▸ h.capacity, ?_⟩
    rw [worker, Worker.places_submitted _ _ rfl]
    exact h.running
  later _ h := ⟨h.capacity, h.running⟩

theorem happen_manned (e : env.Apart) (h : s.Manned capacity) (happening : Happening) :
    (s.happen env happening).Manned capacity := by
  have stopped : ∀ {w : World δ}, w.worker = s.world.worker.shutdown →
      Manned capacity ⟨w, s.duty⟩ := by
    intro w worker
    have same : s.world.worker.shutdown.places (· = .running) =
        s.world.worker.places (· = .running) := Worker.places_shutdown _ rfl
    exact ⟨worker ▸ h.capacity, by rw [worker, same]; exact h.running⟩
  cases happening with
  | move move =>
    rcases move.request_or with ⟨op, hop, rfl⟩ | unasked
    · rw [happen_request hop]
      exact request_preserves e (manned_upkeep capacity s.duty) hop h
    · exact (step_labours e s unasked).manned h
  | stop => exact stopped rfl
  | shutdown => exact stopped (shutdown_books e s.world).2
  | disturb storage => exact ⟨h.capacity, h.running⟩

/-- A session whose service has been shut down. -/
def Shut (s : Session δ) : Prop :=
  s.world.Retired s.world.storage s.world.due

theorem shutdown_shut (e : env.Apart) (s : Session δ) : (s.happen env .shutdown).Shut :=
  have ended := shutdown_retired e s.world
  ⟨ended.entries, ended.isOpen, ended.idle, rfl, rfl⟩

theorem Labours.shut (labours : s.Labours t) (h : s.Shut) :
    t.Shut ∧ ∀ place, t.duty.place? = some place → s.duty.place? = some place := by
  have entries : t.world.registry.entries = [] := by
    rcases labours.registry with same | ⟨key, value, touched⟩
    · rw [same]
      exact h.entries
    · rw [touched, Registry.touch, Registry.held?_empty h.entries]
      exact h.entries
  obtain ⟨same, place⟩ | ⟨place, _, waits, _⟩ | ⟨place, _, left, worker⟩ := labours.worker
  · exact ⟨⟨entries, same ▸ h.isOpen, same ▸ h.idle, rfl, rfl⟩, fun _ on => place ▸ on⟩
  · have mem : place ∈ s.world.worker.places (· = .queued) := Worker.mem_places.mpr ⟨_, waits, rfl⟩
    rw [Worker.start?_none (Worker.start?_nil h.idle)] at mem
    cases mem
  · have unwaited : (s.world.worker.setPhase place .finished).waiting.Sublist _ :=
      s.world.worker.setPhase_waiting place (by decide)
    rw [h.idle, List.sublist_nil] at unwaited
    refine ⟨⟨entries, worker ▸ h.isOpen, worker ▸ unwaited, rfl, rfl⟩, fun _ on => ?_⟩
    rw [left] at on
    cases on

/-- Whatever happens to a service that has been shut down, it stays so: nothing is told, no job is
started, and only the job on duty goes on. -/
theorem happen_shut (e : env.Apart) (h : s.Shut) (happening : Happening) :
    (s.happen env happening).Shut ∧ s.notices env happening = [] ∧ s.started? happening = none ∧
      ∀ place, (s.happen env happening).duty.place? = some place →
        s.duty.place? = some place := by
  cases happening with
  | move move =>
    rcases move.request_or with ⟨op, hop, rfl⟩ | unasked
    · have still := retired_after e h op
      rw [happen_request hop]
      exact ⟨⟨still.entries, still.isOpen, still.idle, rfl, rfl⟩, notices_retired h op, rfl,
        fun _ => id⟩
    · obtain ⟨shut, place⟩ := (step_labours e s unasked).shut h
      refine ⟨shut, notices_unasked env s unasked, ?_, place⟩
      cases move with
      | start =>
        rw [started?, Worker.start?_nil h.idle]
        cases s.duty <;> rfl
      | _ => rfl
  | stop => exact ⟨⟨h.entries, rfl, waiting_shutdown _, rfl, rfl⟩, rfl, rfl, fun _ => id⟩
  | shutdown => exact ⟨shutdown_shut e s, Registry.close_empty h.entries, rfl, fun _ => id⟩
  | disturb storage => exact ⟨⟨h.entries, h.isOpen, h.idle, rfl, rfl⟩, rfl, rfl, fun _ => id⟩

theorem pass_shut (e : env.Apart) (h : s.Shut) (happenings : List Happening) :
    (s.pass env happenings).Shut ∧ told env happenings s = [] ∧ begun env happenings s = [] ∧
      ∀ place, (s.pass env happenings).duty.place? = some place → s.duty.place? = some place := by
  induction happenings generalizing s with
  | nil => exact ⟨h, rfl, rfl, fun _ => id⟩
  | cons happening rest ih =>
    obtain ⟨shut, silent, unstarted, place⟩ := happen_shut e h happening
    obtain ⟨further, untold, unbegun, place'⟩ := ih shut
    refine ⟨further, ?_, ?_, fun p on => place p (place' p on)⟩
    · rw [told, silent, untold]
      rfl
    · rw [begun, unstarted, unbegun]
      rfl

theorem pass_manned (e : env.Apart) (h : s.Manned capacity) (happenings : List Happening) :
    (s.pass env happenings).Manned capacity := by
  induction happenings generalizing s with
  | nil => exact h
  | cons happening rest ih => exact ih (happen_manned e h happening)

/-- Until a service is shut down for the first time, what has left the registry has been told of;
from then on nothing is registered. -/
theorem pass_accounted (e : env.Apart) {ns : List (Notice Uuid Nat)} (h : s.world.Accounted ns)
    (happenings : List Happening) : (s.pass env happenings).Shut ∨
      (s.pass env happenings).world.Accounted (ns ++ told env happenings s) := by
  induction happenings generalizing s ns with
  | nil =>
    rw [told, List.append_nil]
    exact .inr h
  | cons happening rest ih =>
    by_cases ends : happening = .shutdown
    · subst ends
      exact .inl (pass_shut e (shutdown_shut e s) rest).1
    · rw [told, ← List.append_assoc]
      exact ih (happen_accounted e h ends)

/-- A world that has some results, and besides them only those of exports that are submitted. -/
def Adds (results : List JobResult) (w : World δ) : Prop :=
  ∃ made, w.results = results ++ made ∧ ∀ r ∈ made, r.status = .submitted

theorem Adds.refl (w : World δ) : Adds w.results w :=
  ⟨[], (List.append_nil _).symm, by simp⟩

theorem adds_upkeep (results : List JobResult) : World.Upkeep (Adds (δ := δ) results) where
  aside := fun ⟨made, same, submitted⟩ beside => ⟨made, beside.results.trans same, submitted⟩
  looked _ h := h
  peeked _ h := h
  removed _ h := h
  purged h := h
  registered {w} id := by
    rintro ⟨made, same, submitted⟩
    refine ⟨made ++ [.submitted id w.clock.now], ?_, fun r mem => ?_⟩
    · rw [← List.append_assoc, ← same]
      rfl
    · rcases List.mem_append.mp mem with old | new
      · exact submitted r old
      · rw [List.mem_singleton.mp new]
        rfl
  discarded _ _ h := h
  queued h _ := h
  later _ h := h

/-- Without a job on duty, a service that has been shut down makes no results but those of exports
that it refuses. -/
theorem happen_idle (e : env.Apart) (h : s.Shut) (idle : s.duty = .idle) {results : List JobResult}
    (adds : Adds results s.world) (happening : Happening) :
    Adds results (s.happen env happening).world := by
  have same : ∀ {w : World δ}, w.results = s.world.results → Adds results w :=
    fun {_} h => adds.imp fun _ ⟨results, submitted⟩ => ⟨h.trans results, submitted⟩
  cases happening with
  | move move =>
    rcases move.request_or with ⟨op, hop, rfl⟩ | unasked
    · rw [happen_request hop]
      exact request_preserves e (adds_upkeep results) hop adds
    · have still : step env s move = s := by
        cases move with
        | request op =>
          cases unasked op rfl
          rfl
        | start => rw [step, idle, Worker.start?_nil h.idle]
        | _ => rw [step, idle]
      exact same (congrArg (·.world.results) still)
  | stop => exact same rfl
  | shutdown => exact same (shutdown_books e s.world).1
  | disturb storage => exact same rfl

theorem pass_idle (e : env.Apart) (h : s.Shut) (idle : s.duty = .idle) {results : List JobResult}
    (adds : Adds results s.world) (happenings : List Happening) :
    (s.pass env happenings).duty = .idle ∧ Adds results (s.pass env happenings).world := by
  induction happenings generalizing s with
  | nil => exact ⟨idle, adds⟩
  | cons happening rest ih =>
    obtain ⟨shut, _, _, place⟩ := happen_shut e h happening
    have still : (s.happen env happening).duty = .idle := by
      cases duty : (s.happen env happening).duty with
      | idle => rfl
      | _ =>
        rw [duty, idle] at place
        cases place _ rfl
    exact ih shut still (happen_idle e h idle adds happening)

/-- What is registered when a service is shut down is told of then, if it has not been shut down
before. -/
theorem shutdown_tells {ns : List (Notice Uuid Nat)} (h : s.world.Accounted ns) {tenant : Uuid}
    {ticket : Nat} (registered : s.world.registry.value? tenant = some ticket) :
    ns.countP (·.tellsOf tenant ticket) = 0 ∧
      s.world.registry.close.notices.countP (·.tellsOf tenant ticket) = 1 ∧
      ⟨tenant, ticket, .shutdown⟩ ∈ s.world.registry.close.notices := by
  have once := h.once tenant ticket
  have closed : s.world.registry.presence tenant ticket = _ :=
    Registry.close_accounted h.sound.keyed h.listens h.sound.awake
  have left : s.world.registry.close.registry.presence tenant ticket = 0 := by
    rw [Registry.presence, Registry.held?_close]
    rfl
  have present : s.world.registry.presence tenant ticket = 1 := by
    rw [Registry.presence_eq, if_pos registered]
  rw [present] at once closed
  rw [left, Nat.zero_add] at closed
  refine ⟨?_, closed.symm, ?_⟩
  · split_ifs at once <;> omega
  · have some : 0 < s.world.registry.close.notices.countP (·.tellsOf tenant ticket) := by omega
    obtain ⟨notice, mem, tells⟩ := List.countP_pos_iff.mp some
    have cause := Registry.follow_cause notFound s.world.registry ⟨0, fun _ => false⟩ .close notice
      mem
    obtain ⟨key, value, why⟩ := notice
    obtain ⟨rfl, rfl⟩ : key = tenant ∧ value = ticket := of_decide_eq_true tells
    obtain rfl : RemovalCause.shutdown = why := Option.some.inj cause
    exact mem

end Session

/-- A worker that nobody has used yet is manned by nobody. -/
theorem World.Unused.manned {w : World δ} (h : w.Unused) :
    Session.Manned w.worker.capacity ⟨w, .idle⟩ := by
  refine ⟨rfl, ?_⟩
  show (w.worker.jobs.zipIdx.filter _).map _ = []
  rw [h.jobs]
  rfl

theorem World.Unused.accounted {w : World δ} (h : w.Unused) (listens : w.registry.listens = true) :
    w.Accounted [] := by
  refine ⟨⟨by rw [h.entries]; exact List.nodup_nil, h.awake⟩, listens, fun key value => ?_⟩
  rw [Registry.presence, Registry.held?_empty h.entries]
  exact Nat.zero_le _

namespace Session

open Service

variable {env : Environment δ} {c : Surroundings δ} {s : Session δ} {capacity : Int}

/-- What is registered when a service is shut down has been told of once when all is over. -/
theorem registered_told (e : env.Apart) {s₀ : Session δ} (h : s₀.world.Accounted [])
    (first rest : List Happening) {tenant : Uuid} {ticket : Nat}
    (registered : (s₀.pass env first).world.registry.value? tenant = some ticket) :
    let notices := told env (first ++ .shutdown :: rest) s₀
    ⟨tenant, ticket, .shutdown⟩ ∈ notices ∧ notices.countP (·.tellsOf tenant ticket) = 1 := by
  intro notices
  have untold := (pass_shut e (shutdown_shut e (s₀.pass env first)) rest).2.1
  have parts : notices =
      told env first s₀ ++ (s₀.pass env first).world.registry.close.notices := by
    show told env (first ++ .shutdown :: rest) s₀ = _
    rw [told_append, told, untold, List.append_nil]
    rfl
  rcases pass_accounted e h first with gone | accounted
  · have empty := Registry.value?_of_not_held (Registry.held?_empty gone.entries tenant)
    cases empty.symm.trans registered
  · obtain ⟨unheard, heard, mem⟩ := shutdown_tells accounted registered
    rw [List.nil_append] at unheard
    rw [parts, List.countP_append, unheard, heard]
    exact ⟨List.mem_append_right _ mem, rfl⟩

/-- In a service that has been shut down, the job on duty is the only one that is pending. -/
theorem depth_shut (h : s.Shut) (manned : s.Manned capacity) :
    queueDepth s.world = s.duty.place?.toList.length := by
  rw [← manned.running]
  exact Worker.depth_unwaited h.idle

theorem unmanned_refuses (e : env.Within c) (h : s.Shut) (manned : s.Manned capacity)
    (positive : 0 < capacity) (idle : s.duty = .idle) : queueDepth s.world = 0 ∧
      ∀ id, c.Knows id s.world.data → ∀ skipped,
        ((submit env id skipped).outcome s.world).1 = .error .workerShutdown := by
  have empty : queueDepth s.world = 0 := by
    rw [depth_shut h manned, idle]
    rfl
  refine ⟨empty, fun id knows skipped => ?_⟩
  rw [submit_retired_refused e h knows skipped, empty, manned.capacity, if_neg]
  exact Int.not_le_of_gt positive

theorem manned_refuses (e : env.Within c) (h : s.Shut) (manned : s.Manned capacity)
    (positive : 0 < capacity) (busy : s.duty ≠ .idle) : queueDepth s.world = 1 ∧
      ∀ id, c.Knows id s.world.data → ∀ skipped,
        ((submit env id skipped).outcome s.world).1 =
          .error (if capacity = 1 then .queueFull (.int 1) else .workerShutdown) := by
  have one : queueDepth s.world = 1 := by
    rw [depth_shut h manned]
    cases duty : s.duty with
    | idle => exact absurd duty busy
    | _ => rfl
  refine ⟨one, fun id knows skipped => ?_⟩
  rw [submit_retired_refused e h knows skipped, one, manned.capacity]
  by_cases single : capacity = 1
  · have few : capacity ≤ (1 : Nat) := Int.le_of_eq single
    rw [if_pos few, if_pos single, single]
  · have room : ¬ capacity ≤ (1 : Nat) := fun few => single (by omega)
    rw [if_neg room, if_neg single]

/-- A shutdown is final. It stops the worker, may wait until no job is on duty, and then closes the
registry; whatever happened before and whatever happens afterwards, from then on nothing is
registered, no result can be read, downloaded or deleted, and no job is started, and the listener
has been told once of every result that was registered. Nothing is pending, and every submission for
a known tenant is refused with the shutdown as the reason, unless the shutdown has not waited for a
job that was on duty. That job goes on, alone, and counts as pending until it leaves, so that it can
be what fills the queue; after that no job's result changes any more. -/
theorem shutdown_final (c : Surroundings δ) (plan : JobPlan) (allows : Bool) (bound : Nat)
    (w₀ : World δ) (unused : w₀.Unused) (listens : w₀.registry.listens = true)
    (before during rest : List Happening) (waits : Bool) :
    let env := Environment.around c plan allows bound
    let s₀ : Session δ := ⟨w₀, .idle⟩
    let first := before ++ .stop :: if waits then during else []
    let s := s₀.pass env first
    let t := (s.happen env .shutdown).pass env rest
    (waits = true → s.duty = .idle) →
      t.world.registry.entries = [] ∧
      (∀ tenant,
        ((getResult env tenant).outcome t.world).1 = .error (.resultNotFound (.uuid tenant)) ∧
        ((download env tenant).outcome t.world).1 = .error (.resultNotFound (.uuid tenant)) ∧
        ((delete env tenant).outcome t.world).1 = .error (.resultNotFound (.uuid tenant))) ∧
      begun env rest (s.happen env .shutdown) = [] ∧
      (runNext env).outcome t.world = (.ok none, t.world) ∧
      (∀ tenant ticket, s.world.registry.value? tenant = some ticket →
        let notices := told env (first ++ .shutdown :: rest) s₀
        ⟨tenant, ticket, .shutdown⟩ ∈ notices ∧
          notices.countP (·.tellsOf tenant ticket) = 1) ∧
      (waits = true ∨ s.duty = .idle → t.duty = .idle) ∧
      (t.duty = .idle →
        queueDepth t.world = 0 ∧
        (∀ id, c.Knows id t.world.data → ∀ skipped,
          ((submit env id skipped).outcome t.world).1 = .error .workerShutdown) ∧
        ∀ more, (t.pass env more).duty = .idle ∧
          ∃ made, (t.pass env more).world.results = t.world.results ++ made ∧
            ∀ r ∈ made, r.status = .submitted) ∧
      (t.duty ≠ .idle →
        t.duty.place? = s.duty.place? ∧
        queueDepth t.world = 1 ∧
        ∀ id, c.Knows id t.world.data → ∀ skipped,
          ((submit env id skipped).outcome t.world).1 = .error
            (if w₀.worker.capacity = 1 then .queueFull (.int 1) else .workerShutdown)) := by
  intro env s₀ first s t waited
  have within : env.Within c := Environment.around_within c plan allows bound
  have e : env.Apart := within.apart
  have ended := shutdown_shut e s
  obtain ⟨shut, _, unbegun, place⟩ := pass_shut e ended rest
  have manned : t.Manned w₀.worker.capacity :=
    pass_manned e (happen_manned e (pass_manned e unused.manned first) .shutdown) rest
  refine ⟨shut.entries, fun tenant => ?reads, unbegun, outcome_runNext_idle shut.idle,
    fun tenant ticket registered => ?tells, fun unmanned => ?leaves, fun idle => ?left,
    fun busy => ?goes⟩
  case reads =>
    rw [outcome_getResult_retired shut, outcome_download_retired shut, outcome_delete_retired shut]
    exact ⟨rfl, rfl, rfl⟩
  case tells => exact registered_told e (unused.accounted listens) first rest registered
  case leaves => exact (pass_idle e ended (unmanned.elim waited id) (.refl _) rest).1
  case left =>
    obtain ⟨empty, refused⟩ := unmanned_refuses within shut manned unused.capacity idle
    exact ⟨empty, refused, pass_idle e shut idle (.refl _)⟩
  case goes =>
    obtain ⟨one, refused⟩ := manned_refuses within shut manned unused.capacity busy
    refine ⟨?_, one, refused⟩
    cases duty : t.duty with
    | idle => exact absurd duty busy
    | _ => exact (place _ (by rw [duty]; rfl)).symm

/-- A shutdown that waits for one job and drops another one, and is followed by a submission, a look
and another shutdown. -/
theorem shutdown_final_waiting :
    let w₀ : World Store := ⟨⟨[.tenant ⟨⟨7⟩, .str "acme"⟩, .tenant ⟨⟨8⟩, .str "umbra"⟩]⟩, [],
      ⟨60, true, .idle, []⟩, 0, ⟨2, true, []⟩, .here (.new "data.tar"), ⟨0⟩, []⟩
    let env := Environment.around (.ofStore 0) ⟨.standard, 2, 1, .null, []⟩ true 9
    let s₀ : Session Store := ⟨w₀, .idle⟩
    let before : List Happening := [.move (.request (.submit ⟨7⟩ [])),
      .move (.request (.submit ⟨8⟩ [])), .move .start, .move (.effort .prepare)]
    let during : List Happening := [.move (.mark (.ok ())), .move .touch, .move .leave]
    let rest : List Happening := [.move (.request (.submit ⟨8⟩ [])), .move (.request (.look ⟨7⟩)),
      .move .start, .shutdown]
    let waits := true
    let first := before ++ .stop :: if waits then during else []
    let s := s₀.pass env first
    let t := (s.happen env .shutdown).pass env rest
    w₀.Unused ∧ w₀.registry.listens = true ∧ s.duty = .idle ∧
      s.world.registry.value? ⟨7⟩ = some 0 ∧ s.world.registry.value? ⟨8⟩ = some 1 ∧
      (told env (first ++ .shutdown :: rest) s₀).countP (·.tellsOf ⟨7⟩ 0) = 1 ∧
      (told env (first ++ .shutdown :: rest) s₀).countP (·.tellsOf ⟨8⟩ 1) = 1 ∧
      t.world.registry.entries = [] ∧ begun env rest (s.happen env .shutdown) = [] ∧
      queueDepth t.world = 0 ∧
      ((submit env ⟨8⟩ []).outcome t.world).1 = .error .workerShutdown := by
  intro w₀ env s₀ before during rest waits first s t
  have unused : w₀.Unused := ⟨rfl, rfl, by decide, rfl, rfl, by decide⟩
  have listens : w₀.registry.listens = true := rfl
  have idle : s.duty = .idle := by rfl
  have served : s.world.registry.value? ⟨7⟩ = some 0 := by decide +kernel
  have dropped : s.world.registry.value? ⟨8⟩ = some 1 := by decide +kernel
  have found : (t.world.data.tenant? ⟨8⟩).isSome = true := by decide +kernel
  obtain ⟨tenant, known⟩ := Option.isSome_iff_exists.mp found
  have knows : (Surroundings.ofStore 0).Knows ⟨8⟩ t.world.data :=
    ⟨tenant, t.world.data, congrArg (fun found => (Except.ok found, t.world.data)) known⟩
  obtain ⟨entries, _, unbegun, _, once, leaves, unmanned, _⟩ := shutdown_final (.ofStore 0)
    ⟨.standard, 2, 1, .null, []⟩ true 9 w₀ unused listens before during rest waits fun _ => idle
  obtain ⟨depth, refused, _⟩ := unmanned (leaves (.inl rfl))
  -- The states are compared as they are written; computing them would take long.
  with_reducible exact ⟨unused, listens, idle, served, dropped, (once ⟨7⟩ 0 served).2,
    (once ⟨8⟩ 1 dropped).2, entries, unbegun, depth, refused ⟨8⟩ knows []⟩

/-- A job that is on duty at a shutdown that does not wait for it is still pending afterwards, and
if there is room for one job only, a submission is refused because the queue is full. -/
theorem unwaited_job_counts :
    let w₀ : World Store := ⟨⟨[.tenant ⟨⟨7⟩, .str "acme"⟩, .tenant ⟨⟨8⟩, .str "umbra"⟩]⟩, [],
      ⟨60, true, .idle, []⟩, 0, ⟨1, true, []⟩, .here (.new "data.tar"), ⟨0⟩, []⟩
    let env := Environment.around (.ofStore 0) ⟨.standard, 2, 1, .null, []⟩ false 9
    let s₀ : Session Store := ⟨w₀, .idle⟩
    let before : List Happening := [.move (.request (.submit ⟨7⟩ [])), .move .start,
      .move (.effort .prepare)]
    let t := (s₀.pass env (before ++ [.stop])).happen env .shutdown
    w₀.Unused ∧ w₀.registry.listens = true ∧ (Surroundings.ofStore 0).Knows ⟨8⟩ t.world.data ∧
      queueDepth t.world = 1 ∧
      ((submit env ⟨8⟩ []).outcome t.world).1 = .error (.queueFull (.int 1)) ∧
      ((submit env ⟨8⟩ []).outcome t.world).1 ≠ .error .workerShutdown := by
  intro w₀ env s₀ before t
  have found : (t.world.data.tenant? ⟨8⟩).isSome = true := by decide +kernel
  obtain ⟨tenant, known⟩ := Option.isSome_iff_exists.mp found
  have knows : (Surroundings.ofStore 0).Knows ⟨8⟩ t.world.data :=
    ⟨tenant, t.world.data, congrArg (fun found => (Except.ok found, t.world.data)) known⟩
  have unused : w₀.Unused := ⟨rfl, rfl, by decide, rfl, rfl, by decide⟩
  have within : env.Within (.ofStore 0) := Environment.around_within ..
  have manned : t.Manned 1 :=
    happen_manned within.apart (pass_manned within.apart unused.manned _) .shutdown
  have shut : t.Shut := shutdown_shut within.apart _
  have taken : t.duty.place? = some 0 := by decide +kernel
  have busy : t.duty ≠ .idle := by
    intro idle
    rw [idle] at taken
    cases taken
  obtain ⟨one, refused⟩ := manned_refuses within shut manned (by decide) busy
  have full : ((submit env ⟨8⟩ []).outcome t.world).1 = .error (.queueFull (.int 1)) :=
    refused ⟨8⟩ knows []
  have listens : w₀.registry.listens = true := rfl
  have unlike : ((submit env ⟨8⟩ []).outcome t.world).1 ≠ .error .workerShutdown := by
    rw [full]
    nofun
  with_reducible exact ⟨unused, listens, knows, one, full, unlike⟩

end Session

end Handover
