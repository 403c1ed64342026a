import Handover.Act
import Handover.Proofs.Places

namespace Handover

/-- What jobs give that are run one after the other, whatever each gives, and the state they
leave. -/
def Act.inTurn {σ : Type} : List (Act σ Unit) → σ → List (Except Failure Unit) × σ
  | [], s => ([], s)
  | job :: rest, s =>
    let (outcome, s') := job.outcome s
    let (outcomes, s'') := inTurn rest s'
    (outcome :: outcomes, s'')

theorem Act.inTurn_concat {σ : Type} (jobs : List (Act σ Unit)) (job : Act σ Unit) (s : σ) :
    inTurn (jobs ++ [job]) s =
      ((inTurn jobs s).1 ++ [(job.outcome (inTurn jobs s).2).1],
        (job.outcome (inTurn jobs s).2).2) := by
  induction jobs generalizing s with
  | nil => rfl
  | cons first rest ih => simp only [List.cons_append, inTurn, ih]

/-- A worker whose jobs act on a state, and what came of them: the jobs that were accepted, the
places of those that were started, in order, and what those that ended have given. -/
structure Shift (σ : Type) where
  worker : Worker (Act σ Unit)
  state : σ
  accepted : List (Act σ Unit)
  started : List Nat
  outcomes : List (Except Failure Unit)

namespace Shift

variable {σ : Type} {r : Shift σ} {capacity : Int} {s₀ : σ}

/-- What happens to a worker: its users submit and cancel jobs, ask whether it has drained and shut
it down; its thread takes up the oldest job that waits and ends it. -/
inductive Move (σ : Type) where
  | submit (job : Act σ Unit)
  | start
  | finish
  | cancel (place : Nat)
  | drain
  | shutdown

def opening (worker : Worker (Act σ Unit)) (state : σ) : Shift σ :=
  ⟨worker, state, [], [], []⟩

/-- The place and the job of the one that was started and has not ended. -/
def running? (r : Shift σ) : Option (Nat × Act σ Unit) := do
  let place ← r.started[r.outcomes.length]?
  let job ← r.worker.jobs[place]?
  pure (place, job.job)

/-- The thread has one job at a time; it ends with what the job gives, be it a failure. -/
def next (r : Shift σ) : Move σ → Shift σ
  | .submit job =>
    match r.worker.submit job with
    | .ok worker => { r with worker, accepted := r.accepted ++ [job] }
    | .error _ => r
  | .start =>
    match r.running?, r.worker.start? with
    | none, some (place, _, worker) => { r with worker, started := r.started ++ [place] }
    | _, _ => r
  | .finish =>
    match r.running? with
    | some (place, job) =>
      { r with
        worker := r.worker.setPhase place .finished
        state := (job.outcome r.state).2
        outcomes := r.outcomes ++ [(job.outcome r.state).1] }
    | none => r
  | .cancel place => { r with worker := (r.worker.cancel place).2 }
  | .drain => r
  | .shutdown => { r with worker := r.worker.shutdown }

def follow (r : Shift σ) (moves : List (Move σ)) : Shift σ :=
  moves.foldl next r

theorem next_start {place : Nat} {job : Act σ Unit} {worker : Worker (Act σ Unit)}
    (idle : r.running? = none) (first : r.worker.start? = some (place, job, worker)) :
    r.next .start = { r with worker, started := r.started ++ [place] } := by
  simp only [next, idle, first]

theorem next_start_none (nobody : r.worker.start? = none) : r.next .start = r := by
  cases h : r.running? <;> simp only [next, h, nobody]

theorem next_finish {place : Nat} {job : Act σ Unit} (runs : r.running? = some (place, job)) :
    r.next .finish =
      { r with
        worker := r.worker.setPhase place .finished
        state := (job.outcome r.state).2
        outcomes := r.outcomes ++ [(job.outcome r.state).1] } := by
  simp only [next, runs]

theorem next_finish_none (idle : r.running? = none) : r.next .finish = r := by
  simp only [next, idle]

/-- A run of some jobs, one at a time. -/
def run (σ : Type) : Nat → List (Move σ)
  | 0 => []
  | n + 1 => .start :: .finish :: run σ n

/-- The accepted jobs at some places. -/
def jobsAt (r : Shift σ) (places : List Nat) : List (Act σ Unit) :=
  places.filterMap fun place => r.accepted[place]?

/-- What holds at every moment of a worker for `capacity` pending jobs. -/
structure Sound (capacity : Int) (s₀ : σ) (r : Shift σ) : Prop where
  limit : r.worker.capacity = capacity
  accepted : r.worker.jobs.map (·.job) = r.accepted
  started : r.started = r.worker.places Phase.hasStarted
  ended : r.started.take r.outcomes.length = r.worker.places (· = .finished)
  single : r.started.length = r.outcomes.length ∨ r.started.length = r.outcomes.length + 1
  ahead : ∀ p ∈ r.started, ∀ q ∈ r.worker.places (· = .queued), p < q
  inTurn : Act.inTurn (r.jobsAt (r.started.take r.outcomes.length)) s₀ = (r.outcomes, r.state)
  bounded : r.worker.depth ≤ capacity
  closed : r.worker.isOpen = false → r.worker.places (· = .queued) = []

theorem opening_sound (positive : 1 ≤ capacity) :
    Sound capacity s₀ (opening ⟨capacity, true, []⟩ s₀) where
  limit := rfl
  accepted := rfl
  started := rfl
  ended := rfl
  single := .inl rfl
  ahead := nofun
  inTurn := rfl
  bounded := by
    show (0 : Int) ≤ capacity
    omega
  closed := nofun

namespace Sound

theorem lt_accepted (h : Sound capacity s₀ r) {p : Nat} (hp : p ∈ r.started) :
    p < r.accepted.length := by
  rw [h.started] at hp
  obtain ⟨_, found, _⟩ := Worker.mem_places.mp hp
  rw [← h.accepted, List.length_map]
  exact Worker.phase?_lt found

theorem accepted_get (h : Sound capacity s₀ r) {p : Nat} {job : WorkerJob (Act σ Unit)}
    (found : r.worker.jobs[p]? = some job) : r.accepted[p]? = some job.job := by
  rw [← h.accepted, List.getElem?_map, found]
  rfl

theorem running?_none (h : Sound capacity s₀ r) :
    r.running? = none ↔ r.started.length = r.outcomes.length := by
  rw [running?]
  rcases h.single with same | more
  · rw [List.getElem?_eq_none (Nat.le_of_eq same)]
    exact iff_of_true rfl same
  · have hlt : r.outcomes.length < r.started.length := by omega
    have hget := List.getElem?_eq_getElem hlt
    have known := h.lt_accepted (List.mem_of_getElem? hget)
    rw [← h.accepted, List.length_map] at known
    rw [hget]
    show (r.worker.jobs[r.started[r.outcomes.length]]?.bind _ = none) ↔ _
    rw [List.getElem?_eq_getElem known]
    exact iff_of_false nofun (by omega)

/-- The job that runs is the last one that was started, and in this phase. -/
theorem running?_some (h : Sound capacity s₀ r) {place : Nat} {job : Act σ Unit}
    (runs : r.running? = some (place, job)) :
    r.started = r.started.take r.outcomes.length ++ [place] ∧
      r.worker.jobs[place]? = some ⟨job, .running⟩ := by
  obtain ⟨_, hplace, runs⟩ := Option.bind_eq_some_iff.mp runs
  obtain ⟨⟨_, phase⟩, hjob, runs⟩ := Option.bind_eq_some_iff.mp runs
  cases Option.some.inj runs
  have split : r.started = r.started.take r.outcomes.length ++ [place] := by
    have hlt := (List.getElem?_eq_some_iff.mp hplace).1
    have all : r.started.take (r.outcomes.length + 1) = r.started :=
      List.take_of_length_le (by rcases h.single with same | more <;> omega)
    rw [List.take_add_one, hplace] at all
    exact all.symm
  refine ⟨split, ?_⟩
  have found : r.worker.phase? place = some phase := by rw [Worker.phase?, hjob]; rfl
  have began : place ∈ r.worker.places Phase.hasStarted :=
    h.started ▸ List.mem_of_getElem? hplace
  have unfinished : place ∉ r.worker.places (· = .finished) := by
    have nodup := r.worker.places_nodup Phase.hasStarted
    rw [← h.started, split] at nodup
    rw [← h.ended]
    exact fun hmem => (List.nodup_append.mp nodup).2.2 place hmem place (by simp) rfl
  rw [Worker.mem_places] at began unfinished
  cases phase <;> simp [found, Phase.hasStarted] at began unfinished ⊢
  exact hjob

theorem submit (h : Sound capacity s₀ r) (job : Act σ Unit) :
    Sound capacity s₀ (r.next (.submit job)) := by
  rcases hsubmit : r.worker.submit job with failure | worker
  · simp only [next, hsubmit]
    exact h
  · simp only [next, hsubmit]
    obtain ⟨rfl, room⟩ := Worker.submit_accepted hsubmit
    have isOpen : r.worker.isOpen = true := by
      cases hopen : r.worker.isOpen with
      | true => rfl
      | false => simp [Worker.submit, hopen] at hsubmit
    have length : r.worker.jobs.length = r.accepted.length := by
      rw [← h.accepted, List.length_map]
    exact
      { limit := h.limit
        accepted := by simp [h.accepted]
        started := by rw [Worker.places_submitted _ _ rfl]; exact h.started
        ended := by rw [Worker.places_submitted _ _ rfl]; exact h.ended
        single := h.single
        ahead := fun p hp q hq => by
          obtain ⟨phase, found, waits⟩ := Worker.mem_places.mp hq
          rw [Worker.phase?_submitted] at found
          split at found
          next here => exact here ▸ length ▸ h.lt_accepted hp
          next => exact h.ahead p hp q (Worker.mem_places.mpr ⟨phase, found, waits⟩)
        inTurn := by
          have same : jobsAt { r with accepted := r.accepted ++ [job] }
              (r.started.take r.outcomes.length) = r.jobsAt (r.started.take r.outcomes.length) :=
            List.filterMap_congr fun p hp =>
              List.getElem?_append_left (h.lt_accepted (List.mem_of_mem_take hp))
          exact (congrArg (Act.inTurn · s₀) same).trans h.inTurn
        bounded := by
          rw [Worker.depth_submitted]
          have := h.limit
          omega
        closed := fun hclosed => absurd (isOpen.symm.trans hclosed) (by simp) }

theorem start (h : Sound capacity s₀ r) : Sound capacity s₀ (r.next .start) := by
  rcases hrunning : r.running? with _ | running
  case some =>
    simp only [Shift.next, hrunning]
    exact h
  rcases hstart : r.worker.start? with _ | ⟨place, job, worker⟩
  · rw [next_start_none hstart]
    exact h
  rw [next_start hrunning hstart]
  obtain ⟨found, rfl, first⟩ := Worker.start?_some hstart
  have idle := h.running?_none.mp hrunning
  have here : r.worker.phase? place = some .queued := by rw [Worker.phase?, found]; rfl
  have waits : place ∈ r.worker.places (· = .queued) := by rw [first]; exact List.mem_cons_self
  have sorted : (r.started ++ [place]).Pairwise (· < ·) := by
    refine List.pairwise_append.mpr
      ⟨h.started ▸ Worker.places_sorted _ _, List.pairwise_singleton _ _, fun p hp q hq => ?_⟩
    rw [List.mem_singleton.mp hq]
    exact h.ahead p hp place waits
  have taken : (r.started ++ [place]).take r.outcomes.length = r.started.take r.outcomes.length :=
    List.take_append_of_le_length (Nat.le_of_eq idle.symm)
  exact
    { limit := h.limit
      accepted := (Worker.map_job_setPhase ..).trans h.accepted
      started := Worker.eq_places sorted fun p => by
        rw [List.mem_append, List.mem_singleton, h.started, Worker.mem_places, Worker.mem_places,
          Worker.phase?_setPhase]
        by_cases hp : p = place
        · simp [hp, here, Phase.hasStarted]
        · simp [hp]
      ended := (taken.trans h.ended).trans (Worker.places_setPhase .running here rfl).symm
      single := .inr (by simp [idle])
      ahead := fun p hp q hq => by
        have behind : q ∈ r.worker.places (· = .queued) := first ▸ List.mem_cons_of_mem _ hq
        rcases List.mem_append.mp hp with hp | hp
        · exact h.ahead p hp q behind
        · have order := Worker.places_sorted r.worker (· = .queued)
          rw [first] at order
          exact List.mem_singleton.mp hp ▸ (List.pairwise_cons.mp order).1 q hq
      inTurn := (congrArg (fun places => Act.inTurn (r.jobsAt places) s₀) taken).trans h.inTurn
      bounded := by
        have same : (r.worker.setPhase place .running).places Phase.isPending =
            r.worker.places Phase.isPending := Worker.places_setPhase .running here rfl
        rw [Worker.depth_eq, same, ← Worker.depth_eq]
        exact h.bounded
      closed := fun hclosed => by
        have none := h.closed hclosed
        rw [first] at none
        cases none }

theorem finish (h : Sound capacity s₀ r) : Sound capacity s₀ (r.next .finish) := by
  rcases hrunning : r.running? with _ | ⟨place, job⟩
  · rw [next_finish_none hrunning]
    exact h
  rw [next_finish hrunning]
  obtain ⟨split, found⟩ := h.running?_some hrunning
  have here : r.worker.phase? place = some .running := by rw [Worker.phase?, found]; rfl
  have length : r.started.length = r.outcomes.length + 1 := by
    refine h.single.resolve_left fun same => ?_
    rw [h.running?_none.mpr same] at hrunning
    cases hrunning
  have all : r.started.take (r.outcomes ++ [(job.outcome r.state).1]).length = r.started :=
    List.take_of_length_le (by simp [length])
  have queued : (r.worker.setPhase place .finished).places (· = .queued) =
      r.worker.places (· = .queued) := Worker.places_setPhase .finished here rfl
  have mem_ended : ∀ p, p ∈ r.started ↔
      p ∈ (r.worker.setPhase place .finished).places (· = .finished) := by
    intro p
    rw [split, List.mem_append, List.mem_singleton, h.ended, Worker.mem_places, Worker.mem_places,
      Worker.phase?_setPhase]
    by_cases hp : p = place
    · simp [hp, here]
    · simp [hp]
  exact
    { limit := h.limit
      accepted := (Worker.map_job_setPhase ..).trans h.accepted
      started := h.started.trans (Worker.places_setPhase .finished here rfl).symm
      ended := all.trans (Worker.eq_places (h.started ▸ Worker.places_sorted _ _) mem_ended)
      single := .inl (by simp [length])
      ahead := fun p hp q hq => h.ahead p hp q (queued ▸ hq)
      inTurn := by
        show Act.inTurn (r.jobsAt (r.started.take (r.outcomes ++ [_]).length)) s₀ = _
        have jobs : r.jobsAt r.started = r.jobsAt (r.started.take r.outcomes.length) ++ [job] := by
          rw [split, jobsAt, List.filterMap_append, ← split]
          simp [jobsAt, h.accepted_get found]
        rw [all, jobs, Act.inTurn_concat, h.inTurn]
      bounded := Int.le_trans (Int.ofNat_le.mpr (Worker.depth_setPhase_le _ _ rfl)) h.bounded
      closed := fun hclosed => queued.trans (h.closed hclosed) }

theorem cancel (h : Sound capacity s₀ r) (place : Nat) :
    Sound capacity s₀ (r.next (.cancel place)) where
  limit := (r.worker.capacity_cancel place).1.trans h.limit
  accepted := (Worker.map_job_cancel ..).trans h.accepted
  started := h.started.trans (Worker.places_cancel _ _ rfl).symm
  ended := h.ended.trans (Worker.places_cancel _ _ rfl).symm
  single := h.single
  ahead := fun p hp q hq => h.ahead p hp q (Worker.queued_cancel hq)
  inTurn := h.inTurn
  bounded := Int.le_trans (Int.ofNat_le.mpr (Worker.depth_cancel_le _ _)) h.bounded
  closed := fun hclosed => by
    have none := h.closed ((r.worker.capacity_cancel place).2.symm.trans hclosed)
    refine List.eq_nil_iff_forall_not_mem.mpr fun p hp => ?_
    exact List.not_mem_nil (none ▸ Worker.queued_cancel hp)

theorem shutdown (h : Sound capacity s₀ r) : Sound capacity s₀ (r.next .shutdown) where
  limit := h.limit
  accepted := (Worker.map_job_shutdown _).trans h.accepted
  started := h.started.trans (Worker.places_shutdown _ rfl).symm
  ended := h.ended.trans (Worker.places_shutdown _ rfl).symm
  single := h.single
  ahead := fun p _ q hq => by
    rw [show (r.next .shutdown).worker = r.worker.shutdown from rfl, Worker.queued_shutdown] at hq
    cases hq
  inTurn := h.inTurn
  bounded := Int.le_trans (Int.ofNat_le.mpr (Worker.depth_shutdown_le _)) h.bounded
  closed := fun _ => Worker.queued_shutdown _

theorem next (h : Sound capacity s₀ r) (move : Move σ) : Sound capacity s₀ (r.next move) := by
  cases move with
  | submit job => exact h.submit job
  | start => exact h.start
  | finish => exact h.finish
  | cancel place => exact h.cancel place
  | drain => exact h
  | shutdown => exact h.shutdown

theorem follow (h : Sound capacity s₀ r) (moves : List (Move σ)) :
    Sound capacity s₀ (r.follow moves) := by
  induction moves generalizing r with
  | nil => exact h
  | cons move rest ih => exact ih (h.next move)

/-- While no job runs, the pending ones are those that wait. -/
theorem pending_eq (h : Sound capacity s₀ r) (idle : r.running? = none) :
    r.worker.places Phase.isPending = r.worker.places (· = .queued) := by
  refine Worker.places_congr fun p => ?_
  rcases hphase : r.worker.phase? p with _ | phase
  · simp
  cases phase with
  | running =>
    have began : p ∈ r.started := by
      rw [h.started]
      exact Worker.mem_places.mpr ⟨_, hphase, rfl⟩
    rw [← List.take_of_length_le (Nat.le_of_eq (h.running?_none.mp idle)), h.ended,
      Worker.mem_places, hphase] at began
    simp at began
  | _ => simp [Phase.isPending]

/-- A job before one that was started was started too, unless it is cancelled. -/
theorem earlier (h : Sound capacity s₀ r) {p q : Nat} (hp : p ∈ r.started) (hq : q < p) :
    q ∈ r.started ∨ q ∈ r.worker.places (· = .cancelled) := by
  have known : q < r.worker.jobs.length := by
    have := h.lt_accepted hp
    rw [← h.accepted, List.length_map] at this
    omega
  have found : r.worker.phase? q = some (r.worker.jobs[q]).phase := by
    rw [Worker.phase?, List.getElem?_eq_getElem known]
    rfl
  cases hphase : (r.worker.jobs[q]).phase with
  | queued =>
    have waits : q ∈ r.worker.places (· = .queued) :=
      Worker.mem_places.mpr ⟨_, found, by rw [hphase]; rfl⟩
    have := h.ahead p hp q waits
    omega
  | cancelled => exact .inr (Worker.mem_places.mpr ⟨_, found, by rw [hphase]; rfl⟩)
  | _ =>
    rw [h.started]
    exact .inl (Worker.mem_places.mpr ⟨_, found, by rw [hphase]; rfl⟩)

/-- A job that is taken up while none runs is the first that waits, and ends. -/
theorem started_finished (h : Sound capacity s₀ r) (idle : r.running? = none) {place : Nat}
    {job : Act σ Unit} {worker : Worker (Act σ Unit)}
    (hstart : r.worker.start? = some (place, job, worker)) :
    let r' := (r.next .start).next .finish
    r'.running? = none ∧ r'.accepted = r.accepted ∧ r'.started = r.started ++ [place] ∧
      r.accepted[place]? = some job ∧ r'.worker = worker.setPhase place .finished ∧
      r.worker.places (· = .queued) = place :: r'.worker.places (· = .queued) := by
  intro r'
  obtain ⟨found, rfl, first⟩ := Worker.start?_some hstart
  have sound := h.start
  have taken := next_start idle hstart
  have goes : (r.worker.setPhase place .running).jobs[place]? = some ⟨job, .running⟩ := by
    show (r.worker.jobs.modify place _)[place]? = _
    rw [List.getElem?_modify, found]
    simp
  have runs : (r.next .start).running? = some (place, job) := by
    rw [taken, running?, ← h.running?_none.mp idle, List.getElem?_concat_length]
    show ((r.worker.setPhase place .running).jobs[place]?.bind _) = _
    rw [goes]
    rfl
  have ended : r' = _ := (next_finish runs).trans (by rw [taken])
  have queued : r'.worker.places (· = .queued) =
      (r.worker.setPhase place .running).places (· = .queued) := by
    have here : (r.worker.setPhase place .running).phase? place = some .running := by
      rw [Worker.phase?, goes]
      rfl
    rw [ended]
    exact Worker.places_setPhase .finished here rfl
  refine ⟨?_, by rw [ended], by rw [ended], h.accepted_get found, by rw [ended], ?_⟩
  · rw [sound.finish.running?_none]
    show r'.started.length = r'.outcomes.length
    rw [ended]
    simp [h.running?_none.mp idle]
  · rw [queued]
    exact first

theorem run_idle (idle : r.running? = none) (hstart : r.worker.start? = none) (n : Nat) :
    r.follow (run σ n) = r ∧ r.worker.runSome n = ([], r.worker) := by
  have taken := next_start_none hstart
  have ended := next_finish_none idle
  induction n with
  | zero => exact ⟨rfl, rfl⟩
  | succ n ih =>
    refine ⟨?_, ?_⟩
    · show ((r.next .start).next .finish).follow (run σ n) = r
      rw [taken, ended, ih.1]
    · rw [Worker.runSome, Worker.runNext, hstart]
      rfl

/-- A run takes up the oldest jobs that wait, whatever each of them gives. -/
theorem run (h : Sound capacity s₀ r) (idle : r.running? = none) (n : Nat) :
    let r' := r.follow (run σ n)
    r'.started = r.started ++ (r.worker.places (· = .queued)).take n ∧
      r.worker.runSome n =
        (r.jobsAt ((r.worker.places (· = .queued)).take n), r'.worker) := by
  induction n generalizing r with
  | zero => exact ⟨(List.append_nil _).symm, rfl⟩
  | succ n ih =>
    rcases hstart : r.worker.start? with _ | ⟨place, job, worker⟩
    · obtain ⟨same, nothing⟩ := run_idle idle hstart (n + 1)
      rw [same, nothing, Worker.start?_none hstart]
      exact ⟨(List.append_nil _).symm, rfl⟩
    · obtain ⟨idle', accepted, started, hjob, ended, first⟩ := h.started_finished idle hstart
      obtain ⟨hstarted, hrun⟩ := ih h.start.finish idle'
      rw [ended] at hrun
      refine ⟨?_, ?_⟩
      · show (((r.next .start).next .finish).follow (Shift.run σ n)).started = _
        rw [hstarted, started, first, List.take_succ_cons, List.append_assoc]
        rfl
      · have one : r.worker.runNext = some (job, worker.setPhase place .finished) := by
          rw [Worker.runNext, hstart]
          rfl
        rw [Worker.runSome, one]
        show (job :: _, _) = _
        rw [hrun, first, List.take_succ_cons]
        simp only [jobsAt, List.filterMap_cons, hjob, accepted, ended]
        rfl

end Sound

/-- The worker is open until it is shut down. -/
theorem follow_isOpen (r : Shift σ) (moves : List (Move σ)) :
    (r.follow moves).worker.isOpen = true ↔ r.worker.isOpen = true ∧ .shutdown ∉ moves := by
  induction moves generalizing r with
  | nil => simp [follow]
  | cons move rest ih =>
    show ((r.next move).follow rest).worker.isOpen = true ↔ _
    rw [ih, List.mem_cons, not_or, ← and_assoc]
    refine and_congr_left fun _ => ?_
    cases move with
    | submit job =>
      rcases hsubmit : r.worker.submit job with _ | worker
      · simp [next, hsubmit]
      · simp [next, hsubmit, (Worker.submit_ok hsubmit).2]
    | start =>
      rcases hstart : r.worker.start? with _ | ⟨place, job, worker⟩
      · simp [next_start_none hstart]
      · rcases runs : r.running? with _ | running
        · rw [next_start runs hstart, (Worker.start?_some hstart).2.1]
          simp [Worker.setPhase]
        · simp [next, runs]
    | finish =>
      rcases runs : r.running? with _ | running
      · simp [next_finish_none runs]
      · simp [next_finish runs, Worker.setPhase]
    | cancel place => simp [next, (r.worker.capacity_cancel place).2]
    | drain => simp [next]
    | shutdown => simp [next, Worker.shutdown]

/-- A worker that is shut down starts no job any more. -/
theorem Sound.follow_closed (h : Sound capacity s₀ r) (closed : r.worker.isOpen = false)
    (moves : List (Move σ)) : (r.follow moves).started = r.started := by
  induction moves generalizing r with
  | nil => rfl
  | cons move rest ih =>
    have shut : (r.next move).worker.isOpen = false := by
      have := r.follow_isOpen [move]
      rw [closed] at this
      simpa [Shift.follow] using this
    refine (ih (h.next move) shut).trans ?_
    cases move with
    | submit job => simp [Shift.next, Worker.submit, closed]
    | start =>
      rcases hstart : r.worker.start? with _ | ⟨place, job, worker⟩
      · rw [next_start_none hstart]
      · have first := (Worker.start?_some hstart).2.2
        rw [h.closed closed] at first
        cases first
    | finish =>
      rcases runs : r.running? with _ | ⟨place, job⟩
      · rw [next_finish_none runs]
      · rw [next_finish runs]
    | cancel place => rfl
    | drain => rfl
    | shutdown => rfl

/-- A job that is settled stays so, and keeps its place. -/
theorem Sound.settled_next (h : Sound capacity s₀ r) {place : Nat} {phase : Phase}
    (here : r.worker.phase? place = some phase) (settled : phase.isPending = false) (move : Move σ) :
    (r.next move).worker.phase? place = some phase := by
  have unqueued : r.worker.phase? place ≠ some .queued := by
    rw [here]
    rintro ⟨⟩
    cases settled
  cases move with
  | submit job =>
    rcases hsubmit : r.worker.submit job with failure | worker
    · simpa only [Shift.next, hsubmit] using here
    · simp only [Shift.next, hsubmit]
      obtain ⟨rfl, _⟩ := Worker.submit_accepted hsubmit
      rw [Worker.phase?_submitted, if_neg (Nat.ne_of_lt (Worker.phase?_lt here)), here]
  | start =>
    rcases hstart : r.worker.start? with _ | ⟨first, job, worker⟩
    · rwa [next_start_none hstart]
    · rcases runs : r.running? with _ | running
      · obtain ⟨found, rfl, _⟩ := Worker.start?_some hstart
        rw [next_start runs hstart, Worker.phase?_setPhase, if_neg, here]
        rintro rfl
        exact unqueued (by rw [Worker.phase?, found]; rfl)
      · simpa only [Shift.next, runs] using here
  | finish =>
    rcases runs : r.running? with _ | ⟨running, job⟩
    · rwa [next_finish_none runs]
    · rw [next_finish runs, Worker.phase?_setPhase, if_neg, here]
      rintro rfl
      rw [Worker.phase?, (h.running?_some runs).2] at here
      cases here
      cases settled
  | cancel other =>
    show (r.worker.cancel other).2.phase? place = some phase
    rw [Worker.phase?_cancel, if_neg fun both => unqueued both.2, here]
  | drain => exact here
  | shutdown =>
    show r.worker.shutdown.phase? place = some phase
    rw [Worker.phase?_shutdown, here]
    exact congrArg some (if_neg (by rintro rfl; cases settled))

theorem Sound.settled_follow (h : Sound capacity s₀ r) {place : Nat} {phase : Phase}
    (here : r.worker.phase? place = some phase) (settled : phase.isPending = false)
    (moves : List (Move σ)) : (r.follow moves).worker.phase? place = some phase := by
  induction moves generalizing r with
  | nil => exact here
  | cons move rest ih => exact ih (h.next move) (h.settled_next here settled move)

/-- Whatever happens while a drain waits, the jobs that it waits for have ended exactly when none of
those that had been submitted before is pending. What is submitted meanwhile is not waited for. -/
theorem Sound.drained_iff (h : Sound capacity s₀ r) (moves : List (Move σ)) :
    (r.follow moves).worker.haveEnded r.worker.awaited = true ↔
      ∀ place < r.accepted.length, place ∉ (r.follow moves).worker.places Phase.isPending := by
  have length : r.worker.jobs.length = r.accepted.length := by
    rw [← h.accepted, List.length_map]
  rw [Worker.haveEnded_iff]
  constructor
  · intro ended place old
    by_cases pending : place ∈ r.worker.awaited
    · exact ended place pending
    · obtain ⟨phase, here⟩ : ∃ phase, r.worker.phase? place = some phase :=
        ⟨_, by rw [Worker.phase?, List.getElem?_eq_getElem (length ▸ old)]; rfl⟩
      have settled := Worker.notMem_pending_iff.mp pending phase here
      rw [Worker.notMem_pending_iff, h.settled_follow here settled moves]
      rintro _ ⟨⟩
      exact settled
  · intro ended place pending
    obtain ⟨_, here, _⟩ := Worker.mem_places.mp pending
    exact ended place (length ▸ Worker.phase?_lt here)

/-- What a job meets that is submitted. -/
theorem Sound.submitted (h : Sound capacity s₀ r) (job : Act σ Unit) :
    (r.worker.submit job = .error .workerShutdown ↔ r.worker.isOpen = false) ∧
      (r.worker.isOpen = true →
        (r.worker.submit job = .error (.queueFull (.int capacity)) ↔ r.worker.depth = capacity) ∧
        (r.worker.depth ≠ capacity → r.worker.submit job =
          .ok { r.worker with jobs := r.worker.jobs ++ [⟨job, .queued⟩] })) := by
  have limit := h.limit
  have bounded := h.bounded
  cases hopen : r.worker.isOpen with
  | false => simp [Worker.submit, hopen]
  | true =>
    by_cases full : r.worker.depth = capacity
    · simp [Worker.submit, hopen, Worker.isFull, limit, full]
    · have room : ¬capacity ≤ r.worker.depth := by omega
      simp [Worker.submit, hopen, Worker.isFull, limit, full, room]

/-- A worker for `capacity` jobs is serial and bounded, whatever it goes through. Every job that it
accepted is pending, finished or cancelled. Those that were started are so in the order of their
submission, once each, with none left out that is not cancelled; they run one at a time, and what a
job gives does not keep the next from running. The pending jobs are counted and are never more than
`capacity`. A job is refused when the worker was shut down, and else exactly when that many are
pending. Once the worker was shut down nobody waits and no job is started any more. -/
theorem serial_bounded (positive : 1 ≤ capacity) (s₀ : σ) (moves : List (Move σ)) :
    ∃ w₀, Worker.new capacity = .ok w₀ ∧
    let r := (opening w₀ s₀).follow moves
    let w := r.worker
    -- the jobs that were accepted
    (w.jobs.map (·.job) = r.accepted ∧
      (w.places Phase.isPending ++ w.places (· = .finished) ++ w.places (· = .cancelled)).Perm
        (List.range r.accepted.length)) ∧
    -- the order in which they are started
    (r.started = w.places Phase.hasStarted ∧ r.started.Pairwise (· < ·) ∧
      ∀ place ∈ r.started, ∀ earlier < place,
        earlier ∈ r.started ∨ earlier ∈ w.places (· = .cancelled)) ∧
    -- what they do
    (r.started.length ≤ r.outcomes.length + 1 ∧
      w.places (· = .finished) = r.started.take r.outcomes.length ∧
      Act.inTurn (r.jobsAt (w.places (· = .finished))) s₀ = (r.outcomes, r.state)) ∧
    -- a run of some of them
    (r.running? = none → ∀ n,
      (r.follow (run σ n)).started = r.started ++ (w.places (· = .queued)).take n ∧
      w.runSome n =
        (r.jobsAt ((w.places (· = .queued)).take n), (r.follow (run σ n)).worker)) ∧
    -- how many are pending
    (w.depth = (w.places Phase.isPending).length ∧ w.depth ≤ capacity) ∧
    -- what a new job meets
    (∀ job, (w.submit job = .error .workerShutdown ↔ .shutdown ∈ moves) ∧
      (.shutdown ∉ moves →
        (w.submit job = .error (.queueFull (.int capacity)) ↔ w.depth = capacity) ∧
        (w.depth ≠ capacity → w.submit job = .ok { w with jobs := w.jobs ++ [⟨job, .queued⟩] })) ∧
      ((∀ w', w.submit job ≠ .ok w') → r.next (.submit job) = r)) ∧
    -- the end
    (w.shutdown.places (· = .cancelled) =
        w.places (fun phase => phase = .queued || phase = .cancelled) ∧
      (.shutdown ∈ moves → w.places (· = .queued) = [] ∧ (r.running? = none → w.depth = 0) ∧
        ∀ more, (r.follow more).started = r.started)) ∧
    (w.isDrained = true ↔ w.depth = 0) := by
  refine ⟨⟨capacity, true, []⟩, if_neg (by omega), ?_⟩
  intro r w
  have sound : Sound capacity s₀ r := (opening_sound positive).follow moves
  have isOpen : w.isOpen = true ↔ .shutdown ∉ moves :=
    ((opening ⟨capacity, true, []⟩ s₀).follow_isOpen moves).trans (and_iff_right rfl)
  have isShut : w.isOpen = false ↔ .shutdown ∈ moves := by
    rw [← Bool.not_eq_true, isOpen, not_not]
  have length : w.jobs.length = r.accepted.length := by rw [← sound.accepted, List.length_map]
  refine ⟨⟨sound.accepted, length ▸ w.places_parted⟩,
    ⟨sound.started, sound.started ▸ w.places_sorted _, fun _ hplace _ => sound.earlier hplace⟩,
    ⟨?_, sound.ended.symm, sound.ended ▸ sound.inTurn⟩, sound.run,
    ⟨w.depth_eq, sound.bounded⟩, fun job => ⟨?_, ?_, ?_⟩,
    ⟨w.cancelled_shutdown, fun shut => ?_⟩, Worker.isDrained_iff⟩
  · rcases sound.single with same | more <;> omega
  · rw [← isShut]
    exact (sound.submitted job).1
  · rw [← isOpen]
    exact (sound.submitted job).2
  · intro refused
    rcases hsubmit : w.submit job with failure | worker
    · show r.next (.submit job) = r
      simp only [next, show r.worker.submit job = _ from hsubmit]
    · exact absurd hsubmit (refused worker)
  · have closed := isShut.mpr shut
    refine ⟨sound.closed closed, fun idle => ?_, sound.follow_closed closed⟩
    rw [w.depth_eq, sound.pending_eq idle, sound.closed closed]
    rfl

/-- A worker for two jobs on a list: the first job raises, the second is cancelled while the first
runs, the third finds the queue full, and the fourth runs. -/
theorem serial_bounded_cancelled :
    let note (n : Nat) : Act (List Nat) Unit := modify (· ++ [n])
    let moves := [.submit (do note 0; throw .workerShutdown), .submit (note 1), .submit (note 2),
      .start, .cancel 1, .submit (note 3), .finish, .start, .finish]
    1 ≤ 2 ∧ ∃ w₀, Worker.new 2 = .ok w₀ ∧
      let r := (opening w₀ []).follow moves
      r.started.Pairwise (· < ·) ∧ r.started = [0, 2] ∧ r.state = [0, 3] ∧
        r.worker.places (· = .cancelled) = [1] := by
  refine ⟨by decide, ?_⟩
  obtain ⟨w₀, opened, serial⟩ := serial_bounded (show 1 ≤ 2 by decide) ([] : List Nat) _
  refine ⟨w₀, opened, serial.2.1.2.1, ?_⟩
  cases Except.ok.inj opened
  refine ⟨?_, ?_, ?_⟩
  · decide +kernel
  · decide +kernel
  · decide +kernel

end Shift

end Handover
