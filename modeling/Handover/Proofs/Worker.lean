import Handover.Worker

namespace Handover.Worker

variable {τ : Type} {w w' : Worker τ} {task : τ} {rest : List τ}

def queued (jobs : List (WorkerJob τ)) : List τ :=
  (jobs.filter fun j => j.phase = .queued).map (·.job)

/-- The jobs that wait, in the order of their submission. -/
def waiting (w : Worker τ) : List τ :=
  queued w.jobs

theorem queued_cons (j : WorkerJob τ) (jobs : List (WorkerJob τ)) :
    queued (j :: jobs) = if j.phase = .queued then j.job :: queued jobs else queued jobs := by
  unfold queued
  rw [List.filter_cons]
  by_cases h : j.phase = .queued <;> simp [h]

theorem findIdx?_queued_nil {jobs : List (WorkerJob τ)} (h : queued jobs = []) :
    jobs.findIdx? (fun j => j.phase = .queued) = none := by
  rw [List.findIdx?_eq_none_iff]
  intro j hj
  have hnil := List.map_eq_nil_iff.mp h
  simpa using List.filter_eq_nil_iff.mp hnil j hj

/-- The oldest job that waits is found at its place; once it no longer waits, the others do. -/
theorem findIdx?_queued_cons {jobs : List (WorkerJob τ)} (h : queued jobs = task :: rest) :
    ∃ place, jobs.findIdx? (fun j => j.phase = .queued) = some place ∧
      jobs[place]? = some ⟨task, .queued⟩ ∧
      ∀ phase, phase ≠ .queued → queued (jobs.modify place fun j => { j with phase }) = rest := by
  induction jobs with
  | nil => cases h
  | cons j jobs ih =>
    rw [queued_cons] at h
    by_cases hj : j.phase = .queued
    · rw [if_pos hj] at h
      obtain ⟨hjob, hrest⟩ := List.cons.inj h
      refine ⟨0, by simp [List.findIdx?_cons, hj], ?_, fun phase hphase => ?_⟩
      · rw [List.getElem?_cons_zero, ← hjob, ← hj]
      · rw [List.modify_zero_cons, queued_cons, if_neg hphase, hrest]
    · rw [if_neg hj] at h
      obtain ⟨place, hplace, hget, hothers⟩ := ih h
      refine ⟨place + 1, by simp [List.findIdx?_cons, hj, hplace], by simpa using hget,
        fun phase hphase => ?_⟩
      rw [List.modify_succ_cons, queued_cons, if_neg hj, hothers phase hphase]

theorem start?_nil (h : w.waiting = []) : w.start? = none := by
  rw [start?, next?, findIdx?_queued_nil h]
  rfl

/-- The job that is started is the oldest one that waits; from then on the others wait. -/
theorem start?_front (h : w.waiting = task :: rest) :
    ∃ place, w.start? = some (place, task, w.setPhase place .running) ∧
      ∀ phase, phase ≠ .queued → (w.setPhase place phase).waiting = rest := by
  obtain ⟨place, hplace, hget, hothers⟩ := findIdx?_queued_cons h
  refine ⟨place, ?_, hothers⟩
  rw [start?, next?, hplace]
  show (w.jobs[place]?.bind fun job => some (place, job.job, _)) = _
  rw [hget]
  rfl

theorem setPhase_setPhase (w : Worker τ) (place : Nat) (phase phase' : Phase) :
    (w.setPhase place phase).setPhase place phase' = w.setPhase place phase' :=
  congrArg (Worker.mk w.capacity w.isOpen) (List.modify_modify_eq ..)

/-- A job that goes on leaves the others waiting. -/
theorem setPhase_waiting (w : Worker τ) (place : Nat) {phase : Phase} (h : phase ≠ .queued) :
    (w.setPhase place phase).waiting.Sublist w.waiting := by
  suffices all : ∀ (jobs : List (WorkerJob τ)) (place : Nat),
      (queued (jobs.modify place fun j => { j with phase })).Sublist (queued jobs) from
    all w.jobs place
  intro jobs
  induction jobs with
  | nil => intro place; cases place <;> exact List.nil_sublist _
  | cons j jobs ih =>
    intro place
    cases place with
    | zero =>
      rw [List.modify_zero_cons, queued_cons, queued_cons, if_neg h]
      split
      next => exact List.sublist_cons_self _ _
      next => exact .refl _
    | succ place =>
      rw [List.modify_succ_cons, queued_cons, queued_cons]
      split
      next => exact (ih place).cons_cons _
      next => exact ih place

theorem submit_ok (h : w.submit task = .ok w') :
    w'.waiting = w.waiting ++ [task] ∧ w'.isOpen = w.isOpen := by
  unfold submit at h
  split at h
  next => cases h
  next =>
    split at h
    next => cases h
    next =>
      cases h
      refine ⟨?_, rfl⟩
      show queued (w.jobs ++ [⟨task, .queued⟩]) = _
      simp [queued, waiting]

theorem submit_accepted (h : w.submit task = .ok w') :
    w' = { w with jobs := w.jobs ++ [⟨task, .queued⟩] } ∧ w.depth < w.capacity := by
  unfold submit at h
  split at h
  next => cases h
  next =>
    split at h
    next => cases h
    next room =>
      cases h
      exact ⟨rfl, by simpa [isFull] using room⟩

/-- Whether no job is running. -/
def Quiet (w : Worker τ) : Prop :=
  ∀ j ∈ w.jobs, j.phase ≠ .running

/-- While no job is running, the pending ones are those that wait. -/
theorem Quiet.pending_eq (h : w.Quiet) :
    (w.jobs.filter fun j => j.phase.isPending) = w.jobs.filter fun j => j.phase = .queued := by
  refine List.filter_congr fun j hj => ?_
  have := h j hj
  cases hphase : j.phase <;> simp_all [Phase.isPending]

theorem Quiet.depth_eq (h : w.Quiet) : w.depth = w.waiting.length := by
  rw [depth, h.pending_eq, waiting, queued, List.length_map]

theorem Quiet.submit (h : w.Quiet) (accepted : w.submit task = .ok w') : w'.Quiet := by
  obtain ⟨rfl, _⟩ := submit_accepted accepted
  intro j hj
  rcases List.mem_append.mp hj with hj | hj
  · exact h j hj
  · rw [List.mem_singleton.mp hj]
    nofun

theorem Quiet.finished (h : w.Quiet) (place : Nat) :
    ((w.setPhase place .running).setPhase place .finished).Quiet := by
  have jobs : ((w.setPhase place .running).setPhase place .finished).jobs =
      w.jobs.modify place fun j => { j with phase := .finished } :=
    congrArg Worker.jobs (w.setPhase_setPhase place .running .finished)
  intro j hj
  rw [jobs] at hj
  obtain ⟨i, hi⟩ := List.mem_iff_getElem?.mp hj
  rw [List.getElem?_modify] at hi
  obtain ⟨j', hj', rfl⟩ := Option.map_eq_some_iff.mp hi
  split
  next => nofun
  next => exact h j' (List.mem_of_getElem? hj')

end Handover.Worker
