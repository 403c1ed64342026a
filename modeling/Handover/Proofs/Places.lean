import Mathlib.Data.List.Sort
import Handover.Proofs.Worker

namespace Handover

def Phase.hasStarted : Phase → Bool
  | .running => true
  | .finished => true
  | _ => false

namespace Worker

variable {τ : Type} {w w' : Worker τ} {task : τ} {is is' : Phase → Bool} {place p : Nat}

theorem mem_places : place ∈ w.places is ↔ ∃ phase, w.phase? place = some phase ∧ is phase := by
  simp only [places, List.mem_map, List.mem_filter, Prod.exists, phase?, Option.map_eq_some_iff]
  constructor
  · rintro ⟨job, _, ⟨found, hphase⟩, rfl⟩
    exact ⟨job.phase, ⟨job, List.mk_mem_zipIdx_iff_getElem?.mp found, rfl⟩, hphase⟩
  · rintro ⟨_, ⟨job, found, rfl⟩, hphase⟩
    exact ⟨job, place, ⟨List.mk_mem_zipIdx_iff_getElem?.mpr found, hphase⟩, rfl⟩

theorem places_sorted (w : Worker τ) (is : Phase → Bool) : (w.places is).Pairwise (· < ·) := by
  have all : (w.jobs.zipIdx.map (·.2)).Pairwise (· < ·) := by
    rw [List.zipIdx_map_snd]
    exact List.pairwise_lt_range'
  exact all.sublist (List.filter_sublist.map _)

theorem places_nodup (w : Worker τ) (is : Phase → Bool) : (w.places is).Nodup :=
  (w.places_sorted is).imp Nat.ne_of_lt

/-- A list of places in order is known by its members. -/
theorem eq_places {l : List Nat} (sorted : l.Pairwise (· < ·))
    (same : ∀ place, place ∈ l ↔ place ∈ w.places is) : l = w.places is :=
  sorted.eq_of_mem_iff (w.places_sorted is) same

theorem places_congr (same : ∀ place, (∃ phase, w'.phase? place = some phase ∧ is' phase) ↔
    ∃ phase, w.phase? place = some phase ∧ is phase) : w'.places is' = w.places is :=
  eq_places (w'.places_sorted is') fun place => by rw [mem_places, mem_places, same place]

theorem depth_eq (w : Worker τ) : w.depth = (w.places Phase.isPending).length := by
  have jobs : w.jobs = w.jobs.zipIdx.map (·.1) := (List.zipIdx_map_fst 0 w.jobs).symm
  rw [depth, places, List.length_map]
  conv_lhs => rw [jobs]
  rw [List.filter_map, List.length_map]
  rfl

theorem notMem_pending_iff : place ∉ w.places Phase.isPending ↔
    ∀ phase, w.phase? place = some phase → phase.isPending = false := by
  rw [mem_places]
  simp

/-- Jobs have ended if none of them is pending. -/
theorem haveEnded_iff {some : List Nat} :
    w.haveEnded some = true ↔ ∀ place ∈ some, place ∉ w.places Phase.isPending := by
  rw [haveEnded, List.all_eq_true]
  refine forall₂_congr fun place _ => ?_
  rw [notMem_pending_iff]
  cases w.phase? place <;> simp

/-- A drain that does not wait is through if nothing is pending. -/
theorem isDrained_iff : w.isDrained = true ↔ w.depth = 0 := by
  rw [isDrained, haveEnded_iff, depth_eq, List.length_eq_zero_iff, List.eq_nil_iff_forall_not_mem]
  exact forall_congr' fun place => ⟨fun h pending => h pending pending, fun h _ => h⟩

/-- Jobs that are all pending before are not more of them. -/
theorem depth_le (still : ∀ place, place ∈ w'.places Phase.isPending →
    place ∈ w.places Phase.isPending) : w'.depth ≤ w.depth := by
  rw [depth_eq, depth_eq]
  exact (List.subperm_of_subset (w'.places_nodup _) still).length_le

/-- Every job is pending, finished or cancelled, and is only one of these. -/
theorem places_parted (w : Worker τ) :
    (w.places Phase.isPending ++ w.places (· = .finished) ++ w.places (· = .cancelled)).Perm
      (List.range w.jobs.length) := by
  have all : List.range w.jobs.length = w.jobs.zipIdx.map (·.2) := by
    rw [List.zipIdx_map_snd, List.range_eq_range']
  rw [all]
  simp only [places]
  rw [← List.map_append, ← List.map_append]
  refine List.Perm.map _ ?_
  generalize w.jobs.zipIdx = numbered
  induction numbered with
  | nil => exact .refl _
  | cons x rest ih =>
    cases hx : x.1.phase <;>
      simp only [List.filter_cons, hx, Phase.isPending, reduceCtorEq, decide_false, decide_true,
        if_true, Bool.false_eq_true, if_false, List.cons_append]
    · exact ih.cons x
    · exact ih.cons x
    · rw [List.append_assoc, List.cons_append]
      rw [List.append_assoc] at ih
      exact List.perm_middle.trans (ih.cons x)
    · exact List.perm_middle.trans (ih.cons x)

theorem phase?_lt {phase : Phase} (h : w.phase? place = some phase) : place < w.jobs.length := by
  obtain ⟨job, found, _⟩ := Option.map_eq_some_iff.mp h
  exact (List.getElem?_eq_some_iff.mp found).1

theorem phase?_submitted (w : Worker τ) (task : τ) (p : Nat) :
    ({ w with jobs := w.jobs ++ [⟨task, .queued⟩] } : Worker τ).phase? p =
      if p = w.jobs.length then some .queued else w.phase? p := by
  show (w.jobs ++ [⟨task, .queued⟩])[p]?.map (·.phase) = _
  split
  next h => rw [h, List.getElem?_concat_length]; rfl
  next h =>
    rcases Nat.lt_or_ge p w.jobs.length with hp | hp
    · rw [List.getElem?_append_left hp]
      rfl
    · have past : w.jobs.length + 1 ≤ p := Nat.lt_of_le_of_ne hp (Ne.symm h)
      rw [phase?, List.getElem?_eq_none hp, List.getElem?_eq_none (by simpa using past)]

theorem phase?_setPhase (w : Worker τ) (place : Nat) (phase : Phase) (p : Nat) :
    (w.setPhase place phase).phase? p =
      if p = place then (w.phase? p).map fun _ => phase else w.phase? p := by
  show (w.jobs.modify place _)[p]?.map (·.phase) = _
  rw [List.getElem?_modify, Option.map_eq_map, phase?]
  split
  next h =>
    rw [if_pos h.symm, Option.map_map, Option.map_map]
    rfl
  next h => rw [if_neg (Ne.symm h), Option.map_id']

theorem phase?_shutdown (w : Worker τ) (p : Nat) :
    w.shutdown.phase? p =
      (w.phase? p).map fun phase => if phase = .queued then .cancelled else phase := by
  rw [phase?, shutdown, List.getElem?_map, phase?, Option.map_map, Option.map_map]
  refine Option.map_congr fun job _ => ?_
  show WorkerJob.phase (if job.phase = .queued then _ else job) = _
  split
  next h => exact (if_pos h).symm
  next h => exact (if_neg h).symm

theorem phase?_cancel (w : Worker τ) (place p : Nat) :
    (w.cancel place).2.phase? p =
      if p = place ∧ w.phase? p = some .queued then some .cancelled else w.phase? p := by
  unfold cancel
  split
  next job found =>
    have waits : w.phase? place = some .queued := by rw [phase?, found]; rfl
    show (w.setPhase place .cancelled).phase? p = _
    rw [phase?_setPhase]
    by_cases h : p = place
    · rw [if_pos h, h, waits, if_pos ⟨rfl, rfl⟩]
      rfl
    · rw [if_neg h, if_neg fun both => h both.1]
  next job found =>
    have gone : w.phase? place = some .cancelled := by rw [phase?, found]; rfl
    refine (if_neg ?_).symm
    rintro ⟨rfl, waits⟩
    cases gone.symm.trans waits
  next other _ =>
    refine (if_neg ?_).symm
    rintro ⟨rfl, waits⟩
    obtain ⟨⟨job, phase⟩, found, rfl⟩ := Option.map_eq_some_iff.mp waits
    exact other job found

theorem start?_none (h : w.start? = none) : w.places (· = .queued) = [] := by
  rcases hw : w.waiting with _ | ⟨task, rest⟩
  · refine List.eq_nil_iff_forall_not_mem.mpr fun place hplace => ?_
    obtain ⟨phase, hphase, waits⟩ := mem_places.mp hplace
    obtain ⟨job, found, rfl⟩ := Option.map_eq_some_iff.mp hphase
    have nobody := List.filter_eq_nil_iff.mp (List.map_eq_nil_iff.mp hw)
    exact nobody job (List.mem_of_getElem? found) waits
  · obtain ⟨place, start, _⟩ := start?_front hw
    cases h.symm.trans start

/-- The job that is started is the first of those that wait. -/
theorem start?_some (h : w.start? = some (place, task, w')) :
    w.jobs[place]? = some ⟨task, .queued⟩ ∧ w' = w.setPhase place .running ∧
      w.places (· = .queued) = place :: w'.places (· = .queued) := by
  unfold start? at h
  obtain ⟨_, hfirst, h⟩ := Option.bind_eq_some_iff.mp h
  obtain ⟨job, hjob, h⟩ := Option.bind_eq_some_iff.mp h
  cases Option.some.inj h
  obtain ⟨_, waits, before⟩ := List.findIdx?_eq_some_iff_getElem.mp hfirst
  have found : w.jobs[place]? = some ⟨job.job, .queued⟩ := by
    obtain ⟨_, hget⟩ := List.getElem?_eq_some_iff.mp hjob
    rw [hget] at waits
    rw [hjob, ← of_decide_eq_true waits]
  have here : w.phase? place = some .queued := by rw [phase?, found]; rfl
  have least : ∀ p, w.phase? p = some .queued → place ≤ p := by
    intro p hp
    obtain ⟨j, hj, hphase⟩ := Option.map_eq_some_iff.mp hp
    obtain ⟨_, hget⟩ := List.getElem?_eq_some_iff.mp hj
    refine Nat.le_of_not_lt fun hlt => before p hlt ?_
    rw [hget, hphase]
    rfl
  have others : ∀ p, p ∈ (w.setPhase place .running).places (· = .queued) ↔
      p ≠ place ∧ p ∈ w.places (· = .queued) := by
    intro p
    rw [mem_places, mem_places, phase?_setPhase]
    by_cases hp : p = place
    · simp [hp, here]
    · simp [hp]
  refine ⟨found, rfl, (eq_places ?_ fun p => ?_).symm⟩
  · refine List.pairwise_cons.mpr ⟨fun p hp => ?_, places_sorted _ _⟩
    obtain ⟨hne, hp⟩ := (others p).mp hp
    obtain ⟨phase, hphase, waits⟩ := mem_places.mp hp
    exact Nat.lt_of_le_of_ne (least p (by rw [hphase, of_decide_eq_true waits])) (Ne.symm hne)
  · rw [List.mem_cons, others]
    constructor
    · rintro (rfl | ⟨_, hp⟩)
      · exact mem_places.mpr ⟨_, here, rfl⟩
      · exact hp
    · intro hp
      exact (eq_or_ne p place).imp_right fun hne => ⟨hne, hp⟩

/-- A change of a job that is none as far as some phases are told apart. -/
theorem places_setPhase {phase : Phase} (phase' : Phase) (here : w.phase? place = some phase)
    (alike : is phase' = is phase) : (w.setPhase place phase').places is = w.places is := by
  refine places_congr fun p => ?_
  rw [phase?_setPhase]
  by_cases hp : p = place
  · simp [hp, here, alike]
  · simp [hp]

theorem places_submitted (w : Worker τ) (task : τ) (other : is .queued = false) :
    ({ w with jobs := w.jobs ++ [⟨task, .queued⟩] } : Worker τ).places is = w.places is := by
  refine places_congr fun p => ?_
  rw [phase?_submitted]
  by_cases hp : p = w.jobs.length
  · have none : w.phase? p = none := by
      rw [phase?, List.getElem?_eq_none (Nat.le_of_eq hp.symm)]
      rfl
    simp [hp, other, hp ▸ none]
  · simp [hp]

theorem places_cancel (w : Worker τ) (place : Nat) (alike : is .cancelled = is .queued) :
    (w.cancel place).2.places is = w.places is := by
  refine places_congr fun p => ?_
  rw [phase?_cancel]
  split
  next h => simp [h.2, alike]
  next => exact Iff.rfl

theorem places_shutdown (w : Worker τ) (alike : is .cancelled = is .queued) :
    w.shutdown.places is = w.places is := by
  refine places_congr fun p => ?_
  rw [phase?_shutdown]
  rcases w.phase? p with _ | phase
  · exact Iff.rfl
  · cases phase <;> simp [alike]

/-- Whoever waited when the worker was shut down is cancelled. -/
theorem cancelled_shutdown (w : Worker τ) :
    w.shutdown.places (· = .cancelled) =
      w.places fun phase => phase = .queued || phase = .cancelled := by
  refine places_congr fun p => ?_
  rw [phase?_shutdown]
  rcases w.phase? p with _ | phase
  · simp
  · cases phase <;> simp

theorem queued_cancel {w : Worker τ} (h : p ∈ (w.cancel place).2.places (· = .queued)) :
    p ∈ w.places (· = .queued) := by
  rw [mem_places, phase?_cancel] at h
  rw [mem_places]
  split at h
  next => simp at h
  next => exact h

theorem queued_shutdown (w : Worker τ) : w.shutdown.places (· = .queued) = [] := by
  refine List.eq_nil_iff_forall_not_mem.mpr fun p hp => ?_
  obtain ⟨_, found, waits⟩ := mem_places.mp hp
  rw [phase?_shutdown] at found
  obtain ⟨before, _, rfl⟩ := Option.map_eq_some_iff.mp found
  cases before <;> simp at waits

theorem map_job_setPhase (w : Worker τ) (place : Nat) (phase : Phase) :
    (w.setPhase place phase).jobs.map (·.job) = w.jobs.map (·.job) := by
  refine List.ext_getElem? fun i => ?_
  show ((w.jobs.modify place _).map _)[i]? = _
  rw [List.getElem?_map, List.getElem?_map, List.getElem?_modify, Option.map_eq_map, Option.map_map]
  refine Option.map_congr fun job _ => ?_
  by_cases h : place = i <;> simp [h]

theorem map_job_cancel (w : Worker τ) (place : Nat) :
    (w.cancel place).2.jobs.map (·.job) = w.jobs.map (·.job) := by
  unfold cancel
  split
  next => exact map_job_setPhase ..
  next => rfl
  next => rfl

theorem map_job_shutdown (w : Worker τ) : w.shutdown.jobs.map (·.job) = w.jobs.map (·.job) := by
  rw [shutdown, List.map_map]
  refine List.map_congr_left fun job _ => ?_
  show WorkerJob.job (if job.phase = .queued then _ else job) = job.job
  split <;> rfl

theorem capacity_cancel (w : Worker τ) (place : Nat) :
    (w.cancel place).2.capacity = w.capacity ∧ (w.cancel place).2.isOpen = w.isOpen := by
  unfold cancel
  split <;> exact ⟨rfl, rfl⟩

theorem depth_setPhase_le (w : Worker τ) (place : Nat) {phase : Phase}
    (ended : phase.isPending = false) : (w.setPhase place phase).depth ≤ w.depth := by
  refine depth_le fun p hp => ?_
  rw [mem_places, phase?_setPhase] at hp
  rw [mem_places]
  split at hp
  next => simp [ended] at hp
  next => exact hp

theorem depth_cancel_le (w : Worker τ) (place : Nat) : (w.cancel place).2.depth ≤ w.depth := by
  unfold cancel
  split
  next => exact w.depth_setPhase_le place rfl
  next => exact Nat.le_refl _
  next => exact Nat.le_refl _

theorem depth_shutdown_le (w : Worker τ) : w.shutdown.depth ≤ w.depth := by
  refine depth_le fun p hp => ?_
  obtain ⟨_, found, pending⟩ := mem_places.mp hp
  rw [phase?_shutdown] at found
  obtain ⟨before, hbefore, rfl⟩ := Option.map_eq_some_iff.mp found
  refine mem_places.mpr ⟨before, hbefore, ?_⟩
  cases before <;> simp [Phase.isPending] at pending ⊢

theorem depth_submitted (w : Worker τ) (task : τ) :
    ({ w with jobs := w.jobs ++ [⟨task, .queued⟩] } : Worker τ).depth = w.depth + 1 := by
  simp [depth, Phase.isPending]

end Worker

end Handover
