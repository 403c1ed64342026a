import Handover.Custody
import Handover.Proofs.Act
import Handover.Proofs.JobResult
import Mathlib.Data.List.Basic
import Mathlib.Order.Monotone.Basic

namespace Handover

instance : Preorder Instant :=
  Preorder.lift Instant.seconds

/-- The clock of results gains with every reading. -/
theorem WallClock.now_strictMono : StrictMono fun reading => (WallClock.mk reading).now :=
  fun _ _ earlier => earlier

/-- Whether a result that has accepted a mark can accept another one later. -/
def Mark.Precedes (earlier later : Mark) : Prop :=
  earlier.isFinal = false ∧ later.isFinal = true

namespace Custody

variable {τ : Type} {moments : Nat → τ} {c c' : Custody τ} {mark : Mark}

theorem outcome_start (c : Custody τ) :
    (start moments).outcome c =
      if c.result.status = .submitted then
        (.ok (), { c with
          result := { c.result with
            status := .running
            startedAt := some (moments c.readings) }
          readings := c.readings + 1 })
      else (.error (.cannotStart (.uuid c.result.tenant) c.result.status), c) := by
  unfold start
  rw [Act.outcome_bind]
  by_cases h : c.result.status = .submitted
  · simp [h]
    rfl
  · simp [h]
    rfl

theorem outcome_finish (status : JobStatus) (error : Option String) (c : Custody τ) :
    (finish moments status error).outcome c =
      if c.result.isDone then
        (.error (.alreadyFinished (.uuid c.result.tenant) c.result.status), c)
      else
        (.ok (), { c with
          result := { c.result with status, error, completedAt := some (moments c.readings) }
          readings := c.readings + 1 }) := by
  unfold finish
  rw [Act.outcome_bind]
  by_cases h : c.result.isDone
  · simp [h]
    rfl
  · simp [h]
    rfl

/-- A mark is applied to the result, and the clock is read if it is accepted. -/
theorem outcome_mark (mark : Mark) (c : Custody τ) :
    (Custody.mark moments mark).outcome c =
      match mark.apply c.result (moments c.readings) with
      | .ok r => (.ok (), { c with result := r, readings := c.readings + 1 })
      | .error failure => (.error failure, c) := by
  cases mark with
  | running =>
    rw [Custody.mark, outcome_start, Mark.apply, JobResult.markRunning]
    split <;> rfl
  | succeeded =>
    rw [Custody.mark, outcome_finish, Mark.apply, JobResult.markSucceeded, JobResult.finish]
    split <;> rfl
  | failed error =>
    rw [Custody.mark, outcome_finish, Mark.apply, JobResult.markFailed, JobResult.finish]
    split <;> rfl

/-- A result in custody is marked as the service marks its results. -/
theorem outcome_mark_eq (mark : Mark) (c : Custody Instant) :
    (Custody.mark (fun reading => (WallClock.mk reading).now) mark).outcome c =
      let (answer, r, clock) := c.result.mark mark ⟨c.readings⟩
      (answer, { c with result := r, readings := clock.readings }) := by
  rw [outcome_mark, JobResult.mark]
  cases mark.apply c.result (WallClock.mk c.readings).now <;> rfl

theorem mark_accepted (h : mark.fits c.result.status = true) :
    (Custody.mark moments mark).outcome c = (.ok (), { c with
      result := mark.stamp c.result (moments c.readings)
      readings := c.readings + 1 }) := by
  rw [outcome_mark, Mark.apply_eq, if_pos h]

theorem mark_refused (h : mark.fits c.result.status = false) :
    (Custody.mark moments mark).outcome c = (.error (mark.refusal c.result), c) := by
  rw [outcome_mark, Mark.apply_eq, h]
  rfl

/-- What the marks say of a result that it has accepted, each dated with a reading of its clock. -/
structure Bears (moments : Nat → τ) (marks : List Mark) (c : Custody τ) : Prop where
  order : marks.Pairwise Mark.Precedes
  readings : c.readings = marks.length + 1
  submittedAt : c.result.submittedAt = moments 0
  status : c.result.status = (marks.getLast?.map Mark.status).getD .submitted
  error : c.result.error = marks.getLast?.bind Mark.text?
  startedAt : c.result.startedAt = if .running ∈ marks then some (moments 1) else none
  completedAt : c.result.completedAt =
    if c.result.isDone then some (moments marks.length) else none

theorem opened_bears (moments : Nat → τ) (tenant : Uuid) :
    Bears moments [] (opened moments tenant) where
  order := .nil
  readings := rfl
  submittedAt := rfl
  status := rfl
  error := rfl
  startedAt := rfl
  completedAt := rfl

namespace Bears

variable {marks before more : List Mark} {last : Mark}

theorem precedes_last (h : Bears moments (before ++ [last]) c) :
    ∀ earlier ∈ before, earlier.Precedes last := by
  intro earlier member
  exact (List.pairwise_append.mp h.order).2.2 earlier member last (by simp)

/-- A mark is accepted if all marks before can precede it. -/
theorem fits_iff (h : Bears moments marks c) (mark : Mark) :
    mark.fits c.result.status = true ↔ ∀ earlier ∈ marks, earlier.Precedes mark := by
  have status := h.status
  rcases List.eq_nil_or_concat' marks with rfl | ⟨before, last, rfl⟩
  · have submitted : c.result.status = .submitted := by simpa using status
    simp [Mark.fits, submitted, JobStatus.isTerminal]
  · have reached : c.result.status = last.status := by simpa using status
    cases final : mark.isFinal with
    | false =>
      have unfit : mark.fits c.result.status = false := by
        simp [Mark.fits, final, reached, last.status_ne_submitted]
      have unpreceded : ¬last.Precedes mark := by simp [Mark.Precedes, final]
      simp only [unfit, Bool.false_eq_true, false_iff]
      intro precede
      exact unpreceded (precede last (by simp))
    | true =>
      rw [Mark.fits_final final, reached, last.status_isTerminal]
      constructor
      · intro unfinished earlier member
        refine ⟨?_, final⟩
        rcases List.mem_append.mp member with member | member
        · exact (h.precedes_last earlier member).1
        · rw [List.mem_singleton.mp member]
          simpa using unfinished
      · intro precede
        simpa using (precede last (by simp)).1

/-- A start is accepted before all other marks, an end before all other ends. -/
theorem fits_iff_permitted (h : Bears moments marks c) (mark : Mark) :
    mark.fits c.result.status = true ↔
      if mark.isFinal then ∀ earlier ∈ marks, earlier.isFinal = false else marks = [] := by
  rw [h.fits_iff]
  cases final : mark.isFinal with
  | false => simp [Mark.Precedes, final, List.eq_nil_iff_forall_not_mem]
  | true => simp [Mark.Precedes, final]

/-- A result that accepts a mark bears it beside those before. -/
theorem marked (h : Bears moments marks c) (fits : mark.fits c.result.status = true) :
    Bears moments (marks ++ [mark]) { c with
      result := mark.stamp c.result (moments c.readings)
      readings := c.readings + 1 } := by
  have order : (marks ++ [mark]).Pairwise Mark.Precedes := by
    refine List.pairwise_append.mpr ⟨h.order, by simp, fun earlier member later last => ?_⟩
    rw [List.mem_singleton.mp last]
    exact (h.fits_iff mark).mp fits earlier member
  cases final : mark.isFinal with
  | false =>
    have first : marks = [] := by simpa [final] using (h.fits_iff_permitted mark).mp fits
    have start : mark = .running := Mark.eq_running_of_not_final final
    subst first start
    have unfinished : c.result.isDone = false := Mark.unfinished_of_fits fits
    have uncompleted : c.result.completedAt = none := by simpa [unfinished] using h.completedAt
    have faultless : c.result.error = none := by simpa using h.error
    have once : c.readings = 1 := by simpa using h.readings
    exact {
      order
      readings := by simp [once]
      submittedAt := h.submittedAt
      status := rfl
      error := faultless
      startedAt := by simp [Mark.stamp, Mark.isFinal, once]
      completedAt := uncompleted }
  | true =>
    have ending : mark ≠ .running := by
      rintro rfl
      simp [Mark.isFinal] at final
    have done : mark.status.isTerminal = true := by rw [mark.status_isTerminal, final]
    exact {
      order
      readings := by simp [h.readings]
      submittedAt := by simp [Mark.stamp, final, h.submittedAt]
      status := by simp [Mark.stamp, final]
      error := by simp [Mark.stamp, final]
      startedAt := by simp [Mark.stamp, final, h.startedAt, Ne.symm ending]
      completedAt := by simp [Mark.stamp, final, JobResult.isDone, done, h.readings] }

/-- The counts of a result have no part in what the marks say of it. -/
theorem of_stats (h : Bears moments marks c) (readings : c'.readings = c.readings)
    {stats : List (RecordType × Nat)} (result : c'.result = { c.result with stats }) :
    Bears moments marks c' where
  order := h.order
  readings := readings.trans h.readings
  submittedAt := by rw [result, ← h.submittedAt]
  status := by rw [result, ← h.status]
  error := by rw [result, ← h.error]
  startedAt := by rw [result, ← h.startedAt]
  completedAt := by
    have completed := h.completedAt
    rw [result]
    exact completed

theorem isDone_iff (h : Bears moments marks c) :
    c.result.isDone = true ↔ ∃ mark ∈ marks, mark.isFinal = true := by
  have final : Mark.succeeded.isFinal = true := rfl
  have permitted := h.fits_iff_permitted .succeeded
  rw [Mark.fits_final final, if_pos final] at permitted
  have unfinished : c.result.isDone = false ↔ ∀ earlier ∈ marks, earlier.isFinal = false := by
    rw [← permitted, JobResult.isDone, Bool.not_eq_true']
  rw [← Bool.not_eq_false, unfinished]
  simp

/-- Nothing is accepted after an end. -/
theorem getLast?_of_final (h : Bears moments marks c) (member : mark ∈ marks)
    (final : mark.isFinal = true) : marks.getLast? = some mark := by
  rcases List.eq_nil_or_concat' marks with rfl | ⟨before, last, rfl⟩
  · simp at member
  · rcases List.mem_append.mp member with earlier | latest
    · have start := (h.precedes_last mark earlier).1
      simp [final] at start
    · simpa using (List.mem_singleton.mp latest).symm

/-- What a result says of its state stays as it is once it is done. -/
theorem settled (h : Bears moments marks c) (done : c.result.isDone = true)
    (h' : Bears moments (marks ++ more) c') :
    c'.result.status = c.result.status ∧ c'.result.error = c.result.error ∧
      c'.result.submittedAt = c.result.submittedAt ∧
      c'.result.startedAt = c.result.startedAt ∧ c'.result.completedAt = c.result.completedAt := by
  obtain ⟨ending, member, final⟩ := h.isDone_iff.mp done
  have nothing : more = [] := by
    apply List.eq_nil_iff_forall_not_mem.mpr
    intro later member'
    have start := ((List.pairwise_append.mp h'.order).2.2 ending member later member').1
    simp [final] at start
  subst nothing
  rw [List.append_nil] at h'
  have status : c'.result.status = c.result.status := h'.status.trans h.status.symm
  have done' : c'.result.isDone = true := by rw [JobResult.isDone_of status]; exact done
  refine ⟨status, h'.error.trans h.error.symm, h'.submittedAt.trans h.submittedAt.symm,
    h'.startedAt.trans h.startedAt.symm, ?_⟩
  rw [h'.completedAt, h.completedAt, done, done']

theorem running_notMem_tail (h : Bears moments marks c) : Mark.running ∉ marks.tail := by
  cases marks with
  | nil => simp
  | cons first rest =>
    intro later
    have ending := ((List.pairwise_cons.mp h.order).1 .running later).2
    simp [Mark.isFinal] at ending

theorem countP_isFinal (h : Bears moments marks c) : marks.countP Mark.isFinal ≤ 1 := by
  rcases List.eq_nil_or_concat' marks with rfl | ⟨before, last, rfl⟩
  · simp
  · have starts : before.countP Mark.isFinal = 0 := by
      apply List.countP_eq_zero.mpr
      intro earlier member
      simp [(h.precedes_last earlier member).1]
    rw [List.countP_append, starts, Nat.zero_add]
    exact List.countP_le_length

theorem error_eq_iff (h : Bears moments marks c) (text : String) :
    c.result.error = some text ↔ Mark.failed (some text) ∈ marks := by
  rw [h.error]
  constructor
  · intro said
    obtain ⟨last, latest, said⟩ := Option.bind_eq_some_iff.mp said
    cases last with
    | running | succeeded => simp [Mark.text?] at said
    | failed error =>
      have given : error = some text := said
      subst given
      exact List.mem_of_getLast? latest
  · intro member
    rw [h.getLast?_of_final member rfl]
    rfl

/-- Where no failure comes without a text, there is an error if the job has failed. -/
theorem error_isSome_iff (h : Bears moments marks c) (worded : Mark.failed none ∉ marks) :
    c.result.error.isSome = true ↔ c.result.status = .failed := by
  rw [h.error, h.status]
  cases latest : marks.getLast? with
  | none => simp
  | some last =>
    have member := List.mem_of_getLast? latest
    cases last with
    | running | succeeded => simp [Mark.text?, Mark.status]
    | failed error =>
      cases error with
      | none => exact absurd member worded
      | some text => simp [Mark.text?, Mark.status]

theorem startedAt_isSome (h : Bears moments marks c) :
    c.result.startedAt.isSome = true ↔ Mark.running ∈ marks := by
  rw [h.startedAt]
  split <;> simp_all

theorem completedAt_isSome (h : Bears moments marks c) :
    c.result.completedAt.isSome = true ↔ c.result.isDone = true := by
  rw [h.completedAt]
  split <;> simp_all

section Order

variable [Preorder τ] {started completed : τ}

theorem submittedAt_lt_startedAt (h : Bears moments marks c) (increasing : StrictMono moments)
    (begins : c.result.startedAt = some started) : c.result.submittedAt < started := by
  have ran : Mark.running ∈ marks := by
    rw [← h.startedAt_isSome, begins]
    rfl
  have first : moments 1 = started := by simpa [h.startedAt, ran] using begins
  rw [h.submittedAt, ← first]
  exact increasing (by omega)

theorem lt_completedAt (h : Bears moments marks c) (increasing : StrictMono moments)
    (ends : c.result.completedAt = some completed) :
    c.result.submittedAt < completed ∧
      ∀ started, c.result.startedAt = some started → started < completed := by
  have done : c.result.isDone = true := by
    rw [← h.completedAt_isSome, ends]
    rfl
  obtain ⟨ending, member, final⟩ := h.isDone_iff.mp done
  have stamped : moments marks.length = completed := by simpa [h.completedAt, done] using ends
  rw [← stamped, h.submittedAt]
  refine ⟨increasing (List.length_pos_of_mem member), fun started begins => ?_⟩
  have ran : Mark.running ∈ marks := by
    rw [← h.startedAt_isSome, begins]
    rfl
  have first : moments 1 = started := by simpa [h.startedAt, ran] using begins
  rw [← first]
  -- a start is not an end, so that there are two marks
  have two : 1 < marks.length := by
    by_contra short
    have one : marks.length = 1 := by
      have some_mark := List.length_pos_of_mem member
      omega
    obtain ⟨only, rfl⟩ := List.length_eq_one_iff.mp one
    rw [List.mem_singleton.mp member, ← List.mem_singleton.mp ran] at final
    simp [Mark.isFinal] at final
  exact increasing two

end Order

end Bears

end Custody

end Handover
