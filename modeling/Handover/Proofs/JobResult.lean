import Handover.JobResult

namespace Handover

namespace JobResult

variable {τ : Type}

theorem isDone_of {r : JobResult τ} {status : JobStatus} (h : r.status = status) :
    r.isDone = status.isTerminal := by
  rw [isDone, h]

theorem isSuccess_of {r : JobResult} {status : JobStatus} (h : r.status = status) :
    r.isSuccess = decide (status = .succeeded) := by
  rw [isSuccess, h]

theorem isSuccess_of_unfinished {r : JobResult} (h : r.isDone = false) : r.isSuccess = false :=
  decide_eq_false fun succeeded => nomatch h.symm.trans (isDone_of succeeded)

def reported (r : JobResult) (rows : List (RecordType × Value)) : JobResult :=
  rows.foldl (fun r row => r.report row.1) r

theorem reported_concat (r : JobResult) (rows : List (RecordType × Value)) (type : RecordType)
    (record : Value) : r.reported (rows ++ [(type, record)]) = (r.reported rows).report type := by
  simp [reported]

theorem reported_fields (r : JobResult) (rows : List (RecordType × Value)) :
    (r.reported rows).status = r.status ∧ (r.reported rows).tenant = r.tenant := by
  induction rows generalizing r with
  | nil => exact ⟨rfl, rfl⟩
  | cons row rest ih => exact ih (r.report row.1)

theorem lookup_increment (type : RecordType) (stats : List (RecordType × Nat)) (t : RecordType) :
    ((increment type stats).lookup t).getD 0 =
      (stats.lookup t).getD 0 + if t = type then 1 else 0 := by
  induction stats with
  | nil =>
    by_cases h : t = type
    · simp [increment, h]
    · have hne : (t == type) = false := beq_false_of_ne h
      simp [increment, h, List.lookup_cons, hne]
  | cons entry rest ih =>
    obtain ⟨u, n⟩ := entry
    rw [increment]
    by_cases hu : u = type
    · subst hu
      by_cases h : t = u
      · simp [h]
      · have hne : (t == u) = false := beq_false_of_ne h
        simp [h, List.lookup_cons, hne]
    · rw [if_neg hu]
      by_cases h : t = u
      · have hne : ¬t = type := fun he => hu (h ▸ he)
        simp [h, hu]
      · have hne : (t == u) = false := beq_false_of_ne h
        rw [List.lookup_cons, List.lookup_cons, hne]
        exact ih

theorem count_report (r : JobResult τ) (type t : RecordType) :
    (r.report type).count t = r.count t + if t = type then 1 else 0 :=
  lookup_increment type r.stats t

/-- The first type of a table takes the reports of its own, the rest of the table the others. -/
theorem foldl_increment_cons (type : RecordType) (n : Nat) (rest : List (RecordType × Nat))
    (reports : List RecordType) :
    reports.foldl (fun stats t => increment t stats) ((type, n) :: rest) =
      (type, n + reports.count type) ::
        (reports.filter fun t => !t == type).foldl (fun stats t => increment t stats) rest := by
  induction reports generalizing n rest with
  | nil => simp
  | cons t reports ih =>
    by_cases h : t = type
    · subst h
      simp [increment, ih, Nat.add_comm, Nat.add_left_comm]
    · have hne : ¬type = t := Ne.symm h
      simp [increment, ih, h, hne]

/-- A table that has been filled by reports holds the types that were reported, in the order of
their first reports, each with the number of its reports. -/
theorem foldl_increment_nil (reports : List RecordType) :
    reports.foldl (fun stats t => increment t stats) [] =
      reports.eraseDups.map fun type => (type, reports.count type) := by
  match reports with
  | [] => simp
  | type :: rest =>
    have others := foldl_increment_nil (rest.filter fun t => !t == type)
    have first : increment type [] = [(type, 1)] := rfl
    rw [List.foldl_cons, first, foldl_increment_cons, others, List.eraseDups_cons, List.map_cons]
    congr 1
    · simp [Nat.add_comm]
    · apply List.map_congr_left
      intro t ht
      have member := List.mem_filter.mp (List.mem_eraseDups.mp ht)
      have hne : ¬t = type := by simpa using member.2
      simp [List.count_filter, hne, Ne.symm hne]
termination_by reports.length
decreasing_by exact Nat.lt_succ_of_le (List.length_filter_le _ _)

theorem lookup_foldl_increment (stats : List (RecordType × Nat)) (reports : List RecordType)
    (type : RecordType) :
    ((reports.foldl (fun stats t => increment t stats) stats).lookup type).getD 0 =
      (stats.lookup type).getD 0 + reports.count type := by
  induction reports generalizing stats with
  | nil => simp
  | cons t rest ih =>
    rw [List.foldl_cons, ih, lookup_increment, List.count_cons]
    by_cases h : type = t
    · subst h
      simp
      omega
    · simp [h, Ne.symm h]

/-- The count of a type grows by the number of records of the type. -/
theorem count_reported (r : JobResult) (rows : List (RecordType × Value)) (type : RecordType) :
    (r.reported rows).count type = r.count type + rows.countP fun row => row.1 = type := by
  induction rows generalizing r with
  | nil => rfl
  | cons row rest ih =>
    show ((r.report row.1).reported rest).count type = _
    rw [ih, count_report, List.countP_cons]
    by_cases h : row.1 = type
    · simp [h]
      omega
    · simp [h, Ne.symm h]

end JobResult

namespace Mark

variable {τ : Type}

/-- Whether a job ends with a mark. -/
def isFinal : Mark → Bool
  | running => false
  | _ => true

/-- The state that a mark leads to. -/
def status : Mark → JobStatus
  | running => .running
  | succeeded => .succeeded
  | failed _ => .failed

def text? : Mark → Option String
  | failed error => error
  | _ => none

/-- Whether a result accepts a mark in a state. -/
def fits (mark : Mark) (status : JobStatus) : Bool :=
  if mark.isFinal then !status.isTerminal else status = .submitted

/-- What a mark makes of a result that accepts it. -/
def stamp (mark : Mark) (r : JobResult τ) (now : τ) : JobResult τ :=
  if mark.isFinal then
    { r with status := mark.status, error := mark.text?, completedAt := some now }
  else { r with status := mark.status, startedAt := some now }

def refusal (mark : Mark) (r : JobResult τ) : Failure :=
  if mark.isFinal then .alreadyFinished (.uuid r.tenant) r.status
  else .cannotStart (.uuid r.tenant) r.status

theorem status_ne_submitted (mark : Mark) : mark.status ≠ .submitted := by
  cases mark <;> simp [status]

theorem status_isTerminal (mark : Mark) : mark.status.isTerminal = mark.isFinal := by
  cases mark <;> rfl

theorem eq_running_of_not_final {mark : Mark} (h : mark.isFinal = false) : mark = .running := by
  cases mark with
  | running => rfl
  | succeeded | failed error => simp [isFinal] at h

theorem fits_final {mark : Mark} (final : mark.isFinal = true) (status : JobStatus) :
    mark.fits status = !status.isTerminal := by
  simp [fits, final]

theorem unfinished_of_fits {mark : Mark} {r : JobResult τ} (h : mark.fits r.status = true) :
    r.isDone = false := by
  cases final : mark.isFinal with
  | false =>
    have submitted : r.status = .submitted := by simpa [fits, final] using h
    exact JobResult.isDone_of submitted
  | true => simpa [JobResult.isDone, fits_final final] using h

theorem stamp_tenant (mark : Mark) (r : JobResult τ) (now : τ) :
    (mark.stamp r now).tenant = r.tenant := by
  unfold stamp
  split <;> rfl

theorem stamp_stats (mark : Mark) (r : JobResult τ) (now : τ) :
    (mark.stamp r now).stats = r.stats := by
  unfold stamp
  split <;> rfl

theorem refusal_kind (mark : Mark) (r : JobResult τ) :
    (mark.refusal r).kind = "ExportStateError" := by
  unfold refusal
  split <;> rfl

theorem finish_eq (mark : Mark) (final : mark.isFinal = true) (r : JobResult τ) (now : τ) :
    r.finish mark.status mark.text? now =
      if mark.fits r.status then .ok (mark.stamp r now) else .error (mark.refusal r) := by
  rw [JobResult.finish, fits_final final, JobResult.isDone]
  cases done : r.status.isTerminal <;> simp [stamp, refusal, final]

/-- A result accepts a mark that fits its state, and refuses any other. -/
theorem apply_eq (mark : Mark) (r : JobResult τ) (now : τ) :
    mark.apply r now =
      if mark.fits r.status then .ok (mark.stamp r now) else .error (mark.refusal r) := by
  cases mark with
  | running => simp [apply, fits, stamp, refusal, isFinal, status, JobResult.markRunning]
  | succeeded => exact finish_eq .succeeded rfl r now
  | failed error => exact finish_eq (.failed error) rfl r now

end Mark

end Handover
