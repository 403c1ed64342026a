import Handover.Proofs.Custody

namespace Handover

/-- Something to do with a result, or with one of the tables that were handed out, by its number. A
failure comes with its text. -/
inductive Dealing where
  | mark (mark : Mark) (worded : mark ≠ .failed none := by simp)
  | report (type : RecordType)
  | count (type : RecordType)
  | stats
  | edit (number : Nat) (change : List (RecordType × Nat) → List (RecordType × Nat))

namespace Dealing

inductive Answer where
  | done
  | number (n : Nat)
  | table (counts : List (RecordType × Nat))
  deriving DecidableEq, Repr

def reported? : Dealing → Option RecordType
  | report type => some type
  | _ => none

def isEdit : Dealing → Bool
  | edit .. => true
  | _ => false

end Dealing

namespace Custody

open Dealing (Answer)

variable {τ : Type}

def deal (moments : Nat → τ) : Dealing → Act (Custody τ) Answer
  | .mark mark _ => (fun _ => .done) <$> Custody.mark moments mark
  | .report type => (fun _ => .done) <$> report type
  | .count type => .number <$> count type
  | .stats => .table <$> stats
  | .edit number change => (fun _ => .done) <$> edit number change

def answer (moments : Nat → τ) (c : Custody τ) (dealing : Dealing) : Except Failure Answer :=
  ((deal moments dealing).outcome c).1

def next (moments : Nat → τ) (c : Custody τ) (dealing : Dealing) : Custody τ :=
  ((deal moments dealing).outcome c).2

def after (moments : Nat → τ) (c : Custody τ) (dealings : List Dealing) : Custody τ :=
  dealings.foldl (next moments) c

/-- Some dealings with their answers, in order. -/
def transcript (moments : Nat → τ) (c : Custody τ) :
    List Dealing → List (Dealing × Except Failure Answer)
  | [] => []
  | dealing :: rest =>
    (dealing, c.answer moments dealing) :: (c.next moments dealing).transcript moments rest

/-- The mark of a dealing that was not refused. -/
def accepted? : Dealing × Except Failure Answer → Option Mark
  | (.mark mark _, .ok _) => some mark
  | _ => none

def accepted (moments : Nat → τ) (c : Custody τ) (dealings : List Dealing) : List Mark :=
  (c.transcript moments dealings).filterMap accepted?

/-- Whether the table that a result counts in was never handed out. -/
def Secure (c : Custody τ) : Prop :=
  Place.own ∉ c.handed

variable {moments : Nat → τ} {c c' : Custody τ} {mark : Mark} {marks : List Mark}

theorem dealt_accepted (moments : Nat → τ) (worded : mark ≠ .failed none)
    (fits : mark.fits c.result.status = true) :
    c.answer moments (.mark mark worded) = .ok .done ∧
      c.next moments (.mark mark worded) = { c with
        result := mark.stamp c.result (moments c.readings)
        readings := c.readings + 1 } := by
  rw [answer, next, deal, Act.outcome_map, mark_accepted fits]
  exact ⟨rfl, rfl⟩

theorem dealt_refused (moments : Nat → τ) (worded : mark ≠ .failed none)
    (misfits : mark.fits c.result.status = false) :
    c.answer moments (.mark mark worded) = .error (mark.refusal c.result) ∧
      c.next moments (.mark mark worded) = c := by
  rw [answer, next, deal, Act.outcome_map, mark_refused misfits]
  exact ⟨rfl, rfl⟩

/-- Who changes a table that was handed out changes a copy. -/
theorem next_edit (moments : Nat → τ) (secure : c.Secure) (number : Nat)
    (change : List (RecordType × Nat) → List (RecordType × Nat)) :
    ∃ copies, copies.length = c.copies.length ∧
      c.next moments (.edit number change) = { c with copies } := by
  have edited : c.next moments (.edit number change) =
      c.handed[number]?.elim c fun place => c.write place change := rfl
  rw [edited]
  cases handed : c.handed[number]? with
  | none => exact ⟨c.copies, rfl, rfl⟩
  | some place =>
    cases place with
    | own => exact absurd (List.mem_of_getElem? handed) secure
    | copy k => exact ⟨c.copies.modify k change, List.length_modify _ _ _, rfl⟩

theorem Secure.next (secure : c.Secure) (moments : Nat → τ) (dealing : Dealing) :
    (c.next moments dealing).Secure := by
  cases dealing with
  | mark mark worded =>
    cases fits : mark.fits c.result.status with
    | true =>
      rw [(dealt_accepted moments worded fits).2]
      exact secure
    | false =>
      rw [(dealt_refused moments worded fits).2]
      exact secure
  | report type | count type => exact secure
  | stats =>
    have untouched : Place.own ∉ c.handed := secure
    have handed : (c.next moments .stats).handed = c.handed ++ [.copy c.copies.length] := rfl
    rw [Secure, handed]
    simpa using untouched
  | edit number change =>
    obtain ⟨copies, -, edited⟩ := next_edit moments secure number change
    rw [edited]
    exact secure

theorem Secure.after (secure : c.Secure) (moments : Nat → τ) (dealings : List Dealing) :
    (c.after moments dealings).Secure := by
  induction dealings generalizing c with
  | nil => exact secure
  | cons dealing rest ih => exact ih (secure.next moments dealing)

/-- Nothing but reports is counted. -/
theorem next_stats (secure : c.Secure) (moments : Nat → τ) (dealing : Dealing) :
    (c.next moments dealing).result.stats =
      dealing.reported?.toList.foldl (fun stats type => JobResult.increment type stats)
        c.result.stats := by
  cases dealing with
  | mark mark worded =>
    cases fits : mark.fits c.result.status with
    | true =>
      rw [(dealt_accepted moments worded fits).2]
      exact mark.stamp_stats c.result (moments c.readings)
    | false =>
      rw [(dealt_refused moments worded fits).2]
      rfl
  | report type | count type | stats => rfl
  | edit number change =>
    obtain ⟨copies, -, edited⟩ := next_edit moments secure number change
    rw [edited]
    rfl

/-- The counts of a result are those of all reports. -/
theorem after_stats (secure : c.Secure) (moments : Nat → τ) (dealings : List Dealing) :
    (c.after moments dealings).result.stats =
      (dealings.filterMap Dealing.reported?).foldl
        (fun stats type => JobResult.increment type stats) c.result.stats := by
  induction dealings generalizing c with
  | nil => rfl
  | cons dealing rest ih =>
    have later := ih (secure.next moments dealing)
    rw [next_stats secure] at later
    have reports : (dealing :: rest).filterMap Dealing.reported? =
        dealing.reported?.toList ++ rest.filterMap Dealing.reported? := by
      cases h : dealing.reported? <;> simp [h]
    rw [reports, List.foldl_append]
    exact later

/-- One dealing: the result bears the marks before and the one that is accepted, if one is. -/
theorem Bears.next (h : Bears moments marks c) (secure : c.Secure) (dealing : Dealing) :
    Bears moments (marks ++ (accepted? (dealing, c.answer moments dealing)).toList)
      (c.next moments dealing) := by
  cases dealing with
  | mark mark worded =>
    cases fits : mark.fits c.result.status with
    | true =>
      obtain ⟨answered, next⟩ := dealt_accepted moments worded fits
      rw [answered, next]
      exact h.marked fits
    | false =>
      obtain ⟨answered, next⟩ := dealt_refused moments worded fits
      rw [answered, next]
      simpa [accepted?] using h
  | report type =>
    have counted : Bears moments marks (c.next moments (.report type)) := h.of_stats rfl rfl
    simpa [accepted?] using counted
  | count type =>
    have same : Bears moments marks (c.next moments (.count type)) := h
    simpa [accepted?] using same
  | stats =>
    have told : Bears moments marks (c.next moments .stats) := h.of_stats rfl rfl
    simpa [accepted?] using told
  | edit number change =>
    obtain ⟨copies, -, edited⟩ := next_edit moments secure number change
    have kept : Bears moments marks { c with copies } := h.of_stats rfl rfl
    rw [edited]
    simpa [accepted?] using kept

/-- Dealings in any order: the result bears what it has accepted. -/
theorem Bears.after (h : Bears moments marks c) (secure : c.Secure) (dealings : List Dealing) :
    Bears moments (marks ++ c.accepted moments dealings) (c.after moments dealings) := by
  induction dealings generalizing c marks with
  | nil => simpa [accepted, transcript, Custody.after] using h
  | cons dealing rest ih =>
    have later := ih (h.next secure dealing) (secure.next moments dealing)
    have gained : c.accepted moments (dealing :: rest) =
        (accepted? (dealing, c.answer moments dealing)).toList ++
          (c.next moments dealing).accepted moments rest := by
      rw [accepted, transcript, List.filterMap_cons]
      cases accepted? (dealing, c.answer moments dealing) <;> rfl
    rw [gained, ← List.append_assoc]
    exact later

theorem accepted_worded (c : Custody τ) (dealings : List Dealing) :
    Mark.failed none ∉ c.accepted moments dealings := by
  intro member
  obtain ⟨⟨dealing, answer⟩, -, gained⟩ := List.mem_filterMap.mp member
  cases dealing with
  | mark mark worded =>
    cases answer with
    | error failure => simp [accepted?] at gained
    | ok answer => exact worded (by simpa [accepted?] using gained)
  | report type | count type | stats | edit number change => simp [accepted?] at gained

/-- Two results in custody that differ in nothing but what has become of their copies. -/
structure Twin (c c' : Custody τ) : Prop where
  result : c'.result = c.result
  readings : c'.readings = c.readings
  handed : c'.handed = c.handed
  copies : c'.copies.length = c.copies.length

theorem Twin.refl (c : Custody τ) : c.Twin c :=
  ⟨rfl, rfl, rfl, rfl⟩

theorem Twin.edit (h : c.Twin c') (secure : c.Secure) (number : Nat)
    (change : List (RecordType × Nat) → List (RecordType × Nat)) :
    (c.next moments (.edit number change)).Twin c' := by
  obtain ⟨copies, length, edited⟩ := next_edit moments secure number change
  rw [edited]
  exact ⟨h.result, h.readings, h.handed, h.copies.trans length.symm⟩

theorem Twin.next (h : c.Twin c') (moments : Nat → τ) {dealing : Dealing}
    (unedited : dealing.isEdit = false) :
    c'.answer moments dealing = c.answer moments dealing ∧
      (c.next moments dealing).Twin (c'.next moments dealing) := by
  cases dealing with
  | mark mark worded =>
    have alike : mark.fits c'.result.status = mark.fits c.result.status := by rw [h.result]
    cases fits : mark.fits c.result.status with
    | true =>
      obtain ⟨answered, next⟩ := dealt_accepted moments worded fits
      obtain ⟨answered', next'⟩ := dealt_accepted moments worded (alike.trans fits)
      rw [answered, answered', next, next']
      exact ⟨rfl, by simp [h.result, h.readings], by simp [h.readings], h.handed, h.copies⟩
    | false =>
      obtain ⟨answered, next⟩ := dealt_refused moments worded fits
      obtain ⟨answered', next'⟩ := dealt_refused moments worded (alike.trans fits)
      rw [answered, answered', next, next', h.result]
      exact ⟨rfl, h⟩
  | report type =>
    have reported : c'.result.report type = c.result.report type := by rw [h.result]
    exact ⟨rfl, reported, h.readings, h.handed, h.copies⟩
  | count type =>
    have counted : c'.answer moments (.count type) = .ok (.number (c'.result.count type)) := rfl
    rw [counted, h.result]
    exact ⟨rfl, h⟩
  | stats =>
    have told : c'.answer moments .stats = .ok (.table c'.result.stats) := rfl
    rw [told, h.result]
    refine ⟨rfl, h.result, h.readings, ?_, ?_⟩
    · show c'.handed ++ [Place.copy c'.copies.length] = c.handed ++ [Place.copy c.copies.length]
      rw [h.handed, h.copies]
    · show (c'.copies ++ [c'.result.stats]).length = (c.copies ++ [c.result.stats]).length
      simp [h.copies]
  | edit number change => simp [Dealing.isEdit] at unedited

/-- Whoever changes tables changes no answer and nothing of the result. -/
theorem Twin.unedited (h : c.Twin c') (secure : c.Secure) (moments : Nat → τ)
    (dealings : List Dealing) :
    (c.transcript moments dealings).filter (fun dealt => !dealt.1.isEdit) =
        c'.transcript moments (dealings.filter fun dealing => !dealing.isEdit) ∧
      (c.after moments dealings).Twin
        (c'.after moments (dealings.filter fun dealing => !dealing.isEdit)) := by
  induction dealings generalizing c c' with
  | nil => exact ⟨rfl, h⟩
  | cons dealing rest ih =>
    have secure' := secure.next moments dealing
    cases edits : dealing.isEdit with
    | true =>
      have twin : (c.next moments dealing).Twin c' := by
        cases dealing with
        | edit number change => exact h.edit secure number change
        | mark | report | count | stats => simp [Dealing.isEdit] at edits
      obtain ⟨answers, ends⟩ := ih twin secure'
      simp only [transcript, List.filter_cons, edits, Bool.not_true, Bool.false_eq_true, if_false]
      exact ⟨answers, ends⟩
    | false =>
      obtain ⟨same, twin⟩ := h.next moments edits
      obtain ⟨answers, ends⟩ := ih twin secure'
      simp only [transcript, List.filter_cons, edits, Bool.not_false, if_true, same, answers]
      exact ⟨trivial, ends⟩

/-- A result that its callers deal with in any order. A start is accepted before all other marks, an
end before all other ends; a mark that is refused raises a failure and changes nothing, nor is the
clock read. The last mark that was accepted tells the state, and after an end nothing but the counts
changes. There is an error if the job has failed, a moment of its end if it is done and one of its
start if it was started, and the moments are in order. The types that were reported are counted, in
the order of their first reports, and no change of a table that was handed out shows in an
answer. -/
theorem result_follows_dealings [Preorder τ] (increasing : StrictMono moments) (tenant : Uuid)
    (dealings : List Dealing) :
    let begun := opened moments tenant
    let c := begun.after moments dealings
    let r := c.result
    let marks := begun.accepted moments dealings
    let reports := dealings.filterMap Dealing.reported?
    let unedited := dealings.filter fun dealing => !dealing.isEdit
    (Mark.running ∉ marks.tail ∧ marks.countP Mark.isFinal ≤ 1 ∧
      ∀ mark worded,
        let permitted :=
          if mark.isFinal then ∀ earlier ∈ marks, earlier.isFinal = false else marks = []
        (permitted → c.answer moments (.mark mark worded) = .ok .done) ∧
        (¬permitted → c.next moments (.mark mark worded) = c ∧ ∃ failure,
          c.answer moments (.mark mark worded) = .error failure ∧
          failure.kind = "ExportStateError")) ∧
    (r.status = (marks.getLast?.map Mark.status).getD .submitted ∧
      (r.isDone = true → ∀ later, let r' := (c.after moments later).result
        r'.status = r.status ∧ r'.error = r.error ∧ r'.submittedAt = r.submittedAt ∧
          r'.startedAt = r.startedAt ∧ r'.completedAt = r.completedAt)) ∧
    ((r.error.isSome = true ↔ r.status = .failed) ∧
      (∀ text, r.error = some text ↔ Mark.failed (some text) ∈ marks) ∧
      (r.completedAt.isSome = true ↔ r.isDone = true) ∧
      (r.startedAt.isSome = true ↔ Mark.running ∈ marks) ∧
      (∀ started, r.startedAt = some started → r.submittedAt < started) ∧
      ∀ completed, r.completedAt = some completed → r.submittedAt < completed ∧
        ∀ started, r.startedAt = some started → started < completed) ∧
    (c.answer moments .stats =
        .ok (.table (reports.eraseDups.map fun type => (type, reports.count type))) ∧
      ∀ type, c.answer moments (.count type) = .ok (.number (reports.count type))) ∧
    (begun.transcript moments dealings).filter (fun dealt => !dealt.1.isEdit) =
        begun.transcript moments unedited ∧
      r = (begun.after moments unedited).result := by
  intro begun c r marks reports unedited
  have secure : begun.Secure := by simp [begun, Secure, opened]
  have bears : Bears moments marks c := by
    simpa using (opened_bears moments tenant).after secure dealings
  have stats : r.stats = reports.foldl (fun stats type => JobResult.increment type stats) [] :=
    after_stats secure moments dealings
  obtain ⟨answers, twin⟩ := (Twin.refl begun).unedited secure moments dealings
  refine ⟨⟨bears.running_notMem_tail, bears.countP_isFinal, fun mark worded => ?_⟩,
    ⟨bears.status, fun done later => ?_⟩,
    ⟨bears.error_isSome_iff (accepted_worded begun dealings), bears.error_eq_iff,
      bears.completedAt_isSome, bears.startedAt_isSome,
      fun started => bears.submittedAt_lt_startedAt increasing,
      fun completed => bears.lt_completedAt increasing⟩,
    ⟨?_, fun type => ?_⟩, answers, twin.result.symm⟩
  · intro permitted
    have fits : mark.fits r.status = true ↔ permitted := bears.fits_iff_permitted mark
    constructor
    · intro h
      exact (dealt_accepted moments worded (fits.mpr h)).1
    · intro h
      have misfits : mark.fits r.status = false := by
        rw [← Bool.not_eq_true, fits]
        exact h
      obtain ⟨refused, same⟩ := dealt_refused moments worded misfits
      exact ⟨same, _, refused, mark.refusal_kind r⟩
  · exact bears.settled done (bears.after (secure.after moments dealings) later)
  · have told : c.answer moments .stats = .ok (.table r.stats) := rfl
    rw [told, stats, JobResult.foldl_increment_nil]
  · have counted : c.answer moments (.count type) = .ok (.number (r.count type)) := rfl
    rw [counted, JobResult.count, stats, JobResult.lookup_foldl_increment]
    simp

/-- A job that fails, with a report before its start, one before its end and one after that. A caller
empties the copy of its counts that it has been handed; a second start and a second end are
refused. -/
theorem result_follows_dealings_failed :
    let moments : Nat → Instant := fun reading => (WallClock.mk reading).now
    let begun := opened moments ⟨7⟩
    let dealings : List Dealing := [.report .device, .mark .running, .stats, .edit 0 fun _ => [],
      .mark .running, .report .asset, .mark (.failed (some "no space")), .mark .succeeded,
      .report .device]
    let c := begun.after moments dealings
    StrictMono moments ∧
      begun.accepted moments dealings = [.running, .failed (some "no space")] ∧
      c.result.status = .failed ∧ c.result.error = some "no space" ∧
      (∃ started completed, c.result.startedAt = some started ∧
        c.result.completedAt = some completed ∧
        c.result.submittedAt < started ∧ started < completed) ∧
      c.next moments (.mark .succeeded) = c ∧
      (c.after moments [.mark (.failed (some "late"))]).result.error = some "no space" ∧
      c.copies = [[]] ∧
      c.answer moments .stats = .ok (.table [(.device, 2), (.asset, 1)]) ∧
      c.answer moments (.count .user) = .ok (.number 0) := by
  intro moments begun dealings c
  have main := result_follows_dealings WallClock.now_strictMono ⟨7⟩ dealings
  obtain ⟨⟨-, -, marks⟩, ⟨status, settled⟩, ⟨-, error, completed, started, first, last⟩,
    ⟨stats, counts⟩, -⟩ := main
  have accepted : begun.accepted moments dealings = [.running, .failed (some "no space")] := rfl
  have ended : c.result.status = .failed := status
  have done : c.result.isDone = true := by rw [JobResult.isDone_of ended]; rfl
  have text : c.result.error = some "no space" := (error "no space").mpr (by rw [accepted]; simp)
  obtain ⟨s, begins⟩ := Option.isSome_iff_exists.mp (started.mpr (by rw [accepted]; simp))
  obtain ⟨e, ends⟩ := Option.isSome_iff_exists.mp (completed.mpr done)
  have refused := (marks .succeeded (by simp)).2 (by rw [accepted]; decide)
  have late := (settled done [.mark (.failed (some "late"))]).2.1
  exact ⟨WallClock.now_strictMono, accepted, ended, text,
    ⟨s, e, begins, ends, first s begins, (last e ends).2 s begins⟩, refused.1, late.trans text,
    rfl, stats, counts .user⟩

end Custody

end Handover
