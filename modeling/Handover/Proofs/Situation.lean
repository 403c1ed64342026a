import Handover.Proofs.Leftovers
import Handover.Proofs.Retrieval

namespace Handover

open Service

variable {δ : Type}

/-- A tenant has no live result, or one that is not finished, that has failed, or that has
succeeded. -/
inductive Situation where
  | absent
  | unfinished (r : JobResult)
  | failed (r : JobResult) (error : String)
  | succeeded (r : JobResult)
  deriving Repr

/-- The situation of a tenant, by its live result. -/
inductive World.Situated (w : World δ) (tenant : Uuid) : Situation → Prop where
  | absent (dead : live? w tenant = none) : Situated w tenant .absent
  | unfinished {ticket : Nat} {r : JobResult} (live : live? w tenant = some ticket)
      (result : w.result? ticket = some r) (unfinished : r.isDone = false) :
      Situated w tenant (.unfinished r)
  | failed {ticket : Nat} {r : JobResult} {error : String} (live : live? w tenant = some ticket)
      (result : w.result? ticket = some r) (failed : r.status = .failed)
      (reason : r.error = some error) : Situated w tenant (.failed r error)
  | succeeded {ticket : Nat} {r : JobResult} (live : live? w tenant = some ticket)
      (result : w.result? ticket = some r) (succeeded : r.status = .succeeded) :
      Situated w tenant (.succeeded r)

namespace Situation

/-- The situation that a live result makes. -/
def of : Option JobResult → Situation
  | none => absent
  | some r =>
    match r.status with
    | .submitted | .running => unfinished r
    | .failed => failed r (r.error.getD "")
    | .succeeded => succeeded r

def result? : Situation → Option JobResult
  | absent => none
  | unfinished r | failed r _ | succeeded r => some r

/-- What looking at the result of a tenant gives. -/
def look (tenant : Uuid) (s : Situation) : Except Failure JobResult :=
  match s.result? with
  | none => .error (.resultNotFound (.uuid tenant))
  | some r => .ok r

/-- What deleting the result of a tenant gives. -/
def deletion (tenant : Uuid) : Situation → Except Failure Unit
  | absent => .error (.resultNotFound (.uuid tenant))
  | unfinished _ => .error (.alreadyRunning (.uuid tenant))
  | failed .. | succeeded _ => .ok ()

/-- What submitting an export of a known tenant gives. -/
def submission (worker : Worker Task) (tenant : Uuid) : Situation → Except Failure Unit
  | unfinished _ => .error (.alreadyRunning (.uuid tenant))
  | absent | failed .. | succeeded _ =>
    if worker.isFull then .error (.queueFull (.int worker.capacity)) else .ok ()

/-- Whether an answer is what a download gives. -/
def Downloads (tenant : Uuid) : Situation → Except Failure Archive → Prop
  | absent, answer => answer = .error (.resultNotFound (.uuid tenant))
  | unfinished _, answer => answer = .error (.notReady (.uuid tenant))
  | failed _ error, answer => answer = .error (.exportFailed (.uuid tenant) (.str error))
  | succeeded r, answer => ∃ members rows, answer = .ok members ∧ members.Carries r rows

end Situation

namespace World

variable {w : World δ} {chronicle : Chronicle} {tenant : Uuid} {situation other : Situation}

/-- In a consistent world every tenant is in some situation. -/
theorem Consistent.situated (h : w.Consistent chronicle) (tenant : Uuid) :
    ∃ situation, w.Situated tenant situation := by
  cases live : live? w tenant with
  | none => exact ⟨_, .absent live⟩
  | some ticket =>
    obtain ⟨r, result⟩ := live_result h live
    cases status : r.status with
    | submitted => exact ⟨_, .unfinished live result (JobResult.isDone_of status)⟩
    | running => exact ⟨_, .unfinished live result (JobResult.isDone_of status)⟩
    | failed =>
      obtain ⟨error, reason⟩ := h.failed ticket r result status
      exact ⟨_, .failed live result status reason⟩
    | succeeded => exact ⟨_, .succeeded live result status⟩

theorem Situated.previous (h : w.Situated tenant situation) :
    (live? w tenant).bind w.result? = situation.result? := by
  cases h with
  | absent dead => rw [dead]; rfl
  | unfinished live result => rw [live]; exact result
  | failed live result => rw [live]; exact result
  | succeeded live result => rw [live]; exact result

/-- The situation of a tenant can be told from its live result. -/
theorem Situated.eq_of (h : w.Situated tenant situation) :
    situation = .of ((live? w tenant).bind w.result?) := by
  rw [h.previous]
  cases h with
  | absent => rfl
  | @unfinished _ r _ _ unfinished =>
    show _ = Situation.of (some r)
    cases status : r.status with
    | submitted | running => rw [Situation.of, status]
    | failed | succeeded => exact nomatch unfinished.symm.trans (JobResult.isDone_of status)
  | @failed _ r _ _ _ failed reason =>
    show _ = Situation.of (some r)
    rw [Situation.of, failed, reason]
    rfl
  | @succeeded _ r _ _ succeeded =>
    show _ = Situation.of (some r)
    rw [Situation.of, succeeded]

/-- A tenant is in one situation only. -/
theorem Situated.unique (h : w.Situated tenant situation) (h' : w.Situated tenant other) :
    other = situation :=
  h'.eq_of.trans h.eq_of.symm

end World

namespace Service

variable {env : Environment δ} {c : Surroundings δ} {w : World δ} {chronicle : Chronicle}
variable {tenant : Uuid} {situation : Situation}

/-- A look gives the live result. -/
theorem getResult_situated (e : env.Within c) (h : w.Consistent chronicle)
    (situated : w.Situated tenant situation) :
    ((getResult env tenant).outcome w).1 = situation.look tenant := by
  cases situated with
  | absent dead =>
    obtain ⟨w', run, _⟩ := outcome_getResult_none e h.registry h.storage dead
    rw [run]
    rfl
  | unfinished live result => rw [outcome_getResult_some live result]; rfl
  | failed live result => rw [outcome_getResult_some live result]; rfl
  | succeeded live result => rw [outcome_getResult_some live result]; rfl

/-- A download gives the archive of a live result that has succeeded. -/
theorem download_situated (e : env.Within c) (h : w.Consistent chronicle)
    (situated : w.Situated tenant situation) :
    situation.Downloads tenant ((download env tenant).outcome w).1 := by
  have retrieved := (download_retrieved e h tenant).1
  generalize ((download env tenant).outcome w).1 = answer at retrieved
  cases retrieved with
  | absent none =>
    obtain rfl := situated.unique (.absent none)
    exact rfl
  | unfinished live result unfinished =>
    obtain rfl := situated.unique (.unfinished live result unfinished)
    exact rfl
  | failed live result failed error =>
    obtain rfl := situated.unique (.failed live result failed error)
    exact rfl
  | succeeded live result succeeded stored =>
    obtain rfl := situated.unique (.succeeded live result succeeded)
    obtain ⟨_, _, counts, writable⟩ := stored
    exact ⟨_, _, rfl, Holding.archiveOf_carries counts writable⟩

/-- A deletion succeeds if the live result is done. -/
theorem delete_situated (e : env.Within c) (h : w.Consistent chronicle)
    (situated : w.Situated tenant situation) :
    ((delete env tenant).outcome w).1 = situation.deletion tenant := by
  have removed : ∀ {ticket r}, live? w tenant = some ticket → w.result? ticket = some r →
      r.isDone = true → ((delete env tenant).outcome w).1 = .ok () := by
    intro ticket r live result done
    obtain ⟨answer, w', run, ⟨_, undone⟩ | ⟨_, answered, _⟩⟩ :=
      outcome_delete_apart e.apart w tenant
    · exact nomatch done.symm.trans (undone ticket r live result)
    · have sound : (w.looked tenant).registry.Sound := (Registry.get_drops h.registry).sound
      obtain ⟨gone, hgone⟩ := Registry.remove_answer sound tenant
      rw [run, answered, hgone]
      rfl
  cases situated with
  | absent dead =>
    obtain ⟨w', run, _⟩ := outcome_getResult_none e h.registry h.storage dead
    rw [delete, Act.outcome_bind_error run]
    rfl
  | unfinished live result unfinished => rw [outcome_delete_unfinished live result unfinished]; rfl
  | failed live result failed => exact removed live result (JobResult.isDone_of failed)
  | succeeded live result succeeded => exact removed live result (JobResult.isDone_of succeeded)

/-- What has been deleted is absent. -/
theorem delete_absent (e : env.Within c)
    (deleted : ((delete env tenant).outcome w).1 = .ok ()) :
    World.Situated (after env w (.delete tenant)) tenant .absent := by
  have ok : ((delete env tenant).outcome w).1.isOk = true := by rw [deleted]; rfl
  have gone := delete_value? e.apart ok
  refine .absent (Option.eq_none_iff_forall_ne_some.mpr fun ticket live => ?_)
  cases gone.symm.trans (Registry.peek_some live)

/-- An export of a known tenant is approved by its situation. -/
theorem verdict_situated (refuses : env.allowsResubmission = false)
    (situated : w.Situated tenant situation) :
    verdict env w.worker tenant ((live? w tenant).bind w.result?) =
      situation.submission w.worker tenant := by
  have ended : ∀ {r : JobResult}, r.isDone = true →
      verdict env w.worker tenant (some r) = verdict env w.worker tenant none := by
    intro r done
    rw [verdict, verdict, Option.any_some, done]
    rfl
  rw [situated.previous]
  cases situated with
  | absent => rfl
  | unfinished _ _ unfinished =>
    rw [verdict, refuses, Situation.result?, Option.any_some, unfinished]
    rfl
  | failed _ _ failed => exact ended (JobResult.isDone_of failed)
  | succeeded _ _ succeeded => exact ended (JobResult.isDone_of succeeded)

/-- An export that has been entered is unfinished. -/
theorem enter_situated (e : env.Within c) (h : w.Consistent chronicle) (t : Tenant)
    (skipped : List RecordType) (free : w.worker.isFull = false) :
    ((enter env t.id t skipped).outcome w).1 = .ok () ∧ ∃ r,
      World.Situated ((enter env t.id t skipped).outcome w).2 t.id (.unfinished r) := by
  obtain ⟨s, worker, entered, _⟩ := outcome_enter e h t skipped free
  have new := World.result?_registered_new w t.id
  have live : live? (w.registered t.id) t.id = some w.results.length :=
    World.live?_of_unfinished (Registry.value?_put_self ..) (World.not_evictable new rfl)
  rw [entered]
  exact ⟨rfl, _, .unfinished live new rfl⟩

/-- An export of a known tenant is submitted if no other one is unfinished and the queue is not
full, and is unfinished then. -/
theorem submit_situated (e : env.Within c) (finds : c.FindsTenants)
    (h : w.Consistent chronicle) (refuses : env.allowsResubmission = false)
    (situated : w.Situated tenant situation)
    (known : ∃ t, ((c.ask (.tenant tenant)).outcome w.data).1 = .ok (some t))
    (skipped : List RecordType) :
    ((submit env tenant skipped).outcome w).1 =
        (situation.submission w.worker tenant).map (fun _ => tenant) ∧
      (situation.submission w.worker tenant = .ok () → ∃ r,
        World.Situated (after env w (.submit tenant skipped)) tenant (.unfinished r)) := by
  obtain ⟨t, found⟩ := known
  have asked : (c.ask (.tenant tenant)).outcome w.data =
      (.ok (some t), ((c.ask (.tenant tenant)).outcome w.data).2) := Prod.ext found rfl
  obtain rfl : t.id = tenant := finds _ _ _ _ asked
  have approved := h.trims (approve_trims e h t.id)
  have verdict := verdict_situated refuses situated
  have run := outcome_approve_known e asked
  rw [verdict] at run
  rw [after, submit]
  cases submission : situation.submission w.worker t.id with
  | error failure =>
    rw [submission] at run
    rw [Act.outcome_bind_error run]
    exact ⟨rfl, fun ok => by cases ok⟩
  | ok =>
    rw [submission] at run
    rw [run] at approved
    obtain ⟨answer, r, entered⟩ :=
      enter_situated e approved t skipped (verdict_ok (verdict.trans submission))
    rw [Act.outcome_bind_ok run]
    rw [Act.outcome_bind_ok (Prod.ext answer rfl)]
    exact ⟨rfl, fun _ => ⟨r, entered⟩⟩

end Service

end Handover
