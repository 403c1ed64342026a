import Handover.Proofs.Course

namespace Handover

variable {δ : Type}

namespace World

/-- Whether a tenant has a registered result that succeeded. -/
def Succeeded (w : World δ) (tenant : Uuid) : Prop :=
  ∃ ticket r, w.registry.value? tenant = some ticket ∧ w.result? ticket = some r ∧
    r.status = .succeeded

/-- A world that would be consistent if something else were stored in it. -/
def Coherent (w : World δ) : Prop :=
  ∃ storage chronicle, Consistent { w with storage } chronicle

variable {w w' : World δ} {chronicle : Chronicle} {tenant : Uuid}

theorem Trims.succeeded (trims : w.Trims w') (h : w'.Succeeded tenant) : w.Succeeded tenant := by
  obtain ⟨ticket, r, registered, result, succeeded⟩ := h
  rw [result?_congr trims.results] at result
  exact ⟨ticket, r, trims.old tenant ticket registered, result, succeeded⟩

/-- A result that has just been registered has not succeeded. -/
theorem succeeded_of_registered {id : Uuid} {storage : Storage} {worker : Worker Task}
    (h : Succeeded { w.registered id with storage, worker } tenant) : w.Succeeded tenant := by
  obtain ⟨ticket, r, registered, result, succeeded⟩ := h
  by_cases own : tenant = id
  · subst own
    cases (Registry.value?_put_self w.registry w.time tenant w.results.length).symm.trans registered
    cases (result?_registered_new w tenant).symm.trans result
    cases succeeded
  · have before := Registry.value?_put_of_ne w.registry w.time w.results.length own
    rcases result?_registered result with old | ⟨_, rfl⟩
    · exact ⟨ticket, r, before.symm.trans registered, old, succeeded⟩
    · cases succeeded

end World

namespace Service

variable {env : Environment δ} {c : Surroundings δ} {w : World δ} {chronicle : Chronicle}
variable {other : Uuid}

theorem submit_succeeded (e : env.Within c) (finds : c.FindsTenants) (h : w.Consistent chronicle)
    {id : Uuid} {skipped : List RecordType}
    (success : ((submit env id skipped).outcome w).2.Succeeded other) : w.Succeeded other := by
  have approved := approve_trims e h id
  rcases run : (approve env id).outcome w with ⟨failure | tenant, w'⟩
  · rw [submit, Act.outcome_bind_error run] at success
    rw [run] at approved
    exact approved.succeeded success
  · obtain ⟨rfl, free⟩ := approve_ok e finds run
    rw [run] at approved
    obtain ⟨s, worker, entered, _⟩ := outcome_enter e (h.trims approved) tenant skipped free
    rw [submit, Act.outcome_bind_ok run, Act.outcome_bind_ok entered] at success
    exact approved.succeeded (World.succeeded_of_registered success)

/-- Nothing but the run of a job makes a result succeed. -/
theorem request_succeeded (e : env.Within c) (finds : c.FindsTenants) (h : w.Consistent chronicle)
    {op : Operation} (hop : op ≠ .run) (success : (after env w op).Succeeded other) :
    w.Succeeded other := by
  cases op with
  | submit id skipped => exact submit_succeeded e finds h success
  | run => exact absurd rfl hop
  | _ => exact (request_trims e h hop (by simp)).succeeded success

/-- After a job has been run, the tenants whose registered result has succeeded are those from
before, whose stock is left, and the tenant of the job if it went well, with the archive of what it
has saved. -/
theorem run_succeeded (e : env.Within c) (sound : w.storage.Sound) (h : w.Coherent) {ticket : Nat}
    {tenant : Tenant} {skipped : List RecordType} {rest : List Task} {place : Nat}
    (front : w.worker.waiting = .job ticket tenant skipped :: rest)
    (start : w.worker.start? = some (place, .job ticket tenant skipped,
      w.worker.setPhase place .running))
    (success : (after env w .run).Succeeded other) :
    (other ≠ tenant.id ∧ w.Succeeded other ∧ ∀ stock, w.storage.Stocks other stock →
        (after env w .run).storage.Stocks other stock) ∨
      (other = tenant.id ∧ (after env w .run).storage.Keeps other (Holding.archiveOf
        (Holding.written (savedBy env ticket tenant skipped
          { w with worker := w.worker.setPhase place .running })))) := by
  obtain ⟨_, _, coherent⟩ := h
  obtain ⟨waited, newest, moment, registered, _, unfinished⟩ :=
    coherent.queued ticket tenant skipped (front ▸ List.mem_cons_self)
  obtain ⟨result, w', run, ended, spares, _, keeps⟩ := runNext_job e sound waited start
  obtain ⟨r, found, _, status, _⟩ := ended.ended
  rw [after, run] at success ⊢
  obtain ⟨number, r', value, result', succeeded⟩ := success
  have value' : w.registry.value? other = some number := by
    have touched : w'.registry.value? other = some number := value
    rwa [ended.registry, Registry.touch_value?] at touched
  by_cases own : number = ticket
  · subst own
    obtain ⟨_, owned, owner⟩ := coherent.owned other number value'
    obtain ⟨_, waited⟩ := waited
    cases waited.symm.trans owned
    cases found.symm.trans result'
    have well : result = .ok () := by
      rcases result with failure | _
      · exact nomatch status.symm.trans succeeded
      · rfl
    exact .inr ⟨owner.symm, owner ▸ keeps well⟩
  · have before : w.result? number = some r' := (ended.others number own).symm.trans result'
    have apart : other ≠ tenant.id := by
      rintro rfl
      cases registered.symm.trans value'
      cases unfinished.symm.trans before
      cases succeeded
    exact .inl ⟨apart, ⟨number, r', value', before, succeeded⟩, spares.stocks other apart⟩

end Service

end Handover
