import Handover.Proofs.Answered

namespace Handover

namespace Act

variable {σ τ α β : Type} {R : σ → τ → Prop}

/-- Whether two actions answer the same and keep up a relation between their states. -/
def Parallel (R : σ → τ → Prop) (act : Act σ α) (act' : Act τ α) : Prop :=
  ∀ s t, R s t →
    (act'.outcome t).1 = (act.outcome s).1 ∧ R (act.outcome s).2 (act'.outcome t).2

namespace Parallel

variable {act : Act σ α} {act' : Act τ α}

/-- Either both actions fail alike or both give the same. -/
theorem cases (h : Parallel R act act') {s : σ} {t : τ} (hR : R s t) :
    (∃ failure s' t', act.outcome s = (.error failure, s') ∧
      act'.outcome t = (.error failure, t') ∧ R s' t') ∨
    ∃ a s' t', act.outcome s = (.ok a, s') ∧ act'.outcome t = (.ok a, t') ∧ R s' t' := by
  obtain ⟨answer, related⟩ := h s t hR
  rcases run : act.outcome s with ⟨failure | a, s'⟩ <;>
    rcases run' : act'.outcome t with ⟨result, t'⟩ <;> rw [run, run'] at answer related <;>
    cases answer
  · exact .inl ⟨failure, s', t', rfl, rfl, related⟩
  · exact .inr ⟨a, s', t', rfl, rfl, related⟩

/-- An action goes alike from one state and the same state. -/
theorem same (act : Act σ α) : Parallel Eq act act := by
  rintro s _ rfl
  exact ⟨rfl, rfl⟩

theorem pure (a : α) : Parallel R (Pure.pure a : Act σ α) (Pure.pure a : Act τ α) :=
  fun _ _ h => ⟨rfl, h⟩

theorem throw (failure : Failure) : Parallel R (MonadExcept.throw failure : Act σ α)
    (MonadExcept.throw failure : Act τ α) :=
  fun _ _ h => ⟨rfl, h⟩

theorem settle (result : Except Failure α) :
    Parallel R (Act.settle result : Act σ α) (Act.settle result : Act τ α) :=
  fun _ _ h => ⟨rfl, h⟩

theorem set {s : σ} {t : τ} (h : R s t) :
    Parallel R (MonadStateOf.set s : Act σ PUnit) (MonadStateOf.set t : Act τ PUnit) :=
  fun _ _ _ => ⟨rfl, h⟩

theorem bind {next : α → Act σ β} {next' : α → Act τ β} (h : Parallel R act act')
    (h' : ∀ a, Parallel R (next a) (next' a)) : Parallel R (act >>= next) (act' >>= next') := by
  intro s t hR
  obtain ⟨failure, s', t', run, run', related⟩ | ⟨a, s', t', run, run', related⟩ := h.cases hR
  · rw [outcome_bind_error run, outcome_bind_error run']
    exact ⟨rfl, related⟩
  · rw [outcome_bind_ok run, outcome_bind_ok run']
    exact h' a s' t' related

/-- Actions that go by their states. -/
theorem get_bind {next : σ → Act σ α} {next' : τ → Act τ α}
    (h : ∀ s t, R s t → Parallel R (next s) (next' t)) :
    Parallel R (get >>= next) (get >>= next') :=
  fun s t hR => h s t hR s t hR

theorem attempt (h : Parallel R act act') : Parallel R act.attempt act'.attempt :=
  fun s t hR => ⟨congrArg Except.ok (h s t hR).1, (h s t hR).2⟩

theorem discard (h : Parallel R act act') :
    Parallel R (Functor.discard act) (Functor.discard act') :=
  h.bind fun _ => .pure _

theorem ignoringFailure {act : Act σ Unit} {act' : Act τ Unit} (h : Parallel R act act') :
    Parallel R act.ignoringFailure act'.ignoringFailure :=
  h.attempt.discard

theorem followedBy {last : Act σ Unit} {last' : Act τ Unit} (h : Parallel R act act')
    (h' : Parallel R last last') : Parallel R (act.followedBy last) (act'.followedBy last') := by
  intro s t hR
  obtain ⟨answer, related⟩ := h s t hR
  rcases run : act.outcome s with ⟨result, s'⟩
  rcases run' : act'.outcome t with ⟨result', t'⟩
  rw [run, run'] at answer related
  cases answer
  obtain ⟨failure, s'', t'', ends, ends', related'⟩ | ⟨_, s'', t'', ends, ends', related'⟩ :=
    h'.cases related <;> simp only [Act.followedBy, outcome_ofOutcome, run, run', ends, ends'] <;>
    exact ⟨trivial, related'⟩

theorem forM {items : List β} {act : β → Act σ Unit} {act' : β → Act τ Unit}
    (h : ∀ item ∈ items, Parallel R (act item) (act' item)) :
    Parallel R (items.forM act) (items.forM act') := by
  induction items with
  | nil => exact pure ()
  | cons item rest ih =>
    obtain ⟨first, others⟩ := List.forall_mem_cons.mp h
    exact first.bind fun _ => ih others

end Parallel

end Act

namespace Dialogue

variable {α : Type}

theorem answered_nothing (d : Dialogue α) : d.answered (fun _ => none) = d := by
  induction d with
  | done a => rfl
  | failed failure => rfl
  | call c next ih => exact congrArg (call c) (funext ih)

/-- What is left of a dialogue goes alike with collaborators that do so for the calls that are left,
and saves the same records. -/
theorem run_parallel {σ τ : Type} {R : σ → τ → Prop} {ports : JobPorts σ} {ports' : JobPorts τ}
    {answer : (c : Call) → Option (Except Failure c.Reply)}
    (perform : ∀ c, answer c = none → Act.Parallel R (ports.perform c) (ports'.perform c))
    (d : Dialogue α) {s : σ} {t : τ} (h : R s t) :
    (((d.answered answer).run ports').outcome t).1 = (((d.answered answer).run ports).outcome s).1 ∧
      R (((d.answered answer).run ports).outcome s).2
        (((d.answered answer).run ports').outcome t).2 ∧
      (d.answered answer).saved ports' t = (d.answered answer).saved ports s := by
  induction d generalizing s t with
  | done a => exact ⟨rfl, h, rfl⟩
  | failed failure => exact ⟨rfl, h, rfl⟩
  | call c next ih =>
    rw [answered]
    rcases left : answer c with _ | failure | reply
    · obtain ⟨failure, s', t', run, run', related⟩ | ⟨reply, s', t', run, run', related⟩ :=
        (perform c left).cases h
      · rw [outcome_run_call_error run, outcome_run_call_error run', saved_call_error run,
          saved_call_error run']
        exact ⟨rfl, related, rfl⟩
      · rw [outcome_run_call_ok run, outcome_run_call_ok run', saved_call_ok run,
          saved_call_ok run']
        obtain ⟨result, related', saved⟩ := ih reply related
        exact ⟨result, related', congrArg _ saved⟩
    · exact ⟨rfl, h, rfl⟩
    · exact ih reply h

end Dialogue

end Handover
