import Handover.Partition
import Handover.Proofs.Dialogue

namespace Handover.Dialogue

variable {α β : Type} {σ : Type}

/-- A dialogue in which the calls that have an answer are answered. -/
def answered (answer : (c : Call) → Option (Except Failure c.Reply)) : Dialogue α → Dialogue α
  | done a => done a
  | failed failure => failed failure
  | call c next =>
    match answer c with
    | some (.ok reply) => (next reply).answered answer
    | some (.error failure) => failed failure
    | none => call c fun reply => (next reply).answered answer

variable {answer : (c : Call) → Option (Except Failure c.Reply)}

@[simp] theorem answered_pure (a : α) : (pure a : Dialogue α).answered answer = pure a := rfl

@[simp] theorem answered_fail (failure : Failure) :
    (Fallible.fail failure : Dialogue α).answered answer = Fallible.fail failure := rfl

theorem answered_perform_ok {c : Call} {reply : c.Reply} (h : answer c = some (.ok reply)) :
    (perform c).answered answer = pure reply := by
  rw [perform, answered, h]
  rfl

theorem answered_perform_none {c : Call} (h : answer c = none) :
    (perform c).answered answer = perform c := by
  rw [perform, answered, h]
  rfl

@[simp] theorem answered_bind (d : Dialogue α) (f : α → Dialogue β) :
    (d >>= f).answered answer = d.answered answer >>= fun a => (f a).answered answer := by
  induction d with
  | done a => rfl
  | failed failure => rfl
  | call c next ih =>
    rw [call_bind, answered, answered]
    rcases answer c with _ | failure | reply
    · simp [ih]
    · rfl
    · exact ih reply

theorem answered_ite {p : Prop} [Decidable p] (d d' : Dialogue α) :
    (if p then d else d').answered answer =
      if p then d.answered answer else d'.answered answer := by
  split <;> rfl

@[simp] theorem answered_discard (d : Dialogue α) :
    (discard d).answered answer = discard (d.answered answer) :=
  answered_bind d fun _ => pure PUnit.unit

@[simp] theorem answered_forM (rows : List β) (f : β → Dialogue Unit) :
    (rows.forM f).answered answer = rows.forM fun row => (f row).answered answer := by
  induction rows with
  | nil => rfl
  | cons row rest ih =>
    show (f row >>= fun _ => rest.forM f).answered answer = _
    rw [answered_bind, ih]
    rfl

theorem answered_visitRows (visit : β → Dialogue Bool) (rows : List β) :
    (Pager.visitRows visit rows).answered answer =
      Pager.visitRows (fun row => (visit row).answered answer) rows := by
  induction rows with
  | nil => rfl
  | cons row rest ih => simp only [Pager.visitRows, answered_bind, answered_ite, ih, answered_pure]

theorem answered_visitFrom (fetch : PageLink → Dialogue (Page β)) (visit : β → Dialogue Bool)
    (bound : Nat) (link : PageLink) :
    (Pager.visitFrom fetch visit bound link).answered answer =
      Pager.visitFrom (fun l => (fetch l).answered answer) (fun row => (visit row).answered answer)
        bound link := by
  induction bound generalizing link with
  | zero => rfl
  | succ bound ih =>
    simp only [Pager.visitFrom, answered_bind, answered_ite, answered_visitRows, ih, answered_pure]

theorem answered_visitPages (bound : Nat) (size : Int) (fetch : PageLink → Dialogue (Page β))
    (visit : β → Dialogue Bool) :
    (Pager.visitPages bound size fetch visit).answered answer =
      Pager.visitPages bound size (fun l => (fetch l).answered answer)
        fun row => (visit row).answered answer := by
  rw [Pager.visitPages, answered_ite, answered_visitFrom, answered_fail, Pager.visitPages]

theorem answered_forEach (bound : Nat) (size : Int) (fetch : PageLink → Dialogue (Page β))
    (visit : β → Dialogue Unit) :
    (Pager.forEach bound size fetch visit).answered answer =
      Pager.forEach bound size (fun l => (fetch l).answered answer)
        fun row => (visit row).answered answer := by
  simp only [Pager.forEach, answered_discard, answered_visitPages, answered_bind, answered_pure]

theorem answered_visitWindows (bound : Nat) (size : Int) (fetch : TimePageLink → Dialogue (Page β))
    (visit : β → Dialogue Bool) (windows : List Window) :
    (Partition.visitWindows bound size fetch visit windows).answered answer =
      Partition.visitWindows bound size (fun l => (fetch l).answered answer)
        (fun row => (visit row).answered answer) windows := by
  induction windows with
  | nil => rfl
  | cons w rest ih =>
    simp only [Partition.visitWindows, answered_bind, answered_ite, answered_visitPages, ih,
      answered_pure]

theorem answered_partition (bound : Nat) (size : Int) (starts : Dialogue (List Int))
    (now : Dialogue Int) (fetch : TimePageLink → Dialogue (Page β)) (visit : β → Dialogue Unit) :
    (Partition.forEach bound size starts now fetch visit).answered answer =
      Partition.forEach bound size (starts.answered answer) (now.answered answer)
        (fun l => (fetch l).answered answer) fun row => (visit row).answered answer := by
  simp only [Partition.forEach, Partition.windows, answered_discard, answered_visitWindows,
    answered_bind, answered_ite, answered_pure]

/-- Collaborators that give the answers beforehand make no difference. -/
theorem run_answered {ports : JobPorts σ} {I : σ → Prop}
    (given : ∀ s c result, I s → answer c = some result →
      (ports.perform c).outcome s = (result, s) ∧ c.record? = none)
    (others : ∀ s c, I s → answer c = none → I ((ports.perform c).outcome s).2)
    (d : Dialogue α) {s : σ} (h : I s) :
    ((d.answered answer).run ports).outcome s = (d.run ports).outcome s ∧
      (d.answered answer).saved ports s = d.saved ports s := by
  induction d generalizing s with
  | done a => exact ⟨rfl, rfl⟩
  | failed failure => exact ⟨rfl, rfl⟩
  | call c next ih =>
    rw [answered]
    cases hc : answer c with
    | some result =>
      obtain ⟨hperform, hnone⟩ := given s c result h hc
      cases result with
      | error failure =>
        rw [outcome_run_call_error hperform, saved_call_error hperform]
        exact ⟨rfl, rfl⟩
      | ok reply =>
        rw [outcome_run_call_ok hperform, saved_call_ok hperform, hnone]
        exact ih reply h
    | none =>
      have hI := others s c h hc
      rcases hp : (ports.perform c).outcome s with ⟨failure | reply, s'⟩
      · rw [outcome_run_call_error hp, outcome_run_call_error hp, saved_call_error hp,
          saved_call_error hp]
        exact ⟨rfl, rfl⟩
      · rw [hp] at hI
        obtain ⟨hrun, hsaved⟩ := ih reply hI
        rw [outcome_run_call_ok hp, outcome_run_call_ok hp, saved_call_ok hp, saved_call_ok hp,
          hrun, hsaved]
        exact ⟨rfl, rfl⟩

/-- The dialogue in which rows are kept, each under a type, and nothing else is wanted. -/
def keepAll (rows : List (RecordType × Value)) : Dialogue Unit :=
  rows.forM fun row => keep row.1 row.2

theorem keepAll_append (rows others : List (RecordType × Value)) :
    keepAll (rows ++ others) = (do keepAll rows; keepAll others) :=
  List.forM_append

theorem keepAll_flatMap (rows : List β) (f : β → List (RecordType × Value)) :
    keepAll (rows.flatMap f) = rows.forM fun row => keepAll (f row) := by
  induction rows with
  | nil => rfl
  | cons row rest ih =>
    rw [List.flatMap_cons, keepAll_append, ih]
    rfl

theorem run_keepAll {ports : JobPorts σ} {I : σ → Prop} {rows : List (RecordType × Value)}
    (accepts : ∀ row ∈ rows, ∀ s, I s →
      ∃ s', (ports.keep row.1 row.2).outcome s = (.ok (), s') ∧ I s')
    {s : σ} (h : I s) :
    (keepAll rows).saved ports s = rows ∧
      ∃ s', ((keepAll rows).run ports).outcome s = (.ok (), s') ∧ I s' := by
  induction rows generalizing s with
  | nil => exact ⟨rfl, s, rfl, h⟩
  | cons row rest ih =>
    obtain ⟨s', hkeep, hI⟩ := accepts row (by simp) s h
    obtain ⟨hsaved, s'', hrun, hI'⟩ := ih (fun r hr => accepts r (by simp [hr])) hI
    have step : keepAll (row :: rest) = call (.keep row.1 row.2) fun _ => keepAll rest := rfl
    rw [step, saved_call_ok (c := .keep row.1 row.2) hkeep,
      outcome_run_call_ok (c := .keep row.1 row.2) hkeep, hsaved]
    exact ⟨rfl, s'', hrun, hI'⟩

end Handover.Dialogue
