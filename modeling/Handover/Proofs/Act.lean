import Handover.Act

namespace Handover.Act

variable {σ τ α β : Type}

@[simp] theorem outcome_pure (a : α) (s : σ) : (pure a : Act σ α).outcome s = (.ok a, s) := rfl

@[simp] theorem outcome_get (s : σ) : (get : Act σ σ).outcome s = (.ok s, s) := rfl

@[simp] theorem outcome_set (s' s : σ) : (set s' : Act σ PUnit).outcome s = (.ok ⟨⟩, s') := rfl

@[simp] theorem outcome_modify (f : σ → σ) (s : σ) :
    (modify f : Act σ PUnit).outcome s = (.ok ⟨⟩, f s) := rfl

@[simp] theorem outcome_settle (result : Except Failure α) (s : σ) :
    (settle result : Act σ α).outcome s = (result, s) := rfl

@[simp] theorem outcome_ofOutcome (f : σ → Except Failure α × σ) (s : σ) :
    (ofOutcome f).outcome s = f s := rfl

/-- A failure of the first of two actions is that of both. -/
theorem outcome_bind (act : Act σ α) (next : α → Act σ β) (s : σ) :
    (act >>= next).outcome s =
      match act.outcome s with
      | (.ok a, s') => (next a).outcome s'
      | (.error failure, s') => (.error failure, s') := by
  show (ExceptT.bindCont next (act s).1) (act s).2 = _
  change _ = match act s with
    | (.ok a, s') => (next a).outcome s'
    | (.error failure, s') => (.error failure, s')
  rcases act s with ⟨result, s'⟩
  cases result <;> rfl

theorem outcome_bind_ok {act : Act σ α} {next : α → Act σ β} {s s' : σ} {a : α}
    (h : act.outcome s = (.ok a, s')) : (act >>= next).outcome s = (next a).outcome s' := by
  rw [outcome_bind, h]

theorem outcome_bind_error {act : Act σ α} {next : α → Act σ β} {s s' : σ} {failure : Failure}
    (h : act.outcome s = (.error failure, s')) :
    (act >>= next).outcome s = (.error failure, s') := by
  rw [outcome_bind, h]

theorem outcome_settle_then (result : Except Failure α) (b : β) (s : σ) :
    (settle result >>= fun _ => pure b : Act σ β).outcome s = (result.map fun _ => b, s) := by
  cases result <;> rfl

theorem outcome_attempt (act : Act σ α) (s : σ) :
    act.attempt.outcome s = (.ok (act.outcome s).1, (act.outcome s).2) := rfl

theorem outcome_discard (act : Act σ α) (s : σ) :
    (discard act).outcome s = ((act.outcome s).1.map fun _ => PUnit.unit, (act.outcome s).2) := by
  show (act >>= fun _ => pure PUnit.unit).outcome s = _
  rw [outcome_bind]
  rcases act.outcome s with ⟨result, s'⟩
  cases result <;> rfl

theorem outcome_ignoringFailure (act : Act σ Unit) (s : σ) :
    act.ignoringFailure.outcome s = (.ok (), (act.outcome s).2) := by
  rw [ignoringFailure, outcome_discard, outcome_attempt]
  rfl

theorem outcome_onPart (read : τ → σ) (write : τ → σ → τ) (act : Act σ α) (t : τ) :
    (act.onPart read write).outcome t =
      ((act.outcome (read t)).1, write t (act.outcome (read t)).2) := rfl

theorem outcome_followedBy {act : Act σ α} {last : Act σ Unit} {s s' : σ}
    (h : last.outcome (act.outcome s).2 = (.ok (), s')) :
    (act.followedBy last).outcome s = ((act.outcome s).1, s') := by
  rcases run : act.outcome s with ⟨result, s''⟩
  rw [run] at h
  simp only [followedBy, outcome_ofOutcome, run, h]

theorem outcome_followedBy_state (act : Act σ α) (last : Act σ Unit) (s : σ) :
    ((act.followedBy last).outcome s).2 = (last.outcome (act.outcome s).2).2 := by
  rcases run : act.outcome s with ⟨result, s'⟩
  rcases ending : last.outcome s' with ⟨failure | _, s''⟩ <;>
    simp only [followedBy, outcome_ofOutcome, run, ending]

theorem outcome_map (f : α → β) (act : Act σ α) (s : σ) :
    (f <$> act).outcome s = ((act.outcome s).1.map f, (act.outcome s).2) := by
  show (act >>= fun a => pure (f a)).outcome s = _
  rw [outcome_bind]
  rcases act.outcome s with ⟨result, s'⟩
  cases result <;> rfl

/-- Whether an action keeps up a property of the state, whatever its outcome. -/
def Preserves (P : σ → Prop) (act : Act σ α) : Prop :=
  ∀ s, P s → P (act.outcome s).2

namespace Preserves

variable {P : σ → Prop} {act : Act σ α}

theorem pure (a : α) : Preserves P (Pure.pure a : Act σ α) :=
  fun _ h => h

theorem throw (failure : Failure) : Preserves P (MonadExcept.throw failure : Act σ α) :=
  fun _ h => h

theorem settle (result : Except Failure α) : Preserves P (Act.settle result : Act σ α) :=
  fun _ h => h

theorem bind {next : α → Act σ β} (h : Preserves P act) (h' : ∀ a, Preserves P (next a)) :
    Preserves P (act >>= next) := by
  intro s hs
  have first := h s hs
  rcases run : act.outcome s with ⟨failure | a, s'⟩
  · rw [outcome_bind_error run]
    rwa [run] at first
  · rw [outcome_bind_ok run]
    rw [run] at first
    exact h' a s' first

theorem map {f : α → β} (h : Preserves P act) : Preserves P (f <$> act) := by
  intro s hs
  rw [outcome_map]
  exact h s hs

theorem get_bind {next : σ → Act σ α} (h : ∀ s, P s → P ((next s).outcome s).2) :
    Preserves P (get >>= next) :=
  fun s hs => h s hs

theorem attempt (h : Preserves P act) : Preserves P act.attempt :=
  fun s hs => h s hs

theorem discard (h : Preserves P act) : Preserves P (Functor.discard act) := by
  intro s hs
  rw [outcome_discard]
  exact h s hs

theorem ignoringFailure {act : Act σ Unit} (h : Preserves P act) :
    Preserves P act.ignoringFailure :=
  h.attempt.discard

theorem followedBy {last : Act σ Unit} (h : Preserves P act) (h' : Preserves P last) :
    Preserves P (act.followedBy last) := by
  intro s hs
  rw [outcome_followedBy_state]
  exact h' _ (h s hs)

theorem forM {items : List β} {act : β → Act σ Unit} (h : ∀ item, Preserves P (act item)) :
    Preserves P (items.forM act) := by
  induction items with
  | nil => exact pure ()
  | cons item rest ih => exact (h item).bind fun _ => ih

end Preserves

end Handover.Act
