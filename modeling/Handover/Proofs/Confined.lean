import Handover.Partition
import Handover.Proofs.Dialogue

namespace Handover.Dialogue

variable {σ α β : Type} {wanted : Call → Prop} {possible : (c : Call) → c.Reply → Prop}

/-- Whether a dialogue makes no other calls than those that are wanted, whatever possible answers
it is given. -/
def Confined (wanted : Call → Prop) (possible : (c : Call) → c.Reply → Prop) : Dialogue α → Prop
  | done _ => True
  | failed _ => True
  | call c next => wanted c ∧ ∀ reply, possible c reply → (next reply).Confined wanted possible

namespace Confined

theorem pure (a : α) : (Pure.pure a : Dialogue α).Confined wanted possible :=
  trivial

theorem fail (failure : Failure) :
    (Fallible.fail failure : Dialogue α).Confined wanted possible :=
  trivial

theorem bind {d : Dialogue α} {f : α → Dialogue β} (h : d.Confined wanted possible)
    (h' : ∀ a, (f a).Confined wanted possible) : (d >>= f).Confined wanted possible := by
  induction d with
  | done a => exact h' a
  | failed failure => trivial
  | call c next ih => exact ⟨h.1, fun reply given => ih reply (h.2 reply given)⟩

theorem perform {c : Call} (h : wanted c) : (perform c).Confined wanted possible :=
  ⟨h, fun _ _ => trivial⟩

/-- What follows a call needs to be confined for its possible answers alone. -/
theorem perform_bind {c : Call} {f : c.Reply → Dialogue α} (h : wanted c)
    (h' : ∀ reply, possible c reply → (f reply).Confined wanted possible) :
    (Dialogue.perform c >>= f).Confined wanted possible :=
  ⟨h, h'⟩

theorem ite {p : Prop} [Decidable p] {d d' : Dialogue α} (h : p → d.Confined wanted possible)
    (h' : ¬p → d'.Confined wanted possible) :
    (if p then d else d').Confined wanted possible := by
  split
  next hp => exact h hp
  next hp => exact h' hp

theorem discard {d : Dialogue α} (h : d.Confined wanted possible) :
    (Functor.discard d).Confined wanted possible :=
  h.bind fun _ => pure _

theorem forM {items : List β} {f : β → Dialogue Unit}
    (h : ∀ item ∈ items, (f item).Confined wanted possible) :
    (items.forM f).Confined wanted possible := by
  induction items with
  | nil => exact pure ()
  | cons item rest ih =>
    obtain ⟨first, others⟩ := List.forall_mem_cons.mp h
    exact first.bind fun _ => ih others

section Pages

variable {fetch : PageLink → Dialogue (Page β)} {visit : β → Dialogue Bool}

theorem visitRows (visits : ∀ row, (visit row).Confined wanted possible) (rows : List β) :
    (Pager.visitRows visit rows).Confined wanted possible := by
  induction rows with
  | nil => exact pure true
  | cons row rest ih => exact (visits row).bind fun _ => .ite (fun _ => ih) fun _ => pure false

theorem visitFrom (fetches : ∀ link, (fetch link).Confined wanted possible)
    (visits : ∀ row, (visit row).Confined wanted possible) (bound : Nat) (link : PageLink) :
    (Pager.visitFrom fetch visit bound link).Confined wanted possible := by
  induction bound generalizing link with
  | zero => exact fail _
  | succ bound ih =>
    exact (fetches link).bind fun page => (visitRows visits page.rows).bind fun _ =>
      .ite (fun _ => .ite (fun _ => ih link.next) fun _ => pure true) fun _ => pure false

theorem visitPages (fetches : ∀ link, (fetch link).Confined wanted possible)
    (visits : ∀ row, (visit row).Confined wanted possible) (bound : Nat) (size : Int) :
    (Pager.visitPages bound size fetch visit).Confined wanted possible :=
  .ite (fun _ => fail _) fun _ => visitFrom fetches visits bound _

theorem forEach {visit : β → Dialogue Unit}
    (fetches : ∀ link, (fetch link).Confined wanted possible)
    (visits : ∀ row, (visit row).Confined wanted possible) (bound : Nat) (size : Int) :
    (Pager.forEach bound size fetch visit).Confined wanted possible :=
  (visitPages fetches (fun row => (visits row).bind fun _ => pure true) bound size).discard

end Pages

section Windows

variable {fetch : TimePageLink → Dialogue (Page β)}

theorem visitWindows {visit : β → Dialogue Bool}
    (fetches : ∀ link, (fetch link).Confined wanted possible)
    (visits : ∀ row, (visit row).Confined wanted possible) (bound : Nat) (size : Int)
    (windows : List Window) :
    (Partition.visitWindows bound size fetch visit windows).Confined wanted possible := by
  induction windows with
  | nil => exact pure true
  | cons window rest ih =>
    exact (visitPages (fun _ => fetches _) visits bound size).bind fun _ =>
      .ite (fun _ => ih) fun _ => pure false

theorem windows {starts : Dialogue (List Int)} {now : Dialogue Int}
    (h : starts.Confined wanted possible) (h' : now.Confined wanted possible) :
    (Partition.windows starts now).Confined wanted possible :=
  h.bind fun _ => .ite (fun _ => pure []) fun _ => h'.bind fun _ => pure _

theorem partition {starts : Dialogue (List Int)} {now : Dialogue Int} {visit : β → Dialogue Unit}
    (starting : starts.Confined wanted possible) (timing : now.Confined wanted possible)
    (fetches : ∀ link, (fetch link).Confined wanted possible)
    (visits : ∀ row, (visit row).Confined wanted possible) (bound : Nat) (size : Int) :
    (Partition.forEach bound size starts now fetch visit).Confined wanted possible :=
  (windows starting timing).bind fun found =>
    (visitWindows fetches (fun row => (visits row).bind fun _ => pure true) bound size
      found).discard

end Windows

variable {ports ports' : JobPorts σ} {d : Dialogue α}

/-- All calls of a run are wanted ones. -/
theorem exchanges (h : d.Confined wanted possible)
    (answers : ∀ c s reply s', (ports.perform c).outcome s = (.ok reply, s') → possible c reply)
    (s : σ) : ∀ x ∈ d.exchanges ports s, wanted x.1 := by
  induction d generalizing s with
  | done a => simp [Dialogue.exchanges]
  | failed failure => simp [Dialogue.exchanges]
  | call c next ih =>
    rcases hc : (ports.perform c).outcome s with ⟨failure | reply, s'⟩
    · rw [exchanges_call_error hc]
      simpa using h.1
    · rw [exchanges_call_ok hc]
      exact List.forall_mem_cons.mpr ⟨h.1, ih reply (h.2 reply (answers c s reply s' hc)) s'⟩

/-- Collaborators that do the same at every wanted call make for the same run. -/
theorem run_eq (h : d.Confined wanted possible)
    (answers : ∀ c s reply s', (ports.perform c).outcome s = (.ok reply, s') → possible c reply)
    (same : ∀ c, wanted c → ports'.perform c = ports.perform c) (s : σ) :
    (d.run ports').outcome s = (d.run ports).outcome s ∧
      d.exchanges ports' s = d.exchanges ports s := by
  induction d generalizing s with
  | done a => exact ⟨rfl, rfl⟩
  | failed failure => exact ⟨rfl, rfl⟩
  | call c next ih =>
    have alike := same c h.1
    rcases hc : (ports.perform c).outcome s with ⟨failure | reply, s'⟩
    · have hc' : (ports'.perform c).outcome s = (.error failure, s') := by rw [alike, hc]
      rw [outcome_run_call_error hc, outcome_run_call_error hc', exchanges_call_error hc,
        exchanges_call_error hc']
      exact ⟨rfl, rfl⟩
    · have hc' : (ports'.perform c).outcome s = (.ok reply, s') := by rw [alike, hc]
      obtain ⟨result, calls⟩ := ih reply (h.2 reply (answers c s reply s' hc)) s'
      rw [outcome_run_call_ok hc, outcome_run_call_ok hc', exchanges_call_ok hc,
        exchanges_call_ok hc', result, calls]
      exact ⟨rfl, rfl⟩

end Confined

end Handover.Dialogue
