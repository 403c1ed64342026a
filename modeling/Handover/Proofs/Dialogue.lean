import Handover.Dialogue
import Handover.Proofs.Act

namespace Handover

def Call.record? : Call → Option (RecordType × Value)
  | keep type record => some (type, record)
  | _ => none

def Call.kept (c : Call) : Except Failure c.Reply → List (RecordType × Value)
  | .ok _ => c.record?.toList
  | .error _ => []

abbrev Exchange := (c : Call) × Except Failure c.Reply

def Exchange.kept (x : Exchange) : List (RecordType × Value) :=
  x.1.kept x.2

/-- Whether, among the first calls of two runs, those that are the same are answered alike. -/
def Exchange.Alike (count : Nat) (xs ys : List Exchange) : Prop :=
  ∀ n, n < count → ∀ c a b, xs[n]? = some ⟨c, a⟩ → ys[n]? = some ⟨c, b⟩ → b = a

theorem Exchange.alike_append (before rest rest' : List Exchange) :
    Exchange.Alike before.length (before ++ rest) (before ++ rest') := by
  intro n hn c a b ha hb
  rw [List.getElem?_append_left hn] at ha hb
  cases ha.symm.trans hb
  rfl

namespace Dialogue

variable {σ α β : Type}

theorem map_id (d : Dialogue α) : id <$> d = d := by
  induction d with
  | done a => rfl
  | failed failure => rfl
  | call c next ih => exact congrArg (call c) (funext ih)

theorem andThen_assoc {γ : Type} (d : Dialogue α) (f : α → Dialogue β) (g : β → Dialogue γ) :
    d >>= f >>= g = d >>= fun a => f a >>= g := by
  induction d with
  | done a => rfl
  | failed failure => rfl
  | call c next ih => exact congrArg (call c) (funext ih)

instance : LawfulMonad Dialogue :=
  LawfulMonad.mk' _ map_id (fun _ _ => rfl) andThen_assoc

@[simp] theorem call_bind (c : Call) (next : c.Reply → Dialogue α) (f : α → Dialogue β) :
    call c next >>= f = call c fun reply => next reply >>= f := rfl

/-- The records that are kept when a dialogue runs, in order. -/
def saved (ports : JobPorts σ) : Dialogue α → σ → List (RecordType × Value)
  | done _, _ => []
  | failed _, _ => []
  | call c next, s =>
    match (ports.perform c).outcome s with
    | (.ok reply, s') => c.record?.toList ++ (next reply).saved ports s'
    | (.error _, _) => []

/-- The exchanges of a dialogue that runs, in order. -/
def exchanges (ports : JobPorts σ) : Dialogue α → σ → List Exchange
  | done _, _ => []
  | failed _, _ => []
  | call c next, s =>
    match (ports.perform c).outcome s with
    | (.ok reply, s') => ⟨c, .ok reply⟩ :: (next reply).exchanges ports s'
    | (.error failure, _) => [⟨c, .error failure⟩]

section Run

variable {τ : Type} {ports : JobPorts σ} {ports' : JobPorts τ} {s s' : σ} {t : τ} {c : Call}
variable {next : c.Reply → Dialogue α}

@[simp] theorem outcome_run_done (ports : JobPorts σ) (a : α) (s : σ) :
    ((done a).run ports).outcome s = (.ok a, s) := rfl

@[simp] theorem outcome_run_failed (ports : JobPorts σ) (failure : Failure) (s : σ) :
    ((failed failure : Dialogue α).run ports).outcome s = (.error failure, s) := rfl

theorem outcome_run_call_ok {reply : c.Reply}
    (h : (ports.perform c).outcome s = (.ok reply, s')) :
    ((call c next).run ports).outcome s = ((next reply).run ports).outcome s' :=
  Act.outcome_bind_ok h

theorem outcome_run_call_error {failure : Failure}
    (h : (ports.perform c).outcome s = (.error failure, s')) :
    ((call c next).run ports).outcome s = (.error failure, s') :=
  Act.outcome_bind_error h

theorem saved_call_ok {reply : c.Reply} (h : (ports.perform c).outcome s = (.ok reply, s')) :
    (call c next).saved ports s = c.record?.toList ++ (next reply).saved ports s' := by
  rw [saved, h]

theorem saved_call_error {failure : Failure}
    (h : (ports.perform c).outcome s = (.error failure, s')) :
    (call c next).saved ports s = [] := by
  rw [saved, h]

theorem exchanges_call_ok {reply : c.Reply} (h : (ports.perform c).outcome s = (.ok reply, s')) :
    (call c next).exchanges ports s = ⟨c, .ok reply⟩ :: (next reply).exchanges ports s' := by
  rw [exchanges, h]

theorem exchanges_call_error {failure : Failure}
    (h : (ports.perform c).outcome s = (.error failure, s')) :
    (call c next).exchanges ports s = [⟨c, .error failure⟩] := by
  rw [exchanges, h]

theorem saved_eq (d : Dialogue α) (s : σ) :
    d.saved ports s = (d.exchanges ports s).flatMap Exchange.kept := by
  induction d generalizing s with
  | done a => rfl
  | failed failure => rfl
  | call c next ih =>
    rcases hc : (ports.perform c).outcome s with ⟨failure | reply, s'⟩
    · rw [saved_call_error hc, exchanges_call_error hc]
      rfl
    · rw [saved_call_ok hc, exchanges_call_ok hc, List.flatMap_cons, ih]
      rfl

/-- What every call keeps up, with the records kept so far, a whole run keeps up. -/
theorem run_invariant {P : List (RecordType × Value) → σ → Prop}
    (step : ∀ kept s (c : Call) result s', P kept s →
      (ports.perform c).outcome s = (result, s') → P (kept ++ c.kept result) s')
    (d : Dialogue α) {kept : List (RecordType × Value)} (h : P kept s) :
    P (kept ++ d.saved ports s) ((d.run ports).outcome s).2 := by
  induction d generalizing kept s with
  | done a => simpa [saved] using h
  | failed failure => simpa [saved] using h
  | call c next ih =>
    rcases hc : (ports.perform c).outcome s with ⟨failure | reply, s'⟩
    · rw [saved_call_error hc, outcome_run_call_error hc]
      exact step kept s c _ s' h hc
    · rw [saved_call_ok hc, outcome_run_call_ok hc, ← List.append_assoc]
      exact ih reply (step kept s c _ s' h hc)

theorem run_preserves {P : σ → Prop} (perform : ∀ c, Act.Preserves P (ports.perform c))
    (d : Dialogue α) : Act.Preserves P (d.run ports) := by
  induction d with
  | done a => exact .pure a
  | failed failure => exact .throw failure
  | call c next ih => exact (perform c).bind ih

/-- A run with other collaborators that answer alike is the same. -/
theorem run_alike (d : Dialogue α)
    (alike : Exchange.Alike (d.exchanges ports s).length (d.exchanges ports s)
      (d.exchanges ports' t)) :
    d.exchanges ports' t = d.exchanges ports s ∧
      ((d.run ports').outcome t).1 = ((d.run ports).outcome s).1 := by
  induction d generalizing s t with
  | done a => exact ⟨rfl, rfl⟩
  | failed failure => exact ⟨rfl, rfl⟩
  | call c next ih =>
    rcases hs : (ports.perform c).outcome s with ⟨failure | reply, s'⟩ <;>
      rcases ht : (ports'.perform c).outcome t with ⟨failure' | reply', t'⟩
    · rw [exchanges_call_error hs, exchanges_call_error ht] at alike ⊢
      cases alike 0 (by simp) c _ _ rfl rfl
      exact ⟨rfl, by rw [outcome_run_call_error hs, outcome_run_call_error ht]⟩
    · rw [exchanges_call_error hs, exchanges_call_ok ht] at alike
      cases alike 0 (by simp) c _ _ rfl rfl
    · rw [exchanges_call_ok hs, exchanges_call_error ht] at alike
      cases alike 0 (by simp) c _ _ rfl rfl
    · rw [exchanges_call_ok hs, exchanges_call_ok ht] at alike ⊢
      cases alike 0 (by simp) c _ _ rfl rfl
      obtain ⟨same, result⟩ := ih reply fun n hn c a b ha hb =>
        alike (n + 1) (by simpa using hn) c a b (by simpa using ha) (by simpa using hb)
      rw [outcome_run_call_ok hs, outcome_run_call_ok ht, same, result]
      exact ⟨rfl, rfl⟩

/-- A run with other collaborators that answer alike up to a call, on which they fail, makes the
same calls up to that one and ends there. -/
theorem run_interrupted (d : Dialogue α) {before rest : List Exchange} {c : Call}
    {answer : Except Failure c.Reply} {failure : Failure}
    (reached : d.exchanges ports s = before ++ ⟨c, answer⟩ :: rest)
    (alike : Exchange.Alike before.length (d.exchanges ports s) (d.exchanges ports' t))
    (fails : ∀ b, (d.exchanges ports' t)[before.length]? = some ⟨c, b⟩ → b = .error failure) :
    d.exchanges ports' t = before ++ [⟨c, .error failure⟩] ∧
      ((d.run ports').outcome t).1 = .error failure := by
  induction d generalizing s t before with
  | done a => simp [exchanges] at reached
  | failed failure => simp [exchanges] at reached
  | call c₀ next ih =>
    cases before with
    | nil =>
      obtain rfl : c₀ = c := by
        rcases hs : (ports.perform c₀).outcome s with ⟨failure₁ | reply, s'⟩
        · rw [exchanges_call_error hs] at reached
          exact congrArg Sigma.fst (List.cons.inj reached).1
        · rw [exchanges_call_ok hs] at reached
          exact congrArg Sigma.fst (List.cons.inj reached).1
      rcases ht : (ports'.perform c₀).outcome t with ⟨failure' | reply', t'⟩
      · rw [exchanges_call_error ht] at fails ⊢
        cases fails _ rfl
        exact ⟨rfl, by rw [outcome_run_call_error ht]⟩
      · rw [exchanges_call_ok ht] at fails
        cases fails _ rfl
    | cons x before =>
      rcases hs : (ports.perform c₀).outcome s with ⟨failure₁ | reply, s'⟩
      · rw [exchanges_call_error hs] at reached
        simp at reached
      · rw [exchanges_call_ok hs] at reached alike
        obtain ⟨rfl, further⟩ := List.cons.inj reached
        rcases ht : (ports'.perform c₀).outcome t with ⟨failure' | reply', t'⟩
        · rw [exchanges_call_error ht] at alike
          cases alike 0 (by simp) c₀ _ _ rfl rfl
        · rw [exchanges_call_ok ht] at alike fails ⊢
          cases alike 0 (by simp) c₀ _ _ rfl rfl
          obtain ⟨same, result⟩ := ih reply further
            (fun n hn c a b ha hb =>
              alike (n + 1) (by simpa using hn) c a b (by simpa using ha) (by simpa using hb))
            (fun b hb => fails b (by simpa using hb))
          rw [outcome_run_call_ok ht, same, result]
          exact ⟨rfl, rfl⟩

end Run

end Dialogue

end Handover
