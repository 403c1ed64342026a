import Mathlib.Data.List.Forall2
import Handover.Proofs.Line

namespace Handover

variable {α β γ : Type} {allowed : Failure → Prop} {bad worse : Prop} {x : Except Failure α}
variable {f : α → Except Failure β} {rows : List α} {results : List β}

/-- What results from a list belongs to its items, one by one. -/
theorem forall₂_of_mapM {R : α → β → Prop} (h : rows.mapM f = .ok results)
    (each : ∀ row ∈ rows, ∀ result, f row = .ok result → R row result) :
    List.Forall₂ R rows results := by
  induction rows generalizing results with
  | nil =>
    cases h
    exact .nil
  | cons row rest ih =>
    rw [List.mapM_cons] at h
    obtain ⟨result, first, h⟩ := ok_of_bind h
    obtain ⟨others, run, h⟩ := ok_of_bind h
    cases h
    exact .cons (each row List.mem_cons_self result first)
      (ih run fun r hr => each r (List.mem_cons_of_mem _ hr))

theorem length_of_mapM (h : rows.mapM f = .ok results) : results.length = rows.length :=
  (forall₂_of_mapM (R := fun _ _ => True) h fun _ _ _ _ => trivial).length_eq.symm

theorem map_mapM (g : β → γ) (f : α → Except Failure β) (rows : List α) :
    (List.map g) <$> rows.mapM f = rows.mapM fun row => g <$> f row := by
  induction rows with
  | nil => rfl
  | cons row rest ih =>
    rw [List.mapM_cons, List.mapM_cons, ← ih]
    cases f row with
    | error failure => rfl
    | ok result => cases rest.mapM f <;> rfl

/-- Where two ways lead to results that go on alike, so do the results of whole lists. -/
theorem exists_mapM_alike {f g : α → Except Failure β} {h : β → Except Failure γ}
    (each : ∀ row ∈ rows, ∀ result, f row = .ok result →
      ∃ other, g row = .ok other ∧ h result = h other)
    (run : rows.mapM f = .ok results) :
    ∃ others, rows.mapM g = .ok others ∧ results.mapM h = others.mapM h := by
  induction rows generalizing results with
  | nil =>
    cases run
    exact ⟨[], rfl, rfl⟩
  | cons row rest ih =>
    rw [List.mapM_cons] at run
    obtain ⟨result, first, run⟩ := ok_of_bind run
    obtain ⟨results, later, run⟩ := ok_of_bind run
    cases run
    obtain ⟨other, first', alike⟩ := each row List.mem_cons_self result first
    obtain ⟨others, later', rest'⟩ := ih (fun r hr => each r (List.mem_cons_of_mem _ hr)) later
    refine ⟨other :: others, ?_, ?_⟩
    · rw [List.mapM_cons, first', later']
      rfl
    · rw [List.mapM_cons, List.mapM_cons, alike, rest']

theorem mapM_eq_self {f : α → Except Failure α} (same : ∀ row ∈ rows, f row = .ok row) :
    rows.mapM f = .ok rows := by
  induction rows with
  | nil => rfl
  | cons row rest ih =>
    rw [List.mapM_cons, same row List.mem_cons_self, ih fun r hr => same r (List.mem_cons_of_mem _ hr)]
    rfl

theorem mapM_congr {g : α → Except Failure β} (same : ∀ row ∈ rows, f row = g row) :
    rows.mapM f = rows.mapM g := by
  induction rows with
  | nil => rfl
  | cons row rest ih =>
    rw [List.mapM_cons, List.mapM_cons, same row List.mem_cons_self,
      ih fun r hr => same r (List.mem_cons_of_mem _ hr)]

/-- The order of the rows makes no difference to what results from them but for its order. -/
theorem mapM_perm {others : List α} (perm : rows.Perm others) (run : rows.mapM f = .ok results) :
    ∃ results', others.mapM f = .ok results' ∧ results.Perm results' := by
  induction perm generalizing results with
  | nil => exact ⟨results, run, .refl _⟩
  | cons row _ ih =>
    rw [List.mapM_cons] at run
    obtain ⟨first, here, run⟩ := ok_of_bind run
    obtain ⟨rest, there, run⟩ := ok_of_bind run
    cases run
    obtain ⟨rest', there', perm⟩ := ih there
    refine ⟨first :: rest', ?_, perm.cons first⟩
    rw [List.mapM_cons, here, there']
    rfl
  | swap row other rest =>
    rw [List.mapM_cons, List.mapM_cons] at run
    obtain ⟨first, here, run⟩ := ok_of_bind run
    obtain ⟨_, inner, run⟩ := ok_of_bind run
    obtain ⟨second, next, inner⟩ := ok_of_bind inner
    obtain ⟨others, there, inner⟩ := ok_of_bind inner
    cases inner
    cases run
    refine ⟨second :: first :: others, ?_, .swap _ _ _⟩
    rw [List.mapM_cons, List.mapM_cons, here, next, there]
    rfl
  | trans _ _ ih ih' =>
    obtain ⟨between, run', perm⟩ := ih run
    obtain ⟨results', run'', perm'⟩ := ih' run'
    exact ⟨results', run'', perm.trans perm'⟩

theorem exists_iff_of_forall₂ {R : α → β → Prop} {P : α → Prop} {Q : β → Prop}
    (h : List.Forall₂ R rows results) (same : ∀ a b, R a b → (P a ↔ Q b)) :
    (∃ a ∈ rows, P a) ↔ ∃ b ∈ results, Q b := by
  induction h with
  | nil => simp
  | cons first _ ih => simp [same _ _ first, ih]

theorem forall_of_forall₂ {R : α → β → Prop} {Q : β → Prop} (h : List.Forall₂ R rows results)
    (each : ∀ a b, R a b → Q b) : ∀ b ∈ results, Q b := by
  induction h with
  | nil => simp
  | cons first _ ih => exact List.forall_mem_cons.mpr ⟨each _ _ first, ih⟩

/-- Whether something fails. -/
def Fails (x : Except Failure α) : Prop :=
  ∃ failure, x = .error failure

/-- Whether something fails in an allowed way under a condition, and succeeds otherwise. -/
structure FailsIff (allowed : Failure → Prop) (bad : Prop) (x : Except Failure α) : Prop where
  fails : bad → ∃ failure, x = .error failure ∧ allowed failure
  succeeds : ¬bad → ∃ a, x = .ok a

namespace FailsIff

theorem ok (a : α) (good : ¬bad) : FailsIff allowed bad (.ok a) :=
  ⟨fun h => absurd h good, fun _ => ⟨a, rfl⟩⟩

theorem error {failure : Failure} (h : bad) (fits : allowed failure) :
    FailsIff allowed bad (.error failure : Except Failure α) :=
  ⟨fun _ => ⟨failure, rfl, fits⟩, fun good => absurd h good⟩

theorem congr (h : FailsIff allowed bad x) (same : bad ↔ worse) : FailsIff allowed worse x :=
  ⟨fun holds => h.fails (same.mpr holds), fun good => h.succeeds fun holds => good (same.mp holds)⟩

theorem weaken {Q : Failure → Prop} (h : FailsIff allowed bad x)
    (sub : ∀ failure, allowed failure → Q failure) : FailsIff Q bad x where
  fails holds := by
    obtain ⟨failure, run, fits⟩ := h.fails holds
    exact ⟨failure, run, sub failure fits⟩
  succeeds := h.succeeds

theorem allowed_of_error (h : FailsIff allowed bad x) {failure : Failure}
    (failed : x = .error failure) : allowed failure := by
  by_cases holds : bad
  · obtain ⟨other, run, fits⟩ := h.fails holds
    cases failed.symm.trans run
    exact fits
  · obtain ⟨a, run⟩ := h.succeeds holds
    cases failed.symm.trans run

theorem fails_iff (h : FailsIff allowed bad x) : Fails x ↔ bad := by
  constructor
  · rintro ⟨failure, failed⟩
    by_contra good
    obtain ⟨a, run⟩ := h.succeeds good
    cases failed.symm.trans run
  · intro holds
    obtain ⟨failure, run, _⟩ := h.fails holds
    exact ⟨failure, run⟩

theorem self (h : FailsIff allowed bad x) : FailsIff allowed (Fails x) x :=
  h.congr h.fails_iff.symm

theorem map (h : FailsIff allowed bad x) (g : α → β) : FailsIff allowed bad (g <$> x) where
  fails holds := by
    obtain ⟨failure, rfl, fits⟩ := h.fails holds
    exact ⟨failure, rfl, fits⟩
  succeeds good := by
    obtain ⟨a, rfl⟩ := h.succeeds good
    exact ⟨g a, rfl⟩

theorem bind (h : FailsIff allowed bad x) (next : ∀ a, x = .ok a → FailsIff allowed worse (f a)) :
    FailsIff allowed (bad ∨ worse) (x >>= f) := by
  by_cases holds : bad
  · obtain ⟨failure, rfl, fits⟩ := h.fails holds
    exact .error (Or.inl holds) fits
  · obtain ⟨a, rfl⟩ := h.succeeds holds
    exact (next a rfl).congr (or_iff_right holds).symm

theorem mapM {P : γ → Prop} {causes : List γ}
    (h : List.Forall₂ (fun cause row => FailsIff allowed (P cause) (f row)) causes rows) :
    FailsIff allowed (∃ cause ∈ causes, P cause) (rows.mapM f) := by
  induction h with
  | nil => exact .ok [] (by simp)
  | cons first _ ih =>
    rw [List.mapM_cons]
    exact (first.bind fun a _ => ih.map (a :: ·)).congr (by simp)

end FailsIff

end Handover
