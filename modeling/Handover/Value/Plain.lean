import Handover.Value.Copy

namespace Handover.Value

variable {v w : Value} {vs ws : List Value} {entries copies : List (Value × Value)}

mutual

/-- The weight of a value, which a copy does not raise and which falls toward its parts. -/
def weight : Value → Nat
  | made v => weight v + 1
  | model content => weight content + 1
  | list items => weightOfItems items + 1
  | tuple items => weightOfItems items + 1
  | set items => weightOfItems items + 1
  | frozenSet items => weightOfItems items + 1
  | dict entries => weightOfEntries entries + 1
  | record _ fields => weightOfItems fields + 1
  | _ => 0

def weightOfItems : List Value → Nat
  | [] => 0
  | v :: rest => weight v + weightOfItems rest + 1

def weightOfEntries : List (Value × Value) → Nat
  | [] => 0
  | (k, v) :: rest => weight k + weight v + weightOfEntries rest + 1

end

theorem weightOfEntries_fieldEntries_le (shape : Shape) (fields : List Value) :
    weightOfEntries (fieldEntries shape fields) ≤ weightOfItems fields := by
  unfold fieldEntries
  induction shape.fieldNames generalizing fields with
  | nil => simp [weightOfEntries]
  | cons name names ih =>
    cases fields with
    | nil => simp [weightOfEntries]
    | cons v rest =>
      have := ih rest
      simp [weightOfEntries, weightOfItems, weight]
      omega

theorem weightOfItems_perm (h : vs.Perm ws) : weightOfItems vs = weightOfItems ws := by
  induction h with
  | nil => rfl
  | cons v _ ih => simp only [weightOfItems, ih]
  | swap v w rest =>
    simp only [weightOfItems]
    omega
  | trans _ _ ih ih' => exact ih.trans ih'

variable [Copier]

mutual

theorem weight_rebuilt_le {v w : Value} (h : rebuilt v = .ok w) : weight w ≤ weight v := by
  cases v with
  | foreign object =>
    rw [rebuilt] at h
    split at h <;> cases h
    exact Nat.le_refl _
  | model content =>
    obtain ⟨copy, run, rfl⟩ := ok_of_map h
    exact Nat.succ_le_succ (weight_rebuilt_le run)
  | list items | tuple items | record shape items =>
    obtain ⟨copies, run, rfl⟩ := ok_of_map h
    exact Nat.succ_le_succ (weightOfItems_rebuilt_le run)
  | set items | frozenSet items =>
    obtain ⟨copies, run, rfl⟩ := ok_of_map h
    refine Nat.succ_le_succ ?_
    rw [weightOfItems_perm (Copier.order_perm copies)]
    exact weightOfItems_rebuilt_le run
  | dict entries =>
    obtain ⟨copies, run, rfl⟩ := ok_of_map h
    exact Nat.succ_le_succ (weightOfEntries_rebuilt_le run)
  | _ =>
    cases h
    exact Nat.le_refl _

theorem weightOfItems_rebuilt_le {vs ws : List Value} (h : rebuiltItems vs = .ok ws) :
    weightOfItems ws ≤ weightOfItems vs := by
  cases vs with
  | nil =>
    cases h
    exact Nat.le_refl _
  | cons v rest =>
    obtain ⟨v', first, h⟩ := ok_of_bind h
    obtain ⟨rest', others, h⟩ := ok_of_bind h
    cases h
    have := weight_rebuilt_le first
    have := weightOfItems_rebuilt_le others
    simp only [weightOfItems]
    omega

theorem weightOfEntries_rebuilt_le {entries copies : List (Value × Value)}
    (h : rebuiltEntries entries = .ok copies) : weightOfEntries copies ≤ weightOfEntries entries := by
  cases entries with
  | nil =>
    cases h
    exact Nat.le_refl _
  | cons entry rest =>
    obtain ⟨k, v⟩ := entry
    obtain ⟨v', value, h⟩ := ok_of_bind h
    obtain ⟨k', key, h⟩ := ok_of_bind h
    obtain ⟨rest', others, h⟩ := ok_of_bind h
    cases h
    have := weight_rebuilt_le key
    have := weight_rebuilt_le value
    have := weightOfEntries_rebuilt_le others
    simp only [weightOfEntries]
    omega

end

mutual

theorem weight_copied_le {v w : Value} (h : copied v = .ok w) : weight w ≤ weight v := by
  cases v with
  | list items | tuple items =>
    obtain ⟨copies, run, rfl⟩ := ok_of_map h
    exact Nat.succ_le_succ (weightOfItems_copied_le run)
  | dict entries =>
    obtain ⟨copies, run, rfl⟩ := ok_of_map h
    exact Nat.succ_le_succ (weightOfEntries_copied_le run)
  | record shape fields =>
    obtain ⟨copies, run, rfl⟩ := ok_of_map h
    exact Nat.succ_le_succ
      (Nat.le_trans (weightOfEntries_fieldEntries_le shape copies) (weightOfItems_copied_le run))
  | _ => exact weight_rebuilt_le h

theorem weightOfItems_copied_le {vs ws : List Value} (h : copiedItems vs = .ok ws) :
    weightOfItems ws ≤ weightOfItems vs := by
  cases vs with
  | nil =>
    cases h
    exact Nat.le_refl _
  | cons v rest =>
    obtain ⟨v', first, h⟩ := ok_of_bind h
    obtain ⟨rest', others, h⟩ := ok_of_bind h
    cases h
    have := weight_copied_le first
    have := weightOfItems_copied_le others
    simp only [weightOfItems]
    omega

theorem weightOfEntries_copied_le {entries copies : List (Value × Value)}
    (h : copiedEntries entries = .ok copies) : weightOfEntries copies ≤ weightOfEntries entries := by
  cases entries with
  | nil =>
    cases h
    exact Nat.le_refl _
  | cons entry rest =>
    obtain ⟨k, v⟩ := entry
    obtain ⟨k', key, h⟩ := ok_of_bind h
    obtain ⟨v', value, h⟩ := ok_of_bind h
    obtain ⟨_, _, h⟩ := ok_of_bind h
    obtain ⟨rest', others, h⟩ := ok_of_bind h
    cases h
    have := weight_copied_le key
    have := weight_copied_le value
    have := weightOfEntries_copied_le others
    simp only [weightOfEntries]
    omega

end

mutual

def plain (v : Value) : Except Failure Value :=
  match v with
  | record shape fields =>
    match _h : copiedItems fields with
    | .error failure => .error failure
    | .ok items => do
      let items' ← plainItems items
      pure (dict (fieldEntries shape items'))
  | member m => pure (str m.text)
  | made v => pure v
  | uuid u => pure (str u.text)
  | time t => pure (str t.text)
  | dict entries => ofTexts <$> plainEntries entries []
  | list items => list <$> plainItems items
  | tuple items => list <$> plainItems items
  | set items => list <$> plainItems items
  | frozenSet items => list <$> plainItems items
  | model content => plain content
  | v => pure v
termination_by weight v
decreasing_by
  all_goals simp_all only [weight]
  all_goals first
    | omega
    | exact Nat.lt_succ_of_le (Nat.le_trans (weightOfItems_copied_le _h) (by omega))

def plainItems (items : List Value) : Except Failure (List Value) :=
  match items with
  | [] => pure []
  | v :: rest => do
    let v' ← plain v
    let rest' ← plainItems rest
    pure (v' :: rest')
termination_by weightOfItems items
decreasing_by
  all_goals simp only [weightOfItems]
  all_goals omega

/-- The plain entries of a dictionary, put one by one into those that are `done`; the key of an
entry is the displayed text of its plain form. -/
def plainEntries (entries : List (Value × Value)) (done : List (String × Value)) :
    Except Failure (List (String × Value)) :=
  match entries with
  | [] => pure done
  | (k, v) :: rest => do
    let k' ← plain k
    let v' ← plain v
    plainEntries rest (putText k'.display v' done)
termination_by weightOfEntries entries
decreasing_by
  all_goals simp only [weightOfEntries]
  all_goals omega

end

end Handover.Value
