import Mathlib.Data.List.Nodup
import Handover.Proofs.Line

namespace Handover.Value

open scoped List

variable {α β : Type}

/-- Entries with texts for keys. -/
def named (entries : List (String × α)) : List (Value × α) :=
  entries.map fun entry => (str entry.1, entry.2)

/-- Whether entries stand in the order of their names. -/
def InOrder (entries : List (String × α)) : Prop :=
  entries.Pairwise fun a b => a.1 ≤ b.1

theorem before_str (a b : String) : before (str a) (str b) = .ok (decide (a < b)) := by
  simp [before, keyText?, pure, Except.pure]

theorem named_cons (entry : String × α) (rest : List (String × α)) :
    named (entry :: rest) = (str entry.1, entry.2) :: named rest := rfl

theorem length_named (entries : List (String × α)) : (named entries).length = entries.length :=
  List.length_map _

/-- The place that is found for a key lies after all keys that are not after it and before the
others. -/
theorem placeOf_named (key : String) {sorted : List (String × α)} (ordered : InOrder sorted)
    (low high : Nat) (within : high ≤ sorted.length)
    (below : ∀ i (hi : i < sorted.length), i < low → sorted[i].1 ≤ key)
    (above : ∀ i (hi : i < sorted.length), high ≤ i → key < sorted[i].1) (le : low ≤ high) :
    ∃ place, placeOf (str key) (named sorted).toArray low high = .ok place ∧
      place ≤ sorted.length ∧
      (∀ i (hi : i < sorted.length), i < place → sorted[i].1 ≤ key) ∧
      (∀ i (hi : i < sorted.length), place ≤ i → key < sorted[i].1) := by
  by_cases open' : low < high
  · have inside : (low + high) / 2 < sorted.length := by omega
    have found : (named sorted).toArray[(low + high) / 2]? =
        some (str sorted[(low + high) / 2].1, sorted[(low + high) / 2].2) := by
      simp [named, inside]
    rw [placeOf, dif_pos open']
    dsimp only
    rw [found]
    dsimp only
    rw [before_str]
    by_cases earlier : key < sorted[(low + high) / 2].1
    · have later : ∀ i (hi : i < sorted.length), (low + high) / 2 ≤ i → key < sorted[i].1 := by
        intro i hi hle
        rcases Nat.eq_or_lt_of_le hle with rfl | hlt
        · exact earlier
        · have upward := List.pairwise_iff_getElem.mp ordered _ _ inside hi hlt
          exact String.not_le.mp fun hle => String.not_le.mpr earlier (String.le_trans upward hle)
      rw [decide_eq_true earlier]
      exact placeOf_named key ordered low ((low + high) / 2) (by omega) below later (by omega)
    · have not_later : ∀ i (hi : i < sorted.length), i < (low + high) / 2 + 1 →
          sorted[i].1 ≤ key := by
        intro i hi hlt
        rcases Nat.eq_or_lt_of_le (Nat.le_of_lt_succ hlt) with rfl | hlt
        · exact String.not_lt.mp earlier
        · exact String.le_trans (List.pairwise_iff_getElem.mp ordered _ _ hi inside hlt)
            (String.not_lt.mp earlier)
      rw [decide_eq_false earlier]
      exact placeOf_named key ordered ((low + high) / 2 + 1) high within not_later above (by omega)
  · rw [placeOf, dif_neg open']
    obtain rfl : low = high := by omega
    exact ⟨low, rfl, within, below, above⟩
termination_by high - low

theorem insertIdx_eq {place : Nat} {entries : List β} (h : place ≤ entries.length) (entry : β) :
    entries.insertIdx place entry = entries.take place ++ entry :: entries.drop place := by
  induction entries generalizing place with
  | nil =>
    obtain rfl : place = 0 := by simpa using h
    rfl
  | cons first rest ih =>
    cases place with
    | zero => rfl
    | succ place =>
      have shorter : place ≤ rest.length := by simpa using h
      rw [List.insertIdx_succ_cons, ih shorter]
      rfl

theorem le_of_lt {a b : String} (h : a < b) : a ≤ b :=
  (String.le_total a b).resolve_right (String.not_le.mpr h)

/-- Entries that are put among ordered ones are in order with them. -/
theorem placeAll_named (rest : List (String × α)) {sorted : List (String × α)}
    (ordered : InOrder sorted) :
    ∃ placed, placeAll (named rest) (named sorted).toArray = .ok (named placed).toArray ∧
      InOrder placed ∧ placed.Perm (rest ++ sorted) := by
  induction rest generalizing sorted with
  | nil => exact ⟨sorted, rfl, ordered, .refl _⟩
  | cons entry rest ih =>
    obtain ⟨place, found, within, below, above⟩ := placeOf_named entry.1 ordered 0 sorted.length
      (Nat.le_refl _) (fun i hi hlt => absurd hlt (by omega)) (fun i hi hle => absurd hi (by omega))
      (Nat.zero_le _)
    have inserted : (named sorted).insertIdx place (str entry.1, entry.2) =
        named (sorted.take place ++ entry :: sorted.drop place) := by
      rw [insertIdx_eq (by rwa [length_named])]
      simp [named]
    have ordered' : InOrder (sorted.take place ++ entry :: sorted.drop place) := by
      rw [InOrder, List.pairwise_append, List.pairwise_cons]
      have early : ∀ e ∈ sorted.take place, e.1 ≤ entry.1 := by
        intro e he
        obtain ⟨i, hi, rfl⟩ := List.mem_take_iff_getElem.mp he
        exact below i (by omega) (by omega)
      have late : ∀ e ∈ sorted.drop place, entry.1 < e.1 := by
        intro e he
        obtain ⟨i, hi, rfl⟩ := List.mem_drop_iff_getElem.mp he
        exact above _ _ (by omega)
      refine ⟨ordered.sublist (List.take_sublist _ _),
        ⟨fun e he => le_of_lt (late e he), ordered.sublist (List.drop_sublist _ _)⟩, ?_⟩
      intro a ha b hb
      rcases List.mem_cons.mp hb with rfl | hb
      · exact early a ha
      · exact String.le_trans (early a ha) (le_of_lt (late b hb))
    obtain ⟨placed, run, inOrder, perm⟩ := ih ordered'
    refine ⟨placed, ?_, inOrder, perm.trans ?_⟩
    · rw [named_cons, placeAll]
      have size : (named sorted).toArray.size = sorted.length := by simp [named]
      rw [size, found]
      show placeAll (named rest) ((named sorted).insertIdx place (str entry.1, entry.2)).toArray = _
      rw [inserted, run]
    · calc
        rest ++ (sorted.take place ++ entry :: sorted.drop place)
        _ ~ rest ++ entry :: (sorted.take place ++ sorted.drop place) :=
          List.perm_middle.append_left rest
        _ ~ entry :: (rest ++ (sorted.take place ++ sorted.drop place)) := List.perm_middle
        _ = entry :: rest ++ sorted := by rw [List.take_append_drop, List.cons_append]

theorem InOrder.cons {first second : String × α} {rest : List (String × α)}
    (h : InOrder (second :: rest)) (le : first.1 ≤ second.1) :
    InOrder (first :: second :: rest) := by
  refine List.pairwise_cons.mpr ⟨fun e he => ?_, h⟩
  rcases List.mem_cons.mp he with rfl | he
  · exact le
  · exact String.le_trans le ((List.pairwise_cons.mp h).1 e he)

theorem InOrder.concat {first second : String × α} {rest : List (String × α)}
    (h : InOrder (second :: rest).reverse) (le : second.1 ≤ first.1) :
    InOrder (first :: second :: rest).reverse := by
  have tail := List.pairwise_reverse.mp h
  refine List.pairwise_reverse.mpr (List.pairwise_cons.mpr ⟨fun e he => ?_, tail⟩)
  rcases List.mem_cons.mp he with rfl | he
  · exact le
  · exact String.le_trans ((List.pairwise_cons.mp tail).1 e he) le

/-- An ascending run is in order. -/
theorem ascending_named (last : String) (rest : List (String × α)) :
    ∃ n, ascending (str last) (named rest) = .ok n ∧
      ∀ a : α, InOrder ((last, a) :: rest.take n) := by
  induction rest generalizing last with
  | nil => exact ⟨0, rfl, fun a => List.pairwise_singleton _ _⟩
  | cons entry rest ih =>
    rw [named_cons, ascending, before_str]
    by_cases falls : entry.1 < last
    · refine ⟨0, ?_, fun a => List.pairwise_singleton _ _⟩
      rw [decide_eq_true falls]
      rfl
    · obtain ⟨n, run, ordered⟩ := ih entry.1
      refine ⟨n + 1, ?_, fun a => ?_⟩
      · rw [decide_eq_false falls]
        show (ascending (str entry.1) (named rest) >>= fun n => pure (n + 1)) = _
        rw [run]
        rfl
      · exact (ordered entry.2).cons (String.not_lt.mp falls)

/-- A descending run is in order once it is reversed. -/
theorem descending_named (last : String) (rest : List (String × α)) :
    ∃ n, descending (str last) (named rest) = .ok n ∧
      ∀ a : α, InOrder ((last, a) :: rest.take n).reverse := by
  induction rest generalizing last with
  | nil => exact ⟨0, rfl, fun a => List.pairwise_singleton _ _⟩
  | cons entry rest ih =>
    rw [named_cons, descending, before_str]
    by_cases falls : entry.1 < last
    · obtain ⟨n, run, ordered⟩ := ih entry.1
      refine ⟨n + 1, ?_, fun a => ?_⟩
      · rw [decide_eq_true falls]
        show (descending (str entry.1) (named rest) >>= fun n => pure (n + 1)) = _
        rw [run]
        rfl
      · exact (ordered entry.2).concat (le_of_lt falls)
    · refine ⟨0, ?_, fun a => List.pairwise_singleton _ _⟩
      rw [decide_eq_false falls]
      rfl

/-- Once a leading run is in order, all entries are put in order. -/
theorem placeAll_run (entries : List (String × α)) (n : Nat) {run : List (String × α)} (ordered : InOrder run)
    (leads : run ~ entries.take n) :
    ∃ placed, placeAll ((named entries).drop n) (named run).toArray =
        .ok (named placed).toArray ∧ InOrder placed ∧ placed ~ entries := by
  obtain ⟨placed, puts, inOrder, perm⟩ := placeAll_named (entries.drop n) ordered
  refine ⟨placed, ?_, inOrder, ?_⟩
  · rwa [named, ← List.map_drop]
  · calc placed
      _ ~ entries.drop n ++ run := perm
      _ ~ entries.drop n ++ entries.take n := leads.append_left _
      _ ~ entries.take n ++ entries.drop n := List.perm_append_comm
      _ = entries := List.take_append_drop n entries

/-- The entries are put in order, and none is lost or added. -/
theorem inKeyOrder_named (entries : List (String × α)) :
    ∃ sorted, inKeyOrder (named entries) = .ok (named sorted) ∧ InOrder sorted ∧
      sorted ~ entries := by
  match entries with
  | [] => exact ⟨[], rfl, List.Pairwise.nil, .refl _⟩
  | [entry] => exact ⟨[entry], rfl, List.pairwise_singleton _ _, .refl _⟩
  | first :: second :: rest =>
    have leading : ∀ n, (named (first :: second :: rest)).take (n + 2) =
        named (first :: second :: rest.take n) := by
      intro n
      simp [named]
    rw [named_cons, named_cons, inKeyOrder, ← named_cons, ← named_cons, before_str]
    by_cases falls : second.1 < first.1
    · obtain ⟨n, run, ordered⟩ := descending_named second.1 rest
      obtain ⟨placed, puts, inOrder, perm⟩ := placeAll_run (first :: second :: rest) (n + 2)
        ((ordered second.2).concat (le_of_lt falls)) (List.reverse_perm _)
      refine ⟨placed, ?_, inOrder, perm⟩
      rw [decide_eq_true falls]
      show (descending (str second.1) (named rest) >>= fun n =>
        placeAll ((named (first :: second :: rest)).drop (n + 2))
          ((named (first :: second :: rest)).take (n + 2)).reverse.toArray >>= fun placed =>
            pure placed.toList) = _
      rw [run]
      show (placeAll _ _ >>= fun placed => pure placed.toList) = _
      have backward : (named (first :: second :: rest.take n)).reverse =
          named (first :: second :: rest.take n).reverse := List.map_reverse.symm
      rw [leading, backward, puts]
      rfl
    · obtain ⟨n, run, ordered⟩ := ascending_named second.1 rest
      obtain ⟨placed, puts, inOrder, perm⟩ := placeAll_run (first :: second :: rest) (n + 2)
        ((ordered second.2).cons (String.not_lt.mp falls)) (.refl _)
      refine ⟨placed, ?_, inOrder, perm⟩
      rw [decide_eq_false falls]
      show (ascending (str second.1) (named rest) >>= fun n =>
        placeAll ((named (first :: second :: rest)).drop (n + 2))
          ((named (first :: second :: rest)).take (n + 2)).toArray >>= fun placed =>
            pure placed.toList) = _
      rw [run]
      show (placeAll _ _ >>= fun placed => pure placed.toList) = _
      rw [leading, puts]
      rfl

def inNameOrder (entries : List (String × α)) : List (String × α) :=
  entries.mergeSort fun a b => a.1 ≤ b.1

theorem inNameOrder_inOrder (entries : List (String × α)) : InOrder (inNameOrder entries) := by
  refine (List.pairwise_mergeSort ?_ ?_ entries).imp fun h => by simpa using h
  · intro a b c hab hbc
    simp only [decide_eq_true_eq] at *
    exact String.le_trans hab hbc
  · intro a b
    simpa using String.le_total a.1 b.1

theorem inNameOrder_perm (entries : List (String × α)) : inNameOrder entries ~ entries :=
  List.mergeSort_perm _ _

theorem inNameOrder_map (f : α → β) (entries : List (String × α)) :
    inNameOrder (entries.map fun e => (e.1, f e.2)) =
      (inNameOrder entries).map fun e => (e.1, f e.2) := by
  symm
  exact List.map_mergeSort fun _ _ _ _ => rfl

/-- Entries with different names stand in one order only. -/
theorem InOrder.unique {entries others : List (String × α)} (h : InOrder entries)
    (h' : InOrder others) (perm : entries ~ others) (distinct : (others.map (·.1)).Nodup) :
    entries = others := by
  refine perm.eq_of_pairwise (fun a b ha hb hab hba => ?_) h h'
  exact List.inj_on_of_nodup_map distinct (perm.mem_iff.mp ha) hb (String.le_antisymm hab hba)

theorem inKeyOrder_eq {entries : List (String × α)} (distinct : (entries.map (·.1)).Nodup) :
    inKeyOrder (named entries) = .ok (named (inNameOrder entries)) := by
  obtain ⟨sorted, run, inOrder, perm⟩ := inKeyOrder_named entries
  have distinct' : ((inNameOrder entries).map (·.1)).Nodup :=
    ((inNameOrder_perm entries).map _).nodup_iff.mpr distinct
  rw [run, inOrder.unique (inNameOrder_inOrder entries)
    (perm.trans (inNameOrder_perm entries).symm) distinct']

end Handover.Value
