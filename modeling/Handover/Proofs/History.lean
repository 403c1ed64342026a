import Handover.Proofs.Paging
import Handover.Partition
import Handover.Store

namespace Handover

def Window.holds (w : Window) (time : Int) : Bool :=
  w.start ≤ time && time ≤ w.stop

theorem Window.holds_iff {w : Window} {time : Int} :
    w.holds time = true ↔ w.start ≤ time ∧ time ≤ w.stop := by
  simp [holds]

namespace Partition

/-- Whether a time lies between the first start and now, or before the last start. -/
def covers (starts : List Int) (now time : Int) : Bool :=
  match starts.min?, starts.max? with
  | some first, some last => first ≤ time && time ≤ max now (last - 1)
  | _, _ => false

theorem covers_iff {starts : List Int} {now time : Int} :
    covers starts now time = true ↔
      (∃ s ∈ starts, s ≤ time) ∧ (time ≤ now ∨ ∃ s ∈ starts, time < s) := by
  cases hmin : starts.min? with
  | none => simp [covers, List.min?_eq_none_iff.mp hmin]
  | some first =>
    cases hmax : starts.max? with
    | none => simp [covers, List.max?_eq_none_iff.mp hmax]
    | some last =>
      obtain ⟨hfirst, below⟩ := List.min?_eq_some_iff.mp hmin
      obtain ⟨hlast, above⟩ := List.max?_eq_some_iff.mp hmax
      simp only [covers, hmin, hmax, Bool.and_eq_true, decide_eq_true_eq]
      constructor
      · rintro ⟨h, h'⟩
        refine ⟨⟨first, hfirst, h⟩, ?_⟩
        by_cases hn : time ≤ now
        · exact Or.inl hn
        · exact Or.inr ⟨last, hlast, by omega⟩
      · rintro ⟨⟨s, hs, h⟩, h' | ⟨u, hu, h'⟩⟩
        · have := below s hs
          omega
        · have := below s hs
          have := above u hu
          omega

theorem covers_cons_iff {first second now time : Int} {rest : List Int}
    (above : ∀ s ∈ second :: rest, first < s) :
    covers (first :: second :: rest) now time = true ↔
      (first ≤ time ∧ time ≤ second - 1) ∨ covers (second :: rest) now time = true := by
  rw [covers_iff, covers_iff]
  constructor
  · rintro ⟨⟨s, hs, hle⟩, hend⟩
    have hfirst : first ≤ time := by
      rcases List.mem_cons.mp hs with rfl | hs
      · exact hle
      · have := above s hs
        omega
    by_cases h : time ≤ second - 1
    · exact Or.inl ⟨hfirst, h⟩
    · refine Or.inr ⟨⟨second, by simp, by omega⟩, ?_⟩
      rcases hend with hn | ⟨u, hu, hlt⟩
      · exact Or.inl hn
      · rcases List.mem_cons.mp hu with rfl | hu
        · omega
        · exact Or.inr ⟨u, hu, hlt⟩
  · rintro (⟨h, h'⟩ | ⟨⟨s, hs, hle⟩, hend⟩)
    · exact ⟨⟨first, by simp, h⟩, Or.inr ⟨second, by simp, by omega⟩⟩
    · refine ⟨⟨s, List.mem_cons_of_mem _ hs, hle⟩, ?_⟩
      rcases hend with hn | ⟨u, hu, hlt⟩
      · exact Or.inl hn
      · exact Or.inr ⟨u, List.mem_cons_of_mem _ hu, hlt⟩

theorem mem_insertStart {start s : Int} {starts : List Int} :
    s ∈ insertStart start starts ↔ s = start ∨ s ∈ starts := by
  induction starts with
  | nil => simp [insertStart]
  | cons t rest ih =>
    rw [insertStart]
    split
    · simp
    · split
      next h => simp [h]
      next => simp [ih, or_left_comm]

theorem mem_distinctStarts {s : Int} {starts : List Int} :
    s ∈ distinctStarts starts ↔ s ∈ starts := by
  induction starts with
  | nil => simp [distinctStarts]
  | cons t rest ih =>
    have : distinctStarts (t :: rest) = insertStart t (distinctStarts rest) := rfl
    rw [this, mem_insertStart, ih, List.mem_cons]

theorem covers_distinctStarts (starts : List Int) (now time : Int) :
    covers (distinctStarts starts) now time = covers starts now time := by
  rw [Bool.eq_iff_iff, covers_iff, covers_iff]
  simp only [mem_distinctStarts]

theorem insertStart_ascending {start : Int} {starts : List Int} (h : starts.Pairwise (· < ·)) :
    (insertStart start starts).Pairwise (· < ·) := by
  induction starts with
  | nil => simp [insertStart]
  | cons t rest ih =>
    obtain ⟨ht, hrest⟩ := List.pairwise_cons.mp h
    rw [insertStart]
    split
    next hlt =>
      refine List.pairwise_cons.mpr ⟨fun s hs => ?_, h⟩
      rcases List.mem_cons.mp hs with rfl | hs
      · exact hlt
      · have := ht s hs
        omega
    next hge =>
      split
      next => exact h
      next hne =>
        refine List.pairwise_cons.mpr ⟨fun s hs => ?_, ih hrest⟩
        rcases mem_insertStart.mp hs with rfl | hs
        · omega
        · exact ht s hs

theorem distinctStarts_ascending (starts : List Int) :
    (distinctStarts starts).Pairwise (· < ·) := by
  induction starts with
  | nil => simp [distinctStarts]
  | cons t rest ih => exact insertStart_ascending ih

end Partition

namespace Store

theorem takeWhile_append_of_rejected {α : Type} {f : α → Bool} {xs ys : List α}
    (h : ∀ y ∈ ys, f y = false) : (xs ++ ys).takeWhile f = xs.takeWhile f := by
  induction xs with
  | nil =>
    cases ys with
    | nil => rfl
    | cons y ys => simp [h y (by simp)]
  | cons x xs ih => simp only [List.cons_append, List.takeWhile_cons, ih]

theorem dropWhile_append_of_rejected {α : Type} {f : α → Bool} {xs ys : List α}
    (h : ∀ y ∈ ys, f y = false) : (xs ++ ys).dropWhile f = xs.dropWhile f ++ ys := by
  induction xs with
  | nil =>
    cases ys with
    | nil => rfl
    | cons y ys => simp [h y (by simp)]
  | cons x xs ih =>
    simp only [List.cons_append, List.dropWhile_cons, ih]
    split <;> rfl

theorem mergeSort_cons_eq {α : Type} {le : α → α → Bool}
    (trans : ∀ a b c, le a b → le b c → le a c) (total : ∀ a b, le a b || le b a)
    (a : α) (rows : List α) :
    (a :: rows).mergeSort le =
      (rows.mergeSort le).takeWhile (fun b => !le a b) ++
        a :: (rows.mergeSort le).dropWhile (fun b => !le a b) := by
  obtain ⟨before, after, hcons, hrows, hbefore⟩ := List.mergeSort_cons trans total a rows
  have sorted := List.pairwise_mergeSort trans total (a :: rows)
  rw [hcons] at sorted
  have hafter : ∀ b ∈ after, le a b = true :=
    fun b hb => (List.pairwise_cons.mp (List.pairwise_append.mp sorted).2.1).1 b hb
  have rejected : ∀ b ∈ after, (!le a b) = false := by simpa using hafter
  have htake : after.takeWhile (fun b => !le a b) = [] :=
    @takeWhile_append_of_rejected _ _ [] _ rejected
  have hdrop : after.dropWhile (fun b => !le a b) = after :=
    @dropWhile_append_of_rejected _ _ [] _ rejected
  rw [hcons, hrows, List.takeWhile_append_of_pos hbefore, List.dropWhile_append_of_pos hbefore,
    htake, hdrop, List.append_nil]

def notLater (a b : Int × Value) : Bool :=
  a.1 ≤ b.1

theorem notLater_trans (a b c : Int × Value) (hab : notLater a b) (hbc : notLater b c) :
    notLater a c := by
  simp only [notLater, decide_eq_true_eq] at *
  omega

theorem notLater_total (a b : Int × Value) : notLater a b || notLater b a := by
  simp only [notLater, Bool.or_eq_true, decide_eq_true_eq]
  omega

/-- Rows of which one part lies before the other in time are in order when each part is. -/
theorem mergeSort_split (rows : List (Int × Value)) {p q : Int → Bool}
    (apart : ∀ t u, p t = true → q u = true → t < u) :
    (rows.filter fun row => p row.1 || q row.1).mergeSort notLater =
      (rows.filter fun row => p row.1).mergeSort notLater ++
        (rows.filter fun row => q row.1).mergeSort notLater := by
  induction rows with
  | nil => simp
  | cons row rest ih =>
    have cons_eq := mergeSort_cons_eq notLater_trans notLater_total row
    cases hp : p row.1 with
    | true =>
      have hq : q row.1 = false := by
        refine Bool.eq_false_iff.mpr fun h => ?_
        have := apart _ _ hp h
        omega
      -- the later part begins after every place that the row can take
      have later : ∀ b ∈ (rest.filter fun row => q row.1).mergeSort notLater,
          (!notLater row b) = false := by
        intro b hb
        have hb' : q b.1 = true := by simpa using (List.mem_filter.mp (List.mem_mergeSort.mp hb)).2
        have := apart _ _ hp hb'
        simp only [notLater, Bool.not_eq_false', decide_eq_true_eq]
        omega
      simp only [List.filter_cons, hp, hq, Bool.true_or, if_true, Bool.false_eq_true, if_false,
        cons_eq, ih, takeWhile_append_of_rejected later, dropWhile_append_of_rejected later,
        List.append_assoc, List.cons_append]
    | false =>
      cases hq : q row.1 with
      | true =>
        have earlier : ∀ b ∈ (rest.filter fun row => p row.1).mergeSort notLater,
            (!notLater row b) = true := by
          intro b hb
          have hb' : p b.1 = true := by
            simpa using (List.mem_filter.mp (List.mem_mergeSort.mp hb)).2
          have := apart _ _ hb' hq
          simp only [notLater, Bool.not_eq_true', decide_eq_false_iff_not]
          omega
        simp only [List.filter_cons, hp, hq, Bool.or_true, if_true, Bool.false_eq_true, if_false,
          cons_eq, ih, List.takeWhile_append_of_pos earlier, List.dropWhile_append_of_pos earlier,
          List.append_assoc]
      | false => simp [hp, hq, ih]

theorem inTimeOrder_eq (rows : List (Int × Value)) :
    inTimeOrder rows = (rows.mergeSort notLater).map (·.2) := rfl

theorem inTimeOrder_split (rows : List (Int × Value)) {p q : Int → Bool}
    (apart : ∀ t u, p t = true → q u = true → t < u) :
    inTimeOrder (rows.filter fun row => p row.1 || q row.1) =
      inTimeOrder (rows.filter fun row => p row.1) ++
        inTimeOrder (rows.filter fun row => q row.1) := by
  rw [inTimeOrder_eq, mergeSort_split rows apart, List.map_append, ← inTimeOrder_eq,
    ← inTimeOrder_eq]

end Store

namespace Partition

/-- The rows of one window after another are the covered rows in order of time. -/
theorem windows_inTimeOrder (rows : List (Int × Value)) (now : Int) {starts : List Int}
    (ascending : starts.Pairwise (· < ·)) :
    (windowsFrom now starts).flatMap (fun w =>
        Store.inTimeOrder (rows.filter fun row => w.holds row.1)) =
      Store.inTimeOrder (rows.filter fun row => covers starts now row.1) := by
  induction starts with
  | nil =>
    have none : rows.filter (fun row => covers [] now row.1) = [] :=
      List.filter_eq_nil_iff.mpr fun row _ => by simp [covers]
    simp [none, windowsFrom, Store.inTimeOrder]
  | cons first rest ih =>
    obtain ⟨above, ascending'⟩ := List.pairwise_cons.mp ascending
    cases rest with
    | nil =>
      simp only [windowsFrom, List.flatMap_cons, List.flatMap_nil, List.append_nil]
      congr 2
      funext row
      rw [Bool.eq_iff_iff, covers_iff, Window.holds_iff]
      simp only [List.mem_singleton, exists_eq_left]
      omega
    | cons second rest =>
      have apart : ∀ t u, Window.holds ⟨first, second - 1⟩ t = true →
          covers (second :: rest) now u = true → t < u := by
        intro t u ht hu
        obtain ⟨⟨s, hs, hle⟩, -⟩ := covers_iff.mp hu
        have hsecond : second ≤ s := by
          rcases List.mem_cons.mp hs with rfl | hs
          · exact Int.le_refl _
          · exact Int.le_of_lt ((List.pairwise_cons.mp ascending').1 s hs)
        have hstop : t ≤ second - 1 := (Window.holds_iff.mp ht).2
        omega
      have joined : (fun row : Int × Value =>
          Window.holds ⟨first, second - 1⟩ row.1 || covers (second :: rest) now row.1) =
            fun row => covers (first :: second :: rest) now row.1 := by
        funext row
        rw [Bool.eq_iff_iff, Bool.or_eq_true, covers_cons_iff above]
        rw [Window.holds_iff]
      rw [windowsFrom, List.flatMap_cons, ih ascending', ← Store.inTimeOrder_split rows apart,
        joined]

theorem plan_inTimeOrder (rows : List (Int × Value)) (starts : List Int) (now : Int) :
    (plan starts now).flatMap (fun w =>
        Store.inTimeOrder (rows.filter fun row => w.holds row.1)) =
      Store.inTimeOrder (rows.filter fun row => covers starts now row.1) := by
  rw [plan, windows_inTimeOrder rows now (distinctStarts_ascending starts)]
  simp only [covers_distinctStarts]

variable {m : Type → Type} [Monad m] [LawfulMonad m] {α : Type}

theorem windows_pure (starts : List Int) (now : Int) :
    windows (pure starts : m (List Int)) (pure now) = pure (plan starts now) := by
  rw [windows, pure_bind]
  cases starts with
  | nil => rfl
  | cons s rest => simp

variable [Fallible m]

theorem visitWindows_cut {rowsIn : Window → List α} {size : Int} (positive : 0 < size)
    {bound : Nat} (enough : ∀ w, (rowsIn w).length < bound) {fetch : TimePageLink → m (Page α)}
    (visit : α → m Unit)
    (cuts : ∀ w link page, Page.cut (rowsIn w) link = .ok page →
      fetch ⟨link, w.start, w.stop⟩ = pure page) (ws : List Window) :
    visitWindows bound size fetch (fun row => do visit row; pure true) ws =
      (do (ws.flatMap rowsIn).forM visit; pure true) := by
  induction ws with
  | nil => simp [visitWindows]
  | cons w rest ih =>
    rw [visitWindows, Pager.visitPages_cut positive (enough w) visit (cuts w), List.flatMap_cons,
      ih]
    simp [List.forM_append]

/-- A partitioned table whose windows are cut into pages is visited row by row, one window after
another. -/
theorem forEach_cut {rowsIn : Window → List α} {size : Int} (positive : 0 < size)
    {bound : Nat} (enough : ∀ w, (rowsIn w).length < bound) {fetch : TimePageLink → m (Page α)}
    (visit : α → m Unit)
    (cuts : ∀ w link page, Page.cut (rowsIn w) link = .ok page →
      fetch ⟨link, w.start, w.stop⟩ = pure page) (starts : List Int) (now : Int) :
    forEach bound size (pure starts) (pure now) fetch visit =
      ((plan starts now).flatMap rowsIn).forM visit := by
  rw [forEach, windows_pure, pure_bind, visitWindows_cut positive enough visit cuts]
  exact Pager.discard_answer _

end Partition

end Handover
