import Handover.Pager

namespace Handover

namespace Page

variable {α : Type}

theorem bound_natCast (length i : Nat) : bound length i = min length i := by
  rw [bound, if_neg (by omega), Int.toNat_natCast]

theorem slice_natCast (rows : List α) (start count : Nat) :
    slice rows start ((start : Int) + count) = (rows.drop start).take count := by
  have stop : (start : Int) + count = ((start + count : Nat) : Int) := by omega
  rw [slice, stop, bound_natCast, bound_natCast]
  by_cases h : start ≤ rows.length
  · rw [Nat.min_eq_right h]
    apply List.take_eq_take_iff.mpr
    rw [List.length_drop]
    omega
  · have hmin : min rows.length start = rows.length := by omega
    rw [hmin, List.drop_length, List.drop_eq_nil_of_le (by omega)]
    simp

/-- The page with a number holds the rows after those of the pages before it. -/
theorem cut_natCast (rows : List α) {size : Nat} (positive : 0 < size) (page : Nat) :
    ∃ rowCount pageCount, cut rows ⟨size, page⟩ =
      .ok ⟨(rows.drop (page * size)).take size, decide (page * size + size < rows.length),
        rowCount, pageCount⟩ := by
  have nonzero : (size : Int) ≠ 0 := by omega
  have start : (page : Int) * size = ((page * size : Nat) : Int) := by simp
  have last : ((page * size : Nat) : Int) + size < (rows.length : Int) ↔
      page * size + size < rows.length := by omega
  refine ⟨some rows.length, some (((rows.length : Int) + size - 1).fdiv size), ?_⟩
  rw [cut, if_neg nonzero]
  simp only [start, slice_natCast, last]

end Page

namespace Pager

variable {m : Type → Type} [Monad m] [LawfulMonad m] {α : Type}

theorem visitRows_append (visit : α → m Bool) (rows others : List α) :
    visitRows visit (rows ++ others) =
      (do if ← visitRows visit rows then visitRows visit others else pure false) := by
  induction rows with
  | nil => simp [visitRows]
  | cons row rest ih =>
    simp only [List.cons_append, visitRows, bind_assoc]
    congr 1
    funext wanted
    cases wanted <;> simp [ih]

theorem discard_answer (act : m Unit) {answer : α} : discard (do act; pure answer) = act := by
  show Functor.mapConst PUnit.unit (act >>= fun _ => pure answer) = act
  rw [map_const, Function.comp_apply, map_bind]
  simp

theorem visitRows_forM (visit : α → m Unit) (rows : List α) :
    visitRows (fun row => do visit row; pure true) rows = (do rows.forM visit; pure true) := by
  induction rows with
  | nil => simp [visitRows]
  | cons row rest ih =>
    simp only [visitRows, bind_assoc, pure_bind, if_true, ih, List.forM]

variable [Fallible m]

/-- From a page on, the pages of a list of rows are visited like the rows that they hold. -/
theorem visitFrom_cut {rows : List α} {size : Nat} (positive : 0 < size)
    {fetch : PageLink → m (Page α)} (visit : α → m Bool)
    (cuts : ∀ link page, Page.cut rows link = .ok page → fetch link = pure page) :
    ∀ bound page : Nat, 0 < bound → rows.length ≤ (page + bound) * size →
      visitFrom fetch visit bound ⟨size, page⟩ = visitRows visit (rows.drop (page * size)) := by
  intro bound
  induction bound with
  | zero => intro page h; omega
  | succ bound ih =>
    intro page _ enough
    obtain ⟨rowCount, pageCount, hcut⟩ := Page.cut_natCast rows positive page
    have rest : rows.drop (page * size) =
        (rows.drop (page * size)).take size ++ rows.drop ((page + 1) * size) := by
      rw [Nat.add_mul, Nat.one_mul, ← List.drop_drop, List.take_append_drop]
    rw [visitFrom, cuts _ _ hcut, pure_bind]
    conv => rhs; rw [rest, visitRows_append]
    congr 1
    funext wanted
    cases wanted with
    | false => rfl
    | true =>
      by_cases more : page * size + size < rows.length
      · have next : PageLink.next ⟨size, page⟩ = ⟨size, ((page + 1 : Nat) : Int)⟩ := rfl
        have hb : 0 < bound := by
          rcases Nat.eq_zero_or_pos bound with rfl | h
          · rw [Nat.add_mul, Nat.zero_add, Nat.one_mul] at enough
            omega
          · exact h
        simp only [more, decide_true, if_true, next]
        exact ih (page + 1) hb (by rw [Nat.add_assoc, Nat.add_comm 1]; exact enough)
      · have none : rows.drop ((page + 1) * size) = [] := by
          apply List.drop_eq_nil_of_le
          rw [Nat.add_mul, Nat.one_mul]
          omega
        simp [more, none, visitRows]

theorem visitPages_cut {rows : List α} {size : Int} (positive : 0 < size) {bound : Nat}
    (enough : rows.length < bound) {fetch : PageLink → m (Page α)} (visit : α → m Unit)
    (cuts : ∀ link page, Page.cut rows link = .ok page → fetch link = pure page) :
    visitPages bound size fetch (fun row => do visit row; pure true) =
      (do rows.forM visit; pure true) := by
  obtain ⟨n, rfl⟩ := Int.eq_ofNat_of_zero_le (Int.le_of_lt positive)
  have hn : 0 < n := by omega
  have hlen : rows.length ≤ (0 + bound) * n := by
    calc rows.length ≤ bound := Nat.le_of_lt enough
      _ ≤ (0 + bound) * n := by rw [Nat.zero_add]; exact Nat.le_mul_of_pos_right bound hn
  have hpages := visitFrom_cut hn (fun row => do visit row; pure true) cuts bound 0 (by omega) hlen
  rw [Nat.zero_mul, List.drop_zero, visitRows_forM] at hpages
  rw [visitPages, if_neg (by omega)]
  exact hpages

/-- A source that is cut into pages is visited row by row, whatever the size of its pages. -/
theorem forEach_cut {rows : List α} {size : Int} (positive : 0 < size) {bound : Nat}
    (enough : rows.length < bound) {fetch : PageLink → m (Page α)} (visit : α → m Unit)
    (cuts : ∀ link page, Page.cut rows link = .ok page → fetch link = pure page) :
    forEach bound size fetch visit = rows.forM visit := by
  rw [forEach, visitPages_cut positive enough visit cuts, discard_answer]

end Pager

end Handover
