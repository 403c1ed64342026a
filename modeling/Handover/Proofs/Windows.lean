import Mathlib.Data.List.Sort
import Handover.Proofs.History

namespace Handover.Partition

variable {starts : List Int} {now : Int}

/-- The windows of a table go by the starts of its partitions, in whatever order these were added
and however often. -/
theorem plan_congr {starts starts' : List Int} (same : ∀ start, start ∈ starts' ↔ start ∈ starts)
    (now : Int) : plan starts' now = plan starts now := by
  have distinct : distinctStarts starts' = distinctStarts starts :=
    (distinctStarts_ascending starts').eq_of_mem_iff (distinctStarts_ascending starts)
      fun start => by rw [mem_distinctStarts, mem_distinctStarts, same]
  rw [plan, plan, distinct]

theorem windowsFrom_starts (now : Int) (starts : List Int) :
    (windowsFrom now starts).map (·.start) = starts := by
  induction starts with
  | nil => rfl
  | cons first rest ih =>
    cases rest with
    | nil => rfl
    | cons second rest => rw [windowsFrom, List.map_cons, ih]

theorem plan_ascending (starts : List Int) (now : Int) :
    ((plan starts now).map (·.start)).Pairwise (· < ·) := by
  rw [plan, windowsFrom_starts]
  exact distinctStarts_ascending starts

/-- A window ends before every later one starts. -/
theorem windowsFrom_ordered (now : Int) (ascending : starts.Pairwise (· < ·)) :
    (windowsFrom now starts).Pairwise fun v w => v.stop < w.start := by
  induction starts with
  | nil => exact .nil
  | cons first rest ih =>
    obtain ⟨_, ascending'⟩ := List.pairwise_cons.mp ascending
    cases rest with
    | nil => exact List.pairwise_singleton ..
    | cons second rest =>
      refine List.pairwise_cons.mpr ⟨fun w hw => ?_, ih ascending'⟩
      have start : w.start ∈ second :: rest := by
        rw [← windowsFrom_starts now (second :: rest)]
        exact List.mem_map_of_mem hw
      have later : second ≤ w.start := by
        rcases List.mem_cons.mp start with same | mem
        · exact Int.le_of_eq same.symm
        · exact Int.le_of_lt ((List.pairwise_cons.mp ascending').1 _ mem)
      show second - 1 < w.start
      omega

/-- A time that is covered lies in one window, any other in none. -/
theorem countP_windowsFrom (ascending : starts.Pairwise (· < ·)) (time : Int) :
    (windowsFrom now starts).countP (·.holds time) =
      if covers starts now time = true then 1 else 0 := by
  induction starts with
  | nil => rfl
  | cons first rest ih =>
    obtain ⟨above, ascending'⟩ := List.pairwise_cons.mp ascending
    cases rest with
    | nil =>
      have alone : covers [first] now time = Window.holds ⟨first, now⟩ time := by
        rw [Bool.eq_iff_iff, covers_iff, Window.holds_iff]
        simp only [List.mem_singleton, exists_eq_left]
        omega
      rw [alone, windowsFrom, List.countP_singleton]
    | cons second rest =>
      have both : covers (first :: second :: rest) now time =
          (Window.holds ⟨first, second - 1⟩ time || covers (second :: rest) now time) := by
        rw [Bool.eq_iff_iff, Bool.or_eq_true, covers_cons_iff above, Window.holds_iff]
      have apart : Window.holds ⟨first, second - 1⟩ time = true →
          covers (second :: rest) now time = false := by
        intro held
        have early : time ≤ second - 1 := (Window.holds_iff.mp held).2
        refine Bool.eq_false_iff.mpr fun covered => ?_
        obtain ⟨⟨s, hs, hle⟩, -⟩ := covers_iff.mp covered
        rcases List.mem_cons.mp hs with rfl | hs
        · omega
        · have := (List.pairwise_cons.mp ascending').1 s hs
          omega
      rw [windowsFrom, List.countP_cons, ih ascending', both]
      cases held : Window.holds ⟨first, second - 1⟩ time with
      | false => rfl
      | true => rw [apart held]; rfl

theorem countP_plan (starts : List Int) (now time : Int) :
    (plan starts now).countP (·.holds time) = if covers starts now time = true then 1 else 0 := by
  rw [plan, countP_windowsFrom (distinctStarts_ascending starts), covers_distinctStarts]

theorem covers_iff_between {first last : Int} (least : starts.min? = some first)
    (greatest : starts.max? = some last) {time : Int} :
    covers starts now time = true ↔ first ≤ time ∧ time ≤ max now (last - 1) := by
  rw [covers, least, greatest, Bool.and_eq_true, decide_eq_true_eq, decide_eq_true_eq]

/-- A time is covered when it lies in a window. -/
theorem mem_plan_iff {time : Int} :
    (∃ w ∈ plan starts now, w.holds time = true) ↔ covers starts now time = true := by
  have count := countP_plan starts now time
  rw [← List.countP_pos_iff, count]
  cases covers starts now time <;> simp

/-- Starts that lie between others leave the covered time as it is. -/
theorem covers_append {first last : Int} (least : starts.min? = some first)
    (greatest : starts.max? = some last) {more : List Int}
    (between : ∀ start ∈ more, first ≤ start ∧ start ≤ last) (time : Int) :
    covers (starts ++ more) now time = covers starts now time := by
  obtain ⟨hfirst, -⟩ := List.min?_eq_some_iff.mp least
  obtain ⟨hlast, -⟩ := List.max?_eq_some_iff.mp greatest
  rw [Bool.eq_iff_iff, covers_iff, covers_iff]
  constructor
  · rintro ⟨⟨s, hs, after⟩, ending⟩
    refine ⟨?_, ending.imp_right ?_⟩
    · rcases List.mem_append.mp hs with hs | hs
      · exact ⟨s, hs, after⟩
      · exact ⟨first, hfirst, Int.le_trans (between s hs).1 after⟩
    · rintro ⟨u, hu, before⟩
      rcases List.mem_append.mp hu with hu | hu
      · exact ⟨u, hu, before⟩
      · exact ⟨last, hlast, Int.lt_of_lt_of_le before (between u hu).2⟩
  · rintro ⟨⟨s, hs, after⟩, ending⟩
    exact ⟨⟨s, List.mem_append_left _ hs, after⟩,
      ending.imp_right fun ⟨u, hu, before⟩ => ⟨u, List.mem_append_left _ hu, before⟩⟩

/-- The windows of a table part time, whatever the order and the repetitions of the starts of its
partitions and wherever these lie. They are in ascending order, go by the set of starts, and no two
of them share a time. Each time from the first start to now or to the moment before the last start
lies in exactly one window, any other time in none; so the windows reach from the first start to
now, and further starts in between change nothing of what they cover. -/
theorem plan_parts_time (starts : List Int) (now : Int) :
    ((plan starts now).map (·.start)).Pairwise (· < ·) ∧
    (∀ starts', (∀ start, start ∈ starts' ↔ start ∈ starts) →
      plan starts' now = plan starts now) ∧
    (plan starts now).Pairwise (fun v w => ∀ time, ¬(v.holds time = true ∧ w.holds time = true)) ∧
    (starts = [] → plan starts now = []) ∧
    ∀ first last, starts.min? = some first → starts.max? = some last →
      (∀ time, (plan starts now).countP (·.holds time) =
        if first ≤ time ∧ time ≤ max now (last - 1) then 1 else 0) ∧
      (∀ time, first ≤ time → time ≤ now → ∃ w ∈ plan starts now, w.holds time = true) ∧
      ∀ more, (∀ start ∈ more, first ≤ start ∧ start ≤ last) → ∀ time,
        (∃ w ∈ plan (starts ++ more) now, w.holds time = true) ↔
          ∃ w ∈ plan starts now, w.holds time = true := by
  refine ⟨plan_ascending starts now, fun starts' same => plan_congr same now, ?_, fun none => ?_,
    fun first last least greatest => ⟨fun time => ?_, fun time after before => ?_,
      fun more between time => ?_⟩⟩
  · have ordered := windowsFrom_ordered now (distinctStarts_ascending starts)
    refine ordered.imp fun {v w} order time => ?_
    rintro ⟨inFirst, inSecond⟩
    have hv := (Window.holds_iff.mp inFirst).2
    have hw := (Window.holds_iff.mp inSecond).1
    omega
  · rw [none]
    rfl
  · rw [countP_plan]
    simp only [covers_iff_between least greatest]
  · refine mem_plan_iff.mpr ((covers_iff_between least greatest).mpr ⟨after, ?_⟩)
    exact Int.le_trans before (Int.le_max_left ..)
  · rw [mem_plan_iff, mem_plan_iff, covers_append least greatest between]

/-- Three partitions, one of them added twice, two of them ahead of their time. -/
theorem plan_parts_time_ahead :
    [30, 10, 20, 10].min? = some (10 : Int) ∧ [30, 10, 20, 10].max? = some (30 : Int) ∧
      plan [30, 10, 20, 10] 15 = [⟨10, 19⟩, ⟨20, 29⟩, ⟨30, 15⟩] ∧
      (plan [30, 10, 20, 10] 15).countP (·.holds 29) = 1 ∧
      (plan [30, 10, 20, 10] 15).countP (·.holds 30) = 0 := by
  have least : [30, 10, 20, 10].min? = some (10 : Int) := by decide
  have greatest : [30, 10, 20, 10].max? = some (30 : Int) := by decide
  obtain ⟨_, _, _, _, parts⟩ := plan_parts_time [30, 10, 20, 10] 15
  obtain ⟨count, _, _⟩ := parts 10 30 least greatest
  exact ⟨least, greatest, by decide, count 29, count 30⟩

end Handover.Partition
