import Mathlib.Data.List.Perm.Basic
import Handover.Proofs.PagedReading
import Handover.Proofs.Windows

namespace Handover

open Act

variable {α β : Type}

/-- If each row is held by one of the items or by none, the rows that they hold are those that are
held at all. -/
theorem perm_flatMap_filter {items : List β} {holds : β → α → Bool} {held : α → Bool}
    (once : ∀ row, items.countP (holds · row) = if held row = true then 1 else 0)
    (rows : List α) :
    (items.flatMap fun item => rows.filter (holds item)).Perm (rows.filter held) := by
  induction rows with
  | nil => simp
  | cons row rest ih =>
    have split : ∀ item, (row :: rest).filter (holds item) =
        (if holds item row = true then [row] else []) ++ rest.filter (holds item) := by
      intro item
      rw [List.filter_cons]
      split <;> rfl
    have first : (items.flatMap fun item => if holds item row = true then [row] else []) =
        List.replicate (items.countP (holds · row)) row := by
      clear once ih split
      induction items with
      | nil => rfl
      | cons item items ih =>
        rw [List.flatMap_cons, ih, List.countP_cons]
        cases holds item row <;> simp [List.replicate_succ]
    simp only [split]
    refine (List.flatMap_append_perm ..).symm.trans ?_
    rw [first, once, List.filter_cons]
    cases held row with
    | false => exact ih
    | true => exact ih.cons row

namespace Reading

section Windows

variable (rows : List α) (time : α → Int) (size : Nat)

/-- The pages of the rows in a window. -/
def rowsWithin (window : TimePageLink) : Except Failure (Page α) :=
  Page.cut (rows.filter fun row => window.covers (time row)) window.link

/-- The rows in a window. -/
def heldRows (w : Window) : List α :=
  rows.filter fun row => w.holds (time row)

/-- The link to a page of a window. -/
def inWindow (w : Window) (page : Nat) : TimePageLink :=
  ⟨sized size page, w.start, w.stop⟩

/-- The links to the pages of a window. -/
def windowLinks (w : Window) : List TimePageLink :=
  firstLinks (inWindow size w) (pageCount (heldRows rows time w).length size)

/-- The rows of the pages at some links. -/
def delivered (links : List TimePageLink) : List α :=
  links.flatMap (rowsAt (rowsWithin rows time))

end Windows

/-- Times are rows that are their own times. -/
theorem timesWithin_eq (times : List Int) : timesWithin times = rowsWithin times id :=
  rfl

variable {rows : List α} {time : α → Int} {size : Nat} {bound : Nat} {limit : Option Nat}
variable {r : Reading TimePageLink α} {n : Nat}

theorem rowsWithin_cuts (rows : List α) (time : α → Int) (size : Nat) (w : Window) (p : Nat) :
    rowsWithin rows time (inWindow size w p) = Page.cut (heldRows rows time w) ⟨size, p⟩ :=
  rfl

theorem heldRows_short (enough : rows.length < bound) (w : Window) :
    (heldRows rows time w).length < bound :=
  Nat.lt_of_le_of_lt (List.length_filter_le ..) enough

section Visit

variable (positive : 0 < size)
include positive

theorem delivered_windowLinks (w : Window) (links : List TimePageLink) :
    delivered rows time (windowLinks rows time size w ++ links) =
      heldRows rows time w ++ delivered rows time links := by
  have all := firstRows_all positive (rowsWithin_cuts rows time size w)
  rw [delivered, List.flatMap_append]
  exact congrArg (· ++ _) all

variable (enough : rows.length < bound)
include enough

/-- A reading that wants more rows than a window has goes on to the next window. -/
theorem visitWindows_onward (w : Window) (rest : List Window)
    (wanted : Wants limit (r.rows.length + (heldRows rows time w).length)) :
    (Partition.visitWindows bound size (fetching (rowsWithin rows time)) (visiting limit)
        (w :: rest)).outcome r =
      (Partition.visitWindows bound size (fetching (rowsWithin rows time)) (visiting limit)
        rest).outcome
          ⟨r.asked ++ windowLinks rows time size w, r.rows ++ heldRows rows time w⟩ := by
  have all := visitPages_all positive (rowsWithin_cuts rows time size w)
    (fun link => fetching (rowsWithin rows time) ⟨link, w.start, w.stop⟩)
    (fun _ => rfl) (heldRows_short enough w) wanted
  rw [Partition.visitWindows]
  exact outcome_bind_ok all

/-- A reading that wants no more rows than a window has ends there. -/
theorem visitWindows_here (w : Window) (rest : List Window) (few : r.rows.length < n)
    (many : n ≤ r.rows.length + (heldRows rows time w).length) :
    ∃ k < (windowLinks rows time size w).length,
      r.rows.length + (delivered rows time ((windowLinks rows time size w).take k)).length < n ∧
      n ≤ r.rows.length +
        (delivered rows time ((windowLinks rows time size w).take (k + 1))).length ∧
      (Partition.visitWindows bound size (fetching (rowsWithin rows time)) (visiting (some n))
          (w :: rest)).outcome r =
        (.ok false, ⟨r.asked ++ (windowLinks rows time size w).take (k + 1),
          (r.rows ++ heldRows rows time w).take n⟩) := by
  obtain ⟨k, hk, before, reached, taken⟩ :=
    visitPages_some positive (rowsWithin_cuts rows time size w)
      (fun link => fetching (rowsWithin rows time) ⟨link, w.start, w.stop⟩)
      (fun _ => rfl) (heldRows_short enough w) few many
  refine ⟨k, by rwa [windowLinks, length_firstLinks], ?_⟩
  rw [windowLinks, take_firstLinks _ (Nat.le_of_lt hk), take_firstLinks _ (Nat.succ_le_of_lt hk),
    Partition.visitWindows]
  exact ⟨before, reached, outcome_bind_ok taken⟩

/-- A reading that wants more rows than there are visits every window. -/
theorem visitWindows_whole (windows : List Window)
    (wanted : Wants limit (r.rows.length + (windows.flatMap (heldRows rows time)).length)) :
    (Partition.visitWindows bound size (fetching (rowsWithin rows time)) (visiting limit)
        windows).outcome r =
      (.ok true, ⟨r.asked ++ windows.flatMap (windowLinks rows time size),
        r.rows ++ windows.flatMap (heldRows rows time)⟩) := by
  induction windows generalizing r with
  | nil =>
    show (Except.ok true, r) = (_, Reading.mk (r.asked ++ []) (r.rows ++ []))
    rw [List.append_nil, List.append_nil]
  | cons w rest ih =>
    rw [List.flatMap_cons, List.length_append, ← Nat.add_assoc] at wanted
    rw [visitWindows_onward positive enough w rest (wanted.of_le (Nat.le_add_right ..)), ih,
      List.flatMap_cons, List.flatMap_cons, List.append_assoc, List.append_assoc]
    rwa [List.length_append]

/-- A reading that wants no more rows than there are ends with the request that delivers them. -/
theorem visitWindows_some (windows : List Window) (few : r.rows.length < n)
    (many : n ≤ r.rows.length + (windows.flatMap (heldRows rows time)).length) :
    let links := windows.flatMap (windowLinks rows time size)
    ∃ k < links.length,
      r.rows.length + (delivered rows time (links.take k)).length < n ∧
      n ≤ r.rows.length + (delivered rows time (links.take (k + 1))).length ∧
      (Partition.visitWindows bound size (fetching (rowsWithin rows time)) (visiting (some n))
          windows).outcome r =
        (.ok false, ⟨r.asked ++ links.take (k + 1),
          (r.rows ++ windows.flatMap (heldRows rows time)).take n⟩) := by
  induction windows generalizing r with
  | nil => exact absurd many (Nat.not_le_of_lt few)
  | cons w rest ih =>
    simp only [List.flatMap_cons]
    rw [List.flatMap_cons, List.length_append, ← Nat.add_assoc] at many
    by_cases here : n ≤ r.rows.length + (heldRows rows time w).length
    · obtain ⟨k, hk, before, reached, taken⟩ :=
        visitWindows_here positive enough w rest few here
      refine ⟨k, ?_, ?_⟩
      · rw [List.length_append]
        exact Nat.lt_add_right _ hk
      · rw [List.take_append_of_le_length (Nat.le_of_lt hk),
          List.take_append_of_le_length (Nat.succ_le_of_lt hk), ← List.append_assoc,
          List.take_append_of_le_length (by rwa [List.length_append])]
        exact ⟨before, reached, taken⟩
    · have wanted : Wants (some n) (r.rows.length + (heldRows rows time w).length) := by
        rintro _ ⟨⟩
        exact Nat.lt_of_not_le here
      have longer : (r.rows ++ heldRows rows time w).length =
          r.rows.length + (heldRows rows time w).length := List.length_append
      obtain ⟨k, hk, before, reached, taken⟩ :=
        ih (r := ⟨r.asked ++ windowLinks rows time size w, r.rows ++ heldRows rows time w⟩)
          (by rw [longer]; exact Nat.lt_of_not_le here) (by rwa [longer])
      rw [longer, Nat.add_assoc, ← List.length_append,
        ← delivered_windowLinks positive] at before reached
      refine ⟨(windowLinks rows time size w).length + k, ?_, ?_⟩
      · rw [List.length_append]
        exact Nat.add_lt_add_left hk _
      · rw [Nat.add_assoc, List.take_length_add_append, List.take_length_add_append,
          visitWindows_onward positive enough w rest wanted, taken, List.append_assoc,
          List.append_assoc]
        exact ⟨before, reached, rfl⟩

end Visit

/-- A reading of a partitioned table that wants rows reads the windows of its partitions. -/
theorem outcome_partitioned (pages : TimePageLink → Except Failure (Page α)) (starts : List Int)
    (now : Int) (bound : Nat) (size : Int) (limited : limit ≠ some 0) :
    (partitioned pages starts now bound size limit).outcome r =
      (Partition.visitWindows bound size (fetching pages) (visiting limit)
        (Partition.plan starts now)).outcome r := by
  rw [partitioned, if_neg limited]
  cases starts <;> rfl

/-- The rows of the windows are the rows whose times are covered. -/
theorem heldRows_perm (rows : List α) (time : α → Int) (starts : List Int) (now : Int) :
    ((Partition.plan starts now).flatMap (heldRows rows time)).Perm
      (rows.filter fun row => Partition.covers starts now (time row)) :=
  perm_flatMap_filter (fun row => Partition.countP_plan starts now (time row)) rows

/-- A partitioned table is read to the end or up to a row. Each row whose time lies between the
first start and now, or before the last start, is visited once and no other row is, in the order of
the windows and, within one, in the order of the rows. Each window is asked for the pages that its
rows fill, and for the first one if it has none. A reading that wants no more rows than there are
ends with the request that delivers them. -/
theorem partitioned_visits_once (rows : List α) (time : α → Int) (found : Option (List Int))
    (now : Int) {size : Nat} (positive : 1 ≤ size) {bound : Nat} (enough : rows.length < bound) :
    let starts := found.getD []
    let windows := Partition.plan starts now
    let links := windows.flatMap fun w =>
      (List.range (max 1 (((heldRows rows time w).length + size - 1) / size))).map (inWindow size w)
    let visited := windows.flatMap (heldRows rows time)
    let reading := fun limit =>
      (partitioned (rowsWithin rows time) starts now bound size limit).outcome new
    (windows.map (·.start)).Pairwise (· < ·) ∧
    (starts = [] → links = [] ∧ visited = []) ∧
    (∀ first last, starts.min? = some first → starts.max? = some last →
      visited.Perm (rows.filter fun row => first ≤ time row ∧ time row ≤ max now (last - 1))) ∧
    (∀ limit, Wants limit visited.length → reading limit = (.ok true, ⟨links, visited⟩)) ∧
    reading (some 0) = (.ok false, new) ∧
    ∀ n, 0 < n → n ≤ visited.length → ∃ k < links.length,
      (delivered rows time (links.take k)).length < n ∧
      n ≤ (delivered rows time (links.take (k + 1))).length ∧
      reading (some n) = (.ok false, ⟨links.take (k + 1), visited.take n⟩) := by
  intro starts windows links visited reading
  refine ⟨Partition.plan_ascending starts now, ?_, ?_, ?_, rfl, ?_⟩
  · intro none
    have noWindow : windows = [] := by
      show Partition.plan starts now = []
      rw [none]
      rfl
    exact ⟨by simp only [links, noWindow, List.flatMap_nil],
      by simp only [visited, noWindow, List.flatMap_nil]⟩
  · intro first last least greatest
    have covered : (fun row => Partition.covers starts now (time row)) =
        fun row => decide (first ≤ time row ∧ time row ≤ max now (last - 1)) := by
      funext row
      rw [Bool.eq_iff_iff, decide_eq_true_iff, Partition.covers_iff_between least greatest]
    rw [← covered]
    exact heldRows_perm rows time starts now
  · intro limit wanted
    have limited : limit ≠ some 0 := fun h => Nat.not_lt_zero _ (wanted 0 h)
    have more : Wants limit ((new : Reading TimePageLink α).rows.length + visited.length) := by
      rwa [new, List.length_nil, Nat.zero_add]
    have whole := visitWindows_whole positive enough windows more
    exact (outcome_partitioned _ starts now bound size limited).trans whole
  · intro n wanted there
    have limited : some n ≠ some 0 := fun h => Nat.ne_of_gt wanted (Option.some.inj h)
    obtain ⟨k, hk, before, reached, taken⟩ :=
      visitWindows_some (r := new) (n := n) positive enough windows (by exact wanted)
        (by rwa [new, List.length_nil, Nat.zero_add])
    rw [new, List.length_nil, Nat.zero_add] at before reached
    exact ⟨k, hk, before, reached,
      (outcome_partitioned _ starts now bound size limited).trans taken⟩

/-- Times at the edges of two windows, and the first three of those that they hold. -/
theorem partitioned_visits_once_edges :
    let pages := timesWithin [5, 12, 20, 19, 40, 10, 30]
    1 ≤ 2 ∧ 7 < 8 ∧ [20, 10].min? = some (10 : Int) ∧ [20, 10].max? = some (20 : Int) ∧
      (partitioned pages [20, 10] 30 8 2 none).outcome new =
        (.ok true, ⟨[⟨⟨2, 0⟩, 10, 19⟩, ⟨⟨2, 1⟩, 10, 19⟩, ⟨⟨2, 0⟩, 20, 30⟩], [12, 19, 10, 20, 30]⟩) ∧
      (partitioned pages [20, 10] 30 8 2 (some 3)).outcome new =
        (.ok false, ⟨[⟨⟨2, 0⟩, 10, 19⟩, ⟨⟨2, 1⟩, 10, 19⟩], [12, 19, 10]⟩) := by
  dsimp only
  rw [timesWithin_eq]
  obtain ⟨-, -, -, whole, -, part⟩ := partitioned_visits_once [5, 12, 20, 19, 40, 10, 30] id
    (some [20, 10]) 30 (show 1 ≤ 2 by decide) (show 7 < 8 by decide)
  refine ⟨by decide, by decide, by decide, by decide, whole none nofun, ?_⟩
  obtain ⟨k, hk, before, reached, taken⟩ := part 3 (by decide) (by decide)
  have second : k = 1 := by
    clear taken
    revert k
    decide
  rw [second] at taken
  exact taken

end Reading

end Handover
