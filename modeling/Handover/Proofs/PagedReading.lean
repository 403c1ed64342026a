import Handover.Proofs.Act
import Handover.Proofs.Paging
import Handover.Rehearsal.Paging

namespace Handover

open Act

variable {κ α : Type}

namespace Reading

section Pages

variable (pages : κ → Except Failure (Page α)) (links : Nat → κ)

/-- The rows of the page at a link; there are none if it cannot be fetched. -/
def rowsAt (link : κ) : List α :=
  match pages link with
  | .ok page => page.rows
  | .error _ => []

/-- Whether the page at a link is there and says that another one follows. -/
def goesOn (link : κ) : Bool :=
  match pages link with
  | .ok page => page.hasNext
  | .error _ => false

/-- The links of the first pages. -/
def firstLinks (count : Nat) : List κ :=
  (List.range count).map links

/-- The rows of the first pages. -/
def firstRows (count : Nat) : List α :=
  (firstLinks links count).flatMap (rowsAt pages)

/-- A reading that has gone on with the first pages of a source. -/
def past (r : Reading κ α) (count : Nat) : Reading κ α :=
  ⟨r.asked ++ firstLinks links count, r.rows ++ firstRows pages links count⟩

end Pages

variable {pages : κ → Except Failure (Page α)} {links : Nat → κ} {r : Reading κ α}
variable {limit : Option Nat} {n count : Nat}

theorem firstLinks_succ (links : Nat → κ) (count : Nat) :
    firstLinks links (count + 1) = firstLinks links count ++ [links count] := by
  rw [firstLinks, List.range_succ, List.map_append]
  rfl

theorem length_firstLinks (links : Nat → κ) (count : Nat) :
    (firstLinks links count).length = count := by
  rw [firstLinks, List.length_map, List.length_range]

theorem take_firstLinks (links : Nat → κ) {j count : Nat} (h : j ≤ count) :
    (firstLinks links count).take j = firstLinks links j := by
  rw [firstLinks, ← List.map_take, List.take_range, Nat.min_eq_left h]
  rfl

theorem firstRows_succ (pages : κ → Except Failure (Page α)) (links : Nat → κ) (count : Nat) :
    firstRows pages links (count + 1) =
      firstRows pages links count ++ rowsAt pages (links count) := by
  rw [firstRows, firstLinks_succ, List.flatMap_append, List.flatMap_singleton]
  rfl

theorem past_succ (pages : κ → Except Failure (Page α)) (links : Nat → κ) (r : Reading κ α)
    (count : Nat) : r.past pages links (count + 1) =
      ⟨(r.past pages links count).asked ++ [links count],
        (r.past pages links count).rows ++ rowsAt pages (links count)⟩ := by
  rw [past, past, firstLinks_succ, firstRows_succ, List.append_assoc, List.append_assoc]

theorem past_length (pages : κ → Except Failure (Page α)) (links : Nat → κ) (r : Reading κ α)
    (count : Nat) : (r.past pages links count).rows.length =
      r.rows.length + (firstRows pages links count).length :=
  List.length_append

theorem firstRows_prefix (pages : κ → Except Failure (Page α)) (links : Nat → κ) {j k : Nat}
    (h : j ≤ k) : firstRows pages links j <+: firstRows pages links k := by
  induction h with
  | refl => exact List.prefix_rfl
  | step _ ih =>
    rw [firstRows_succ]
    exact ih.trans (List.prefix_append ..)

/-- Later pages add nothing to the rows that earlier ones have delivered. -/
theorem take_firstRows (pages : κ → Except Failure (Page α)) (links : Nat → κ) (before : List α)
    {j k : Nat} (h : j ≤ k)
    (delivered : n ≤ before.length + (firstRows pages links j).length) :
    (before ++ firstRows pages links k).take n = (before ++ firstRows pages links j).take n := by
  obtain ⟨others, hothers⟩ := firstRows_prefix pages links h
  rw [← hothers, ← List.append_assoc, List.take_append_of_le_length]
  rwa [List.length_append]

/-- Rows that are there are delivered by a first page. -/
theorem first_page (pages : κ → Except Failure (Page α)) (links : Nat → κ) (positive : 0 < n)
    (k : Nat) (there : n ≤ (firstRows pages links (k + 1)).length) :
    ∃ j ≤ k, (firstRows pages links j).length < n ∧ n ≤ (firstRows pages links (j + 1)).length := by
  induction k with
  | zero => exact ⟨0, Nat.le_refl _, positive, there⟩
  | succ k ih =>
    by_cases earlier : n ≤ (firstRows pages links (k + 1)).length
    · obtain ⟨j, hj, delivered⟩ := ih earlier
      exact ⟨j, Nat.le_succ_of_le hj, delivered⟩
    · exact ⟨k + 1, Nat.le_refl _, Nat.lt_of_not_le earlier, there⟩

/-- Whether a reading that has visited so many rows wants more. -/
def Wants (limit : Option Nat) (count : Nat) : Prop :=
  ∀ n, limit = some n → count < n

theorem Wants.of_le (h : Wants limit count) {fewer : Nat} (le : fewer ≤ count) :
    Wants limit fewer :=
  fun n hn => Nat.lt_of_le_of_lt le (h n hn)

theorem wants_iff : (limit.all fun n => decide (count < n)) = true ↔ Wants limit count := by
  cases limit with
  | none => simp [Wants]
  | some n => simp [Wants]

theorem outcome_visiting (limit : Option Nat) (row : α) (r : Reading κ α) :
    (visiting limit row).outcome r =
      (.ok (limit.all fun n => r.rows.length + 1 < n), ⟨r.asked, r.rows ++ [row]⟩) := by
  show (Except.ok (limit.all fun n => decide ((r.rows ++ [row]).length < n)), _) = _
  rw [List.length_append, List.length_singleton]

theorem outcome_fetching (pages : κ → Except Failure (Page α)) (link : κ) (r : Reading κ α) :
    (fetching pages link).outcome r = (pages link, ⟨r.asked ++ [link], r.rows⟩) :=
  rfl

/-- As long as more rows are wanted, all are visited. -/
theorem visitRows_whole (rows : List α) (wanted : Wants limit (r.rows.length + rows.length)) :
    (Pager.visitRows (visiting limit) rows).outcome r = (.ok true, ⟨r.asked, r.rows ++ rows⟩) := by
  induction rows generalizing r with
  | nil =>
    rw [List.append_nil]
    rfl
  | cons row rest ih =>
    rw [List.length_cons] at wanted
    have more : (limit.all fun n => decide (r.rows.length + 1 < n)) = true :=
      wants_iff.mpr (wanted.of_le (by omega))
    rw [Pager.visitRows, outcome_bind_ok (outcome_visiting limit row r), more, if_pos rfl]
    rw [ih (r := ⟨r.asked, r.rows ++ [row]⟩), List.append_assoc, List.singleton_append]
    rw [List.length_append, List.length_singleton]
    exact wanted.of_le (by omega)

/-- The visit of the last row that is wanted ends a reading. -/
theorem visitRows_part (rows : List α) (few : r.rows.length < n)
    (many : n ≤ r.rows.length + rows.length) :
    (Pager.visitRows (visiting (some n)) rows).outcome r =
      (.ok false, ⟨r.asked, (r.rows ++ rows).take n⟩) := by
  induction rows generalizing r with
  | nil =>
    rw [List.length_nil] at many
    omega
  | cons row rest ih =>
    rw [List.length_cons] at many
    rw [Pager.visitRows, outcome_bind_ok (outcome_visiting (some n) row r), Option.all_some]
    by_cases more : r.rows.length + 1 < n
    · have length : (r.rows ++ [row]).length = r.rows.length + 1 := by simp
      rw [decide_eq_true more, if_pos rfl, ih (r := ⟨r.asked, r.rows ++ [row]⟩),
        List.append_assoc, List.singleton_append]
      · rwa [length]
      · rw [length]
        omega
    · obtain rfl : n = (r.rows ++ [row]).length := by
        rw [List.length_append, List.length_singleton]
        omega
      have parts : r.rows ++ row :: rest = r.rows ++ [row] ++ rest := by simp
      rw [decide_eq_false more, if_neg Bool.false_ne_true, parts, List.take_left]
      rfl

section Visit

variable {size : Int} {fetch : PageLink → Act (Reading κ α) (Page α)}
variable (fetches : ∀ p : Nat, fetch ⟨size, p⟩ = fetching pages (links p))
include fetches

/-- A page after which there is another one, and more rows are wanted than it has. -/
theorem visitFrom_onward {p : Nat} (next : goesOn pages (links p) = true)
    (wanted : Wants limit (r.rows.length + (rowsAt pages (links p)).length)) (bound : Nat) :
    (Pager.visitFrom fetch (visiting limit) (bound + 1) ⟨size, p⟩).outcome r =
      (Pager.visitFrom fetch (visiting limit) bound ⟨size, (p + 1 : Nat)⟩).outcome
        ⟨r.asked ++ [links p], r.rows ++ rowsAt pages (links p)⟩ := by
  have link : PageLink.next ⟨size, p⟩ = ⟨size, ((p + 1 : Nat) : Int)⟩ := rfl
  have fetched := outcome_fetching pages (links p) r
  unfold goesOn at next
  unfold rowsAt at wanted ⊢
  cases found : pages (links p) with
  | error failure =>
    rw [found] at next
    cases next
  | ok page =>
    rw [found] at next wanted fetched
    have visited := visitRows_whole (r := ⟨r.asked ++ [links p], r.rows⟩) page.rows wanted
    rw [Pager.visitFrom, fetches, outcome_bind_ok fetched, outcome_bind_ok visited, if_pos rfl,
      if_pos next, link]

/-- A page that is the last one or cannot be fetched. -/
theorem visitFrom_last {p : Nat} (last : goesOn pages (links p) = false)
    (wanted : Wants limit (r.rows.length + (rowsAt pages (links p)).length)) (bound : Nat) :
    (Pager.visitFrom fetch (visiting limit) (bound + 1) ⟨size, p⟩).outcome r =
      ((pages (links p)).map fun _ => true,
        ⟨r.asked ++ [links p], r.rows ++ rowsAt pages (links p)⟩) := by
  have fetched := outcome_fetching pages (links p) r
  unfold goesOn at last
  unfold rowsAt at wanted ⊢
  cases found : pages (links p) with
  | error failure =>
    rw [found] at fetched
    rw [Pager.visitFrom, fetches, outcome_bind_error fetched, List.append_nil]
    rfl
  | ok page =>
    rw [found] at last wanted fetched
    have visited := visitRows_whole (r := ⟨r.asked ++ [links p], r.rows⟩) page.rows wanted
    rw [Pager.visitFrom, fetches, outcome_bind_ok fetched, outcome_bind_ok visited, if_pos rfl,
      show page.hasNext = false from last, if_neg Bool.false_ne_true]
    rfl

/-- A page that delivers the last row that is wanted. -/
theorem visitFrom_part {p : Nat} (few : r.rows.length < n)
    (many : n ≤ r.rows.length + (rowsAt pages (links p)).length) (bound : Nat) :
    (Pager.visitFrom fetch (visiting (some n)) (bound + 1) ⟨size, p⟩).outcome r =
      (.ok false, ⟨r.asked ++ [links p], (r.rows ++ rowsAt pages (links p)).take n⟩) := by
  have fetched := outcome_fetching pages (links p) r
  unfold rowsAt at many ⊢
  cases found : pages (links p) with
  | error failure =>
    rw [found] at many
    exact absurd many (Nat.not_le_of_lt few)
  | ok page =>
    rw [found] at many fetched
    have visited := visitRows_part (r := ⟨r.asked ++ [links p], r.rows⟩) page.rows few many
    rw [Pager.visitFrom, fetches, outcome_bind_ok fetched, outcome_bind_ok visited,
      if_neg Bool.false_ne_true]
    rfl

/-- Pages that are all followed by others are read one after another, each once. -/
theorem visitFrom_past (bound p : Nat) (next : ∀ q < p, goesOn pages (links q) = true)
    (wanted : Wants limit (r.rows.length + (firstRows pages links p).length)) :
    (Pager.visitFrom fetch (visiting limit) (p + bound) ⟨size, (0 : Nat)⟩).outcome r =
      (Pager.visitFrom fetch (visiting limit) bound ⟨size, p⟩).outcome (r.past pages links p) := by
  induction p generalizing bound with
  | zero =>
    have start : r.past pages links 0 = r := by
      show Reading.mk (r.asked ++ []) (r.rows ++ []) = r
      rw [List.append_nil, List.append_nil]
    rw [start, Nat.zero_add]
  | succ p ih =>
    rw [firstRows_succ, List.length_append] at wanted
    have further := ih (bound + 1) (fun q hq => next q (Nat.lt_succ_of_lt hq))
      (wanted.of_le (by omega))
    rw [show p + 1 + bound = p + (bound + 1) by omega, further,
      visitFrom_onward fetches (next p (Nat.lt_succ_self p)), past_succ]
    rw [past_length]
    exact wanted.of_le (by omega)

variable (positive : 0 < size) {bound : Nat}
include positive

/-- A reading that wants more rows than there are comes to the first page that is not followed by
another one, and ends with it or with its failure. -/
theorem visitPages_whole {m : Nat} (next : ∀ p < m, goesOn pages (links p) = true)
    (last : goesOn pages (links m) = false) (enough : m < bound)
    (wanted : Wants limit (r.rows.length + (firstRows pages links (m + 1)).length)) :
    (Pager.visitPages bound size fetch (visiting limit)).outcome r =
      ((pages (links m)).map fun _ => true, r.past pages links (m + 1)) := by
  obtain ⟨spare, rfl⟩ : ∃ spare, bound = m + (spare + 1) := ⟨bound - m - 1, by omega⟩
  rw [firstRows_succ, List.length_append] at wanted
  rw [← Nat.add_assoc] at wanted
  have through := visitFrom_past fetches (spare + 1) m next (wanted.of_le (Nat.le_add_right ..))
  rw [← past_length] at wanted
  rw [Pager.visitPages, if_neg (by omega)]
  refine through.trans ?_
  rw [visitFrom_last fetches last wanted, past_succ]

/-- A reading that wants no more rows than there are comes to the first page that has delivered as
many, and asks for no other one after it. -/
theorem visitPages_part {j : Nat} (next : ∀ p < j, goesOn pages (links p) = true)
    (few : r.rows.length + (firstRows pages links j).length < n)
    (many : n ≤ r.rows.length + (firstRows pages links (j + 1)).length) (enough : j < bound) :
    (Pager.visitPages bound size fetch (visiting (some n))).outcome r =
      (.ok false, ⟨r.asked ++ firstLinks links (j + 1),
        (r.rows ++ firstRows pages links (j + 1)).take n⟩) := by
  obtain ⟨spare, rfl⟩ : ∃ spare, bound = j + (spare + 1) := ⟨bound - j - 1, by omega⟩
  have wanted : Wants (some n) (r.rows.length + (firstRows pages links j).length) := by
    rintro _ ⟨⟩
    exact few
  have through := visitFrom_past fetches (spare + 1) j next wanted
  rw [Pager.visitPages, if_neg (by omega)]
  refine through.trans ?_
  rw [firstRows_succ, List.length_append, ← Nat.add_assoc] at many
  rw [← past_length] at few many
  rw [visitFrom_part fetches few many, firstLinks_succ, firstRows_succ, ← List.append_assoc,
    ← List.append_assoc]
  rfl

end Visit

/-- A reading that comes after an earlier one. -/
def after (earlier r : Reading κ α) : Reading κ α :=
  ⟨earlier.asked ++ r.asked, earlier.rows ++ r.rows⟩

/-- An action does after an earlier reading what another one does without it. -/
def Repeats {β : Type} (earlier : Reading κ α) (act again : Act (Reading κ α) β) : Prop :=
  ∀ r, again.outcome (earlier.after r) =
    ((act.outcome r).1, earlier.after (act.outcome r).2)

namespace Repeats

variable {β γ : Type} {earlier : Reading κ α} {act again : Act (Reading κ α) β}

theorem pure (b : β) : Repeats earlier (Pure.pure b) (Pure.pure b) :=
  fun _ => rfl

theorem bind {next nextAgain : β → Act (Reading κ α) γ} (h : Repeats earlier act again)
    (h' : ∀ b, Repeats earlier (next b) (nextAgain b)) :
    Repeats earlier (act >>= next) (again >>= nextAgain) := by
  intro r
  have first := h r
  rcases run : act.outcome r with ⟨failure | b, s⟩
  · rw [run] at first
    rw [outcome_bind_error run, outcome_bind_error first]
  · rw [run] at first
    rw [outcome_bind_ok run, outcome_bind_ok first]
    exact h' b s

theorem choose {other otherAgain : Act (Reading κ α) β} (h : Repeats earlier act again)
    (h' : Repeats earlier other otherAgain) (c : Prop) [Decidable c] :
    Repeats earlier (if c then act else other) (if c then again else otherAgain) := by
  split
  · exact h
  · exact h'

theorem fetching (pages : κ → Except Failure (Page α)) (link : κ) :
    Repeats earlier (fetching pages link) (fetching pages link) := by
  intro r
  rw [outcome_fetching, outcome_fetching]
  show (_, Reading.mk (earlier.asked ++ r.asked ++ [link]) _) = _
  rw [List.append_assoc]
  rfl

theorem visiting (limit : Option Nat) (row : α) :
    Repeats earlier (visiting limit row)
      (visiting (limit.map (earlier.rows.length + ·)) row) := by
  intro r
  have rows : (earlier.after r).rows ++ [row] = earlier.rows ++ (r.rows ++ [row]) :=
    List.append_assoc ..
  have count : (earlier.after r).rows.length = earlier.rows.length + r.rows.length :=
    List.length_append
  rw [outcome_visiting, outcome_visiting, rows, count]
  cases limit with
  | none => rfl
  | some n => simp [Nat.add_assoc, after]

theorem visitRows {visit visitAgain : α → Act (Reading κ α) Bool}
    (h : ∀ row, Repeats earlier (visit row) (visitAgain row)) (rows : List α) :
    Repeats earlier (Pager.visitRows visit rows) (Pager.visitRows visitAgain rows) := by
  induction rows with
  | nil => exact pure true
  | cons row rest ih =>
    exact bind (h row) fun wanted => choose ih (pure false) _

theorem visitFrom {fetch : PageLink → Act (Reading κ α) (Page α)}
    {visit visitAgain : α → Act (Reading κ α) Bool}
    (fetches : ∀ link, Repeats earlier (fetch link) (fetch link))
    (h : ∀ row, Repeats earlier (visit row) (visitAgain row)) (bound : Nat) (link : PageLink) :
    Repeats earlier (Pager.visitFrom fetch visit bound link)
      (Pager.visitFrom fetch visitAgain bound link) := by
  induction bound generalizing link with
  | zero => exact fun _ => rfl
  | succ bound ih =>
    exact bind (fetches link) fun page => bind (visitRows h page.rows) fun wanted =>
      choose (choose (ih link.next) (pure true) _) (pure false) _

end Repeats

section Paged

variable {pages : PageLink → Except Failure (Page α)}

/-- A reading of pages is the same after an earlier one, however that one ended. -/
theorem paged_after (pages : PageLink → Except Failure (Page α)) (bound : Nat) (size : Int)
    (limited : limit ≠ some 0) (earlier : Reading PageLink α) :
    (paged pages bound size (limit.map (earlier.rows.length + ·))).outcome earlier =
      (((paged pages bound size limit).outcome new).1,
        earlier.after ((paged pages bound size limit).outcome new).2) := by
  have limitedAgain : limit.map (earlier.rows.length + ·) ≠ some 0 := by
    cases limit with
    | none => exact limited
    | some n =>
      intro h
      rw [Option.map_some, Option.some.injEq] at h
      exact limited (congrArg some (Nat.eq_zero_of_add_eq_zero_left h))
  have start : earlier.after new = earlier := by simp [after, new]
  rw [paged, paged, if_neg limited, if_neg limitedAgain, Pager.visitPages, Pager.visitPages]
  split
  · exact congrArg (Except.error Failure.pageSizeNotPositive, ·) start.symm
  · have repeats : Repeats earlier _ _ :=
      .visitFrom (.fetching pages) (.visiting limit) bound (.first size)
    have again := repeats new
    rwa [start] at again

/-- Without a row that is wanted, no page is asked for. -/
theorem paged_nothing (pages : PageLink → Except Failure (Page α)) (bound : Nat) (size : Int)
    (r : Reading PageLink α) : (paged pages bound size (some 0)).outcome r = (.ok false, r) :=
  rfl

variable {size : Nat} {links : Nat → PageLink} {bound : Nat}

/-- The links to the pages of a size. -/
def sized (size : Nat) (page : Nat) : PageLink :=
  ⟨size, page⟩

theorem paged_whole (positive : 0 < size) {m : Nat}
    (next : ∀ p < m, goesOn pages (sized size p) = true)
    (last : goesOn pages (sized size m) = false) (enough : m < bound)
    (wanted : Wants limit (firstRows pages (sized size) (m + 1)).length) :
    (paged pages bound size limit).outcome new =
      ((pages (sized size m)).map fun _ => true,
        ⟨firstLinks (sized size) (m + 1), firstRows pages (sized size) (m + 1)⟩) := by
  have limited : limit ≠ some 0 := fun h => Nat.not_lt_zero _ (wanted 0 h)
  have whole := visitPages_whole (r := new) (fun p => rfl : ∀ p : Nat, _) (by omega) next last
    enough (by rwa [new, List.length_nil, Nat.zero_add])
  rw [paged, if_neg limited]
  exact whole

theorem paged_part (positive : 0 < size) {k : Nat}
    (next : ∀ p < k, goesOn pages (sized size p) = true) (wanted : 0 < n)
    (there : n ≤ (firstRows pages (sized size) (k + 1)).length) (enough : k < bound) :
    ∃ j ≤ k, (firstRows pages (sized size) j).length < n ∧
      n ≤ (firstRows pages (sized size) (j + 1)).length ∧
      (paged pages bound size (some n)).outcome new =
        (.ok false, ⟨firstLinks (sized size) (j + 1),
          (firstRows pages (sized size) (k + 1)).take n⟩) := by
  obtain ⟨j, hj, few, many⟩ := first_page pages (sized size) wanted k there
  refine ⟨j, hj, few, many, ?_⟩
  have limited : some n ≠ some 0 := fun h => Nat.ne_of_gt wanted (Option.some.inj h)
  have part := visitPages_part (r := new) (fun p => rfl : ∀ p : Nat, _) (by omega)
    (fun p hp => next p (Nat.lt_of_lt_of_le hp hj))
    (by rwa [new, List.length_nil, Nat.zero_add]) (by rwa [new, List.length_nil, Nat.zero_add])
    (Nat.lt_of_le_of_lt hj enough)
  have reached : n ≤ ([] : List α).length + (firstRows pages (sized size) (j + 1)).length := by
    rwa [List.length_nil, Nat.zero_add]
  have taken := take_firstRows pages (sized size) [] (Nat.succ_le_succ hj) reached
  rw [paged, if_neg limited]
  exact part.trans (congrArg (fun rows => (_, Reading.mk _ rows)) taken.symm)

end Paged

section Cut

variable {size : Nat}

/-- The number of pages that so many rows fill; without rows it is one. -/
def pageCount (rows size : Nat) : Nat :=
  max 1 ((rows + size - 1) / size)

theorem pageCount_pos (rows size : Nat) : 0 < pageCount rows size :=
  Nat.le_max_left ..

theorem lt_pageCount_iff (rows : Nat) (positive : 0 < size) (p : Nat) :
    p + 1 < pageCount rows size ↔ (p + 1) * size < rows := by
  have fills : p + 1 < (rows + size - 1) / size ↔ (p + 1) * size < rows := by
    rw [← Nat.succ_le_iff, Nat.le_div_iff_mul_le positive, Nat.succ_eq_add_one,
      Nat.add_mul (p + 1) 1, Nat.one_mul]
    omega
  rw [pageCount, ← fills]
  omega

theorem exists_pageCount (rows size : Nat) : ∃ last, pageCount rows size = last + 1 :=
  Nat.exists_eq_add_one.mpr (pageCount_pos rows size)

theorem le_pageCount_mul (rows : Nat) (positive : 0 < size) :
    rows ≤ pageCount rows size * size := by
  obtain ⟨p, hp⟩ := exists_pageCount rows size
  have last := mt (lt_pageCount_iff rows positive p).mpr
  rw [hp] at last ⊢
  omega

theorem pageCount_le {rows bound : Nat} (positive : 0 < size) (enough : rows < bound) :
    pageCount rows size ≤ bound := by
  obtain ⟨p, hp⟩ := exists_pageCount rows size
  cases p with
  | zero => omega
  | succ p =>
    have full := (lt_pageCount_iff rows positive p).mp (by omega)
    have : p + 1 ≤ (p + 1) * size := Nat.le_mul_of_pos_right _ positive
    omega

variable {rows : List α} (positive : 0 < size)
variable (cuts : ∀ p : Nat, pages (links p) = Page.cut rows ⟨size, p⟩)
include positive cuts

theorem rowsAt_cut (p : Nat) : rowsAt pages (links p) = (rows.drop (p * size)).take size := by
  obtain ⟨_, _, cut⟩ := Page.cut_natCast rows positive p
  rw [rowsAt, cuts, cut]

/-- The pages before the last one are followed by another one. -/
theorem goesOn_cut (p : Nat) :
    goesOn pages (links p) = decide (p + 1 < pageCount rows.length size) := by
  obtain ⟨_, _, cut⟩ := Page.cut_natCast rows positive p
  have full : p * size + size = (p + 1) * size := by rw [Nat.add_mul, Nat.one_mul]
  rw [goesOn, cuts, cut]
  simp only [full, lt_pageCount_iff _ positive]

theorem firstRows_cut (count : Nat) : firstRows pages links count = rows.take (count * size) := by
  induction count with
  | zero => rw [Nat.zero_mul, List.take_zero]; rfl
  | succ count ih =>
    rw [firstRows_succ, ih, rowsAt_cut positive cuts, Nat.add_mul, Nat.one_mul, List.take_add]

theorem firstRows_all : firstRows pages links (pageCount rows.length size) = rows := by
  rw [firstRows_cut positive cuts, List.take_of_length_le (le_pageCount_mul _ positive)]

/-- A reading that wants more rows than there are visits them all, and asks for each page once. -/
theorem visitPages_all (fetch : PageLink → Act (Reading κ α) (Page α))
    (fetches : ∀ p : Nat, fetch ⟨size, p⟩ = fetching pages (links p)) {bound : Nat}
    (enough : rows.length < bound) (wanted : Wants limit (r.rows.length + rows.length)) :
    (Pager.visitPages bound size fetch (visiting limit)).outcome r =
      (.ok true, ⟨r.asked ++ firstLinks links (pageCount rows.length size), r.rows ++ rows⟩) := by
  have few := pageCount_le positive enough
  have all := firstRows_all positive cuts
  obtain ⟨m, hm⟩ := exists_pageCount rows.length size
  have next : ∀ p < m, goesOn pages (links p) = true := by
    intro p hp
    rw [goesOn_cut positive cuts, hm]
    exact decide_eq_true (Nat.succ_lt_succ hp)
  have last : goesOn pages (links m) = false := by
    rw [goesOn_cut positive cuts, hm]
    exact decide_eq_false (Nat.lt_irrefl _)
  obtain ⟨_, _, cut⟩ := Page.cut_natCast rows positive m
  rw [hm] at few all
  rw [visitPages_whole fetches (by omega) next last few (by rwa [all]), past, all, hm, cuts, cut]
  rfl

/-- A reading that wants no more rows than there are ends with the page that has as many. -/
theorem visitPages_some (fetch : PageLink → Act (Reading κ α) (Page α))
    (fetches : ∀ p : Nat, fetch ⟨size, p⟩ = fetching pages (links p)) {bound : Nat}
    (enough : rows.length < bound) (few : r.rows.length < n)
    (many : n ≤ r.rows.length + rows.length) :
    ∃ j < pageCount rows.length size,
      r.rows.length + (firstRows pages links j).length < n ∧
      n ≤ r.rows.length + (firstRows pages links (j + 1)).length ∧
      (Pager.visitPages bound size fetch (visiting (some n))).outcome r =
        (.ok false, ⟨r.asked ++ firstLinks links (j + 1), (r.rows ++ rows).take n⟩) := by
  have within := pageCount_le positive enough
  have all := firstRows_all positive cuts
  obtain ⟨m, hm⟩ := exists_pageCount rows.length size
  rw [hm] at within all ⊢
  obtain ⟨j, hj, before, delivered⟩ :=
    first_page pages links (show 0 < n - r.rows.length by omega) m (by rw [all]; omega)
  have next : ∀ p < j, goesOn pages (links p) = true := by
    intro p hp
    rw [goesOn_cut positive cuts, hm]
    exact decide_eq_true (by omega)
  have taken := take_firstRows pages links r.rows (Nat.add_le_add_right hj 1) (show n ≤ _ by omega)
  rw [all] at taken
  refine ⟨j, Nat.lt_succ_of_le hj, by omega, by omega, ?_⟩
  rw [visitPages_part fetches (by omega) next (by omega) (by omega) (by omega), taken]

end Cut

end Reading

end Handover
