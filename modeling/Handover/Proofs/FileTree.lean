import Handover.Storage.FileTree

namespace Handover

def FileTree.Distinct (t : FileTree) : Prop :=
  (t.nodes.map (·.1)).Nodup

/-- Whether a walk to a path passes through folders only. -/
def FileTree.LeadsTo (t : FileTree) (path : Path) : Prop :=
  ∀ above, above <+: path → above ≠ path → t.node? above = some .folder

namespace FileTree

variable {t : FileTree} {path : Path}

@[simp] theorem node?_nil (t : FileTree) : t.node? [] = some .folder := rfl

theorem node?_of_ne_nil (t : FileTree) (h : path ≠ []) : t.node? path = t.nodes.lookup path := by
  rw [node?, if_neg (by simpa using h)]

theorem lookup_map_replaced (nodes : List (Path × Node)) (path : Path) (node : Node) (q : Path) :
    (nodes.map fun entry => if entry.1 = path then (path, node) else entry).lookup q =
      if q = path then (nodes.lookup path).map fun _ => node else nodes.lookup q := by
  induction nodes with
  | nil => simp
  | cons entry rest ih =>
    obtain ⟨p, n⟩ := entry
    by_cases hq : q = path
    · subst hq
      by_cases hp : p = q
      · subst hp
        simp
      · have hne : (q == p) = false := beq_false_of_ne (Ne.symm hp)
        simp only [List.map_cons, if_neg hp, List.lookup_cons, hne, ih, if_true]
    · rw [if_neg hq] at ih ⊢
      by_cases hp : p = path
      · subst hp
        have hne : (q == p) = false := beq_false_of_ne hq
        simp only [List.map_cons, if_true, List.lookup_cons, hne, ih]
      · simp only [List.map_cons, if_neg hp, List.lookup_cons, ih]

theorem node?_put (t : FileTree) (h : path ≠ []) (node : Node) (q : Path) :
    (t.put path node).node? q = if q = path then some node else t.node? q := by
  by_cases hq : q = []
  · subst hq
    rw [node?_nil, node?_nil, if_neg (Ne.symm h)]
  · rw [node?_of_ne_nil _ hq, node?_of_ne_nil t hq, put, node?_of_ne_nil t h]
    cases hl : t.nodes.lookup path with
    | some old =>
      rw [if_pos (by simp), lookup_map_replaced, hl]
      rfl
    | none =>
      rw [if_neg (by simp), List.lookup_append]
      by_cases hp : q = path
      · subst hp
        simp [hl]
      · have hne : (q == path) = false := beq_false_of_ne hp
        simp only [if_neg hp, List.lookup_cons, hne, List.lookup_nil, Option.or_none]

theorem node?_put_self (t : FileTree) (h : path ≠ []) (node : Node) :
    (t.put path node).node? path = some node := by
  rw [node?_put t h, if_pos rfl]

theorem node?_put_of_ne (t : FileTree) (h : path ≠ []) (node : Node) {q : Path} (hq : q ≠ path) :
    (t.put path node).node? q = t.node? q := by
  rw [node?_put t h, if_neg hq]

/-- Of two nodes that are put at one path, the second one stays. -/
theorem put_put (t : FileTree) (h : path ≠ []) (first second : Node) :
    (t.put path first).put path second = t.put path second := by
  have there : ((t.put path first).node? path).isSome := by
    rw [node?_put_self t h]
    rfl
  rw [put, if_pos there, put, put]
  split
  next =>
    congr 1
    rw [List.map_map]
    refine List.map_congr_left fun entry _ => ?_
    by_cases own : entry.1 = path <;> simp [own]
  next absent =>
    congr 1
    rw [node?_of_ne_nil t h, Option.not_isSome_iff_eq_none, List.lookup_eq_none_iff] at absent
    have others : t.nodes.map (fun entry => if entry.1 = path then (path, second) else entry) =
        t.nodes := by
      refine (List.map_congr_left fun entry hentry => ?_).trans (List.map_id _)
      have other := absent entry hentry
      exact if_neg fun own => by simp [own] at other
    rw [List.map_append, others]
    simp

theorem lookup_filter_path (nodes : List (Path × Node)) (keep : Path → Bool) (q : Path) :
    (nodes.filter fun entry => keep entry.1).lookup q =
      if keep q then nodes.lookup q else none := by
  induction nodes with
  | nil => simp
  | cons entry rest ih =>
    obtain ⟨p, n⟩ := entry
    rw [List.filter_cons]
    by_cases hp : q = p
    · subst hp
      cases hk : keep q with
      | true => simp
      | false => simpa [hk] using ih
    · have hne : (q == p) = false := beq_false_of_ne hp
      cases keep p <;> simp [List.lookup_cons, hne, ih]

theorem node?_removeTree (t : FileTree) (h : path ≠ []) (q : Path) :
    (t.removeTree path).node? q = if path <+: q then none else t.node? q := by
  by_cases hq : q = []
  · subst hq
    rw [node?_nil, node?_nil, if_neg (by simpa using h)]
  · rw [node?_of_ne_nil _ hq, node?_of_ne_nil t hq, removeTree]
    simp only [lookup_filter_path t.nodes (fun p => !path.isPrefixOf p), Bool.not_eq_true',
      Bool.eq_false_iff, ne_eq, List.isPrefixOf_iff_prefix]
    by_cases hp : path <+: q <;> simp [hp]

/-- The folders of a path of at most some length are there once they have been made. -/
theorem node?_makeFolders_upTo (t : FileTree) (path : Path) (n : Nat) (hn : n ≤ path.length)
    (q : Path) :
    ((List.range n).foldl (fun t k =>
        let above := path.take (k + 1)
        if (t.node? above).isSome then t else t.put above .folder) t).node? q =
      if q <+: path ∧ q.length ≤ n then some ((t.node? q).getD .folder) else t.node? q := by
  induction n generalizing q with
  | zero =>
    by_cases hq : q = []
    · subst hq
      simp
    · have : ¬q.length ≤ 0 := by simpa using hq
      simp [this]
  | succ n ih =>
    rw [List.range_succ, List.foldl_append, List.foldl_cons, List.foldl_nil]
    have hlen : (path.take (n + 1)).length = n + 1 := by rw [List.length_take]; omega
    have hne : path.take (n + 1) ≠ [] := by
      intro h
      rw [h] at hlen
      simp at hlen
    have hold : ∀ q : Path, q ≠ path.take (n + 1) →
        (q <+: path ∧ q.length ≤ n + 1 ↔ q <+: path ∧ q.length ≤ n) := by
      intro q hq
      refine ⟨fun ⟨hp, hl⟩ => ⟨hp, ?_⟩, fun ⟨hp, hl⟩ => ⟨hp, by omega⟩⟩
      have : q.length ≠ n + 1 := fun hl' => hq (by rw [List.prefix_iff_eq_take.mp hp, hl'])
      omega
    have hnew : path.take (n + 1) <+: path ∧ (path.take (n + 1)).length ≤ n + 1 :=
      ⟨List.take_prefix _ _, by omega⟩
    have hlong : ¬(path.take (n + 1) <+: path ∧ (path.take (n + 1)).length ≤ n) := by omega
    dsimp only
    have hat := ih (by omega) (path.take (n + 1))
    rw [if_neg hlong] at hat
    by_cases hq : q = path.take (n + 1)
    · subst hq
      rw [if_pos hnew, hat]
      cases htake : t.node? (path.take (n + 1)) with
      | some node => simp [hat, htake]
      | none => simp [node?_put_self _ hne]
    · rw [hat]
      simp only [hold q hq]
      rw [← ih (by omega) q]
      split
      · rfl
      · rw [node?_put_of_ne _ hne _ hq]

theorem node?_makeFolders (t : FileTree) (path q : Path) :
    (t.makeFolders path).node? q =
      if q <+: path then some ((t.node? q).getD .folder) else t.node? q := by
  rw [makeFolders, node?_makeFolders_upTo t path path.length (Nat.le_refl _)]
  have short : q <+: path ∧ q.length ≤ path.length ↔ q <+: path :=
    ⟨fun h => h.1, fun h => ⟨h, h.length_le⟩⟩
  simp only [short]

theorem Distinct.put (h : t.Distinct) (path : Path) (node : Node) (hp : path ≠ []) :
    (t.put path node).Distinct := by
  rw [Distinct, FileTree.put, node?_of_ne_nil t hp]
  cases hl : t.nodes.lookup path with
  | some old =>
    have same : (t.nodes.map fun entry => if entry.1 = path then (path, node) else entry).map
        (·.1) = t.nodes.map (·.1) := by
      rw [List.map_map]
      refine List.map_congr_left fun entry _ => ?_
      by_cases he : entry.1 = path <;> simp [he]
    rw [if_pos (by simp)]
    exact same ▸ h
  | none =>
    rw [if_neg (by simp), List.map_append, List.nodup_append]
    refine ⟨h, by simp, fun a ha b hb => ?_⟩
    obtain rfl : b = path := by simpa using hb
    obtain ⟨entry, hentry, rfl⟩ := List.mem_map.mp ha
    intro he
    exact absurd hl (by
      rw [List.lookup_eq_none_iff]
      intro hall
      simpa [he] using hall entry hentry)

theorem Distinct.removeTree (h : t.Distinct) (path : Path) : (t.removeTree path).Distinct :=
  List.Nodup.sublist (List.filter_sublist.map _) h

theorem Distinct.makeFolders (h : t.Distinct) (path : Path) : (t.makeFolders path).Distinct := by
  have step : ∀ n ≤ path.length, ((List.range n).foldl (fun t k =>
      let above := path.take (k + 1)
      if (t.node? above).isSome then t else t.put above .folder) t).Distinct := by
    intro n
    induction n with
    | zero => exact fun _ => h
    | succ n ih =>
      intro hn
      rw [List.range_succ, List.foldl_append, List.foldl_cons, List.foldl_nil]
      have hne : path.take (n + 1) ≠ [] := by
        intro he
        have := congrArg List.length he
        rw [List.length_take, List.length_nil] at this
        omega
      dsimp only
      split
      · exact ih (by omega)
      · exact (ih (by omega)).put _ _ hne
  exact step path.length (Nat.le_refl _)

/-- A walk without upward steps passes through the folders that its steps name. -/
theorem walk_plain {here : Path} {steps : List String} (plain : ".." ∉ steps)
    (folders : ∀ n < steps.length, t.node? (here ++ steps.take n) = some .folder) :
    t.walk here steps = .ok (here ++ steps) := by
  induction steps generalizing here with
  | nil => simp [walk]
  | cons step rest ih =>
    have hstep : step ≠ ".." := fun he => plain (by simp [he])
    have hhere := folders 0 (by simp)
    rw [List.take_zero, List.append_nil] at hhere
    rw [walk, hhere]
    show t.walk (if step = ".." then here.dropLast else here ++ [step]) rest = _
    rw [if_neg hstep, ih (fun hm => plain (List.mem_cons_of_mem _ hm)), List.append_assoc]
    · rfl
    · intro n hn
      have := folders (n + 1) (by simpa using hn)
      rwa [List.take_succ_cons, ← List.singleton_append, ← List.append_assoc] at this

theorem eq_of_walk {here found : Path} {steps : List String} (plain : ".." ∉ steps)
    (h : t.walk here steps = .ok found) : found = here ++ steps := by
  induction steps generalizing here with
  | nil =>
    cases h
    simp
  | cons step rest ih =>
    have hstep : step ≠ ".." := fun he => plain (by simp [he])
    rw [FileTree.walk] at h
    split at h
    next => cases h
    next =>
      rw [if_neg hstep] at h
      rw [ih (fun hm => plain (List.mem_cons_of_mem _ hm)) h, List.append_assoc]
      rfl
    next => cases h

theorem exists?_eq_false {steps : List String} (plain : ".." ∉ steps)
    (absent : t.node? steps = none) : t.exists? steps = false := by
  cases h : t.walk [] steps with
  | error fault => simp only [exists?, find, h, bind, Except.bind]
  | ok found =>
    obtain rfl : found = steps := eq_of_walk plain h
    simp only [exists?, find, h, absent, bind, Except.bind]

theorem LeadsTo.walk (h : t.LeadsTo path) (plain : ".." ∉ path) : t.walk [] path = .ok path := by
  refine walk_plain plain fun n hn => ?_
  refine h _ (List.take_prefix n path) fun he => ?_
  have := congrArg List.length he
  rw [List.nil_append, List.length_take] at this
  omega

theorem walk_noEntry {here : Path} {steps : List String} (plain : ".." ∉ steps)
    (clear : ∀ n < steps.length, t.node? (here ++ steps.take n) = none ∨
      t.node? (here ++ steps.take n) = some .folder)
    (gap : ∃ n < steps.length, t.node? (here ++ steps.take n) = none) :
    t.walk here steps = .error .noEntry := by
  induction steps generalizing here with
  | nil =>
    obtain ⟨n, hn, _⟩ := gap
    exact absurd hn (by simp)
  | cons step rest ih =>
    have hstep : step ≠ ".." := fun he => plain (by simp [he])
    have next : ∀ n, here ++ (step :: rest).take (n + 1) = here ++ [step] ++ rest.take n := by
      simp
    have hhere := clear 0 (by simp)
    rw [List.take_zero, List.append_nil] at hhere
    rw [walk]
    rcases hhere with hnone | hfolder
    · rw [hnone]
    · rw [hfolder]
      show t.walk (if step = ".." then here.dropLast else here ++ [step]) rest = _
      rw [if_neg hstep]
      refine ih (fun hm => plain (List.mem_cons_of_mem _ hm)) (fun n hn => ?_) ?_
      · rw [← next]
        exact clear (n + 1) (by simpa using hn)
      · obtain ⟨n, hn, hgap⟩ := gap
        cases n with
        | zero => simp [hfolder] at hgap
        | succ n => exact ⟨n, by simpa using hn, by rwa [next] at hgap⟩

/-- A walk from the root fails where a folder is missing and no file is in its way. -/
theorem walk_missing (plain : ".." ∉ path)
    (clear : ∀ above, above <+: path → above ≠ path →
      t.node? above = none ∨ t.node? above = some .folder)
    {gap : Path} (on : gap <+: path) (before : gap ≠ path) (missing : t.node? gap = none) :
    t.walk [] path = .error .noEntry := by
  have proper : ∀ n < path.length, path.take n ≠ path := by
    intro n hn he
    have := congrArg List.length he
    rw [List.length_take] at this
    omega
  have shorter : gap.length < path.length := by
    rcases Nat.lt_or_ge gap.length path.length with hlt | hge
    · exact hlt
    · exact absurd (on.eq_of_length_le hge) before
  refine walk_noEntry plain (fun n hn => clear _ (List.take_prefix n path) (proper n hn))
    ⟨gap.length, shorter, ?_⟩
  rwa [List.nil_append, ← List.prefix_iff_eq_take.mp on]

theorem LeadsTo.find (h : t.LeadsTo path) (plain : ".." ∉ path) :
    t.find path = match t.node? path with
      | some node => .ok (path, node)
      | none => .error .noEntry := by
  rw [FileTree.find, h.walk plain]
  rfl

theorem LeadsTo.write (h : t.LeadsTo path) (plain : ".." ∉ path) (node : Node)
    (free : t.node? path ≠ some .folder) : t.write path node = .ok (t.put path node) := by
  simp only [FileTree.write, h.walk plain, bind, Except.bind]
  cases found : t.node? path with
  | none => rfl
  | some other =>
    cases other with
    | folder => exact absurd found free
    | _ => rfl

theorem LeadsTo.write_folder (h : t.LeadsTo path) (plain : ".." ∉ path) (node : Node)
    (taken : t.node? path = some .folder) : t.write path node = .error .isDirectory := by
  simp only [FileTree.write, h.walk plain, bind, Except.bind, taken]

theorem lexical_plain {steps : List String} (plain : ".." ∉ steps) : lexical steps = steps := by
  have fold : ∀ (here : Path) (steps : List String), ".." ∉ steps →
      steps.foldl (fun here step => if step = ".." then here.dropLast else here ++ [step]) here =
        here ++ steps := by
    intro here steps
    induction steps generalizing here with
    | nil => simp
    | cons step rest ih =>
      intro plain
      have hstep : step ≠ ".." := fun he => plain (by simp [he])
      rw [List.foldl_cons, if_neg hstep, ih _ fun hm => plain (List.mem_cons_of_mem _ hm)]
      simp
  exact fold [] steps plain

theorem childName_eq_some {p folder : Path} {name : String} :
    (if !p.isEmpty && p.dropLast = folder then p.getLast? else none) = some name ↔
      p = folder ++ [name] := by
  constructor
  · intro h
    split at h
    next hc =>
      simp only [Bool.and_eq_true, decide_eq_true_eq] at hc
      rw [← hc.2]
      obtain ⟨ys, rfl⟩ := List.getLast?_eq_some_iff.mp h
      simp
    next => cases h
  · rintro rfl
    simp

theorem mem_childNames {name : String} :
    name ∈ t.childNames path ↔ (t.node? (path ++ [name])).isSome := by
  rw [node?_of_ne_nil t (by simp), List.lookup_isSome_iff, childNames, List.mem_filterMap]
  refine exists_congr fun entry => and_congr_right fun _ => childName_eq_some.trans ?_
  rw [beq_iff_eq, eq_comm]

theorem Distinct.childNames (h : t.Distinct) (path : Path) : (t.childNames path).Nodup := by
  refine List.pairwise_filterMap.mpr ((List.pairwise_map.mp h).imp fun apart => ?_)
  intro name hname other hother he
  rw [childName_eq_some] at hname hother
  exact apart (by rw [hname, hother, he])

end FileTree

end Handover
