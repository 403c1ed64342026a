import Handover.Proofs.Lateness

namespace Handover

/-- An archive of records: one file for each type that a result counts, with as many lines, those of
the records of the type in their order. -/
structure Archive.Carries (members : Archive) (r : JobResult) (rows : List (RecordType × Value)) :
    Prop where
  distinct : (members.map (·.1)).Nodup
  files : ∀ name text, (name, text) ∈ members ↔ ∃ type, 0 < r.count type ∧
    name = Workspace.fileName type ∧
    text = Holding.textOf (Holding.linesOf (Holding.written rows) type)
  lines : ∀ type, r.count type = (Holding.linesOf (Holding.written rows) type).length
  counts : ∀ type, r.count type = rows.countP fun row => row.1 = type

namespace Holding

variable {saved : List (RecordType × String)}

theorem mem_archiveOf {name text : String} : (name, text) ∈ archiveOf saved ↔
    ∃ type, linesOf saved type ≠ [] ∧ name = Workspace.fileName type ∧
      text = textOf (linesOf saved type) := by
  rw [archiveOf, (List.mergeSort_perm _ _).mem_iff]
  simp only [List.mem_map, List.mem_filter, mem_all, true_and, Prod.mk.injEq]
  constructor
  · rintro ⟨type, hlines, rfl, rfl⟩
    exact ⟨type, by simpa using hlines, rfl, rfl⟩
  · rintro ⟨type, hlines, rfl, rfl⟩
    exact ⟨type, by simpa using hlines, rfl, rfl⟩

theorem archiveOf_distinct (saved : List (RecordType × String)) :
    ((archiveOf saved).map (·.1)).Nodup := by
  rw [archiveOf, ((List.mergeSort_perm _ _).map _).nodup_iff, List.map_map]
  exact List.pairwise_map.mpr
    ((all_nodup.filter _).imp fun hne he => hne (fileName_injective he))

/-- The archive of a job carries the records that its result counts. -/
theorem archiveOf_carries {r : JobResult} {rows : List (RecordType × Value)}
    (counts : ∀ type, r.count type = rows.countP fun row => row.1 = type)
    (writable : ∀ row ∈ rows, ∃ line, Json.line row.1 row.2 = .ok line) :
    Archive.Carries (archiveOf (written rows)) r rows := by
  have lines : ∀ type, r.count type = (linesOf (written rows) type).length := fun type =>
    (counts type).trans (length_linesOf_written writable type).symm
  refine ⟨archiveOf_distinct _, fun name text => ?_, lines, counts⟩
  rw [mem_archiveOf]
  refine exists_congr fun type => and_congr_left fun _ => ?_
  rw [lines, List.length_pos_iff]

end Holding

namespace Service

variable {δ : Type}

/-- A job runs once: the chronicle has at most one entry for a ticket. -/
theorem chronicle_unique {w : World δ} {chronicle : Chronicle} (h : w.Consistent chronicle)
    {ticket : Nat} {rows others : List (RecordType × Value)} (hrows : (ticket, rows) ∈ chronicle)
    (hothers : (ticket, others) ∈ chronicle) : others = rows := by
  have order : (chronicle.map (·.1)).Pairwise (· < ·) :=
    (List.pairwise_append.mp (List.pairwise_append.mp h.order).1).1
  obtain ⟨i, hi, hrow⟩ := List.mem_iff_getElem.mp hrows
  obtain ⟨j, hj, hother⟩ := List.mem_iff_getElem.mp hothers
  have apart := List.pairwise_iff_getElem.mp (List.pairwise_map.mp order)
  rcases Nat.lt_trichotomy i j with hlt | heq | hgt
  · have := apart i j hi hj hlt
    rw [hrow, hother] at this
    exact absurd this (Nat.lt_irrefl _)
  · subst heq
    rw [hrow] at hother
    cases hother
    rfl
  · have := apart j i hj hi hgt
    rw [hrow, hother] at this
    exact absurd this (Nat.lt_irrefl _)

section Retrieved

variable {w : World δ} {chronicle : Chronicle} {tenant : Uuid} {answer : Except Failure Archive}

theorem Retrieved.of_ok {members : Archive} (h : Retrieved w chronicle tenant (.ok members)) :
    ∃ ticket r, live? w tenant = some ticket ∧ w.result? ticket = some r ∧
      r.status = .succeeded := by
  cases h with
  | succeeded live result succeeded stored => exact ⟨_, _, live, result, succeeded⟩

theorem Retrieved.of_absent (h : Retrieved w chronicle tenant answer)
    (absent : live? w tenant = none) : answer = .error (.resultNotFound (.uuid tenant)) := by
  cases h with
  | absent => rfl
  | unfinished live => cases absent.symm.trans live
  | failed live => cases absent.symm.trans live
  | succeeded live => cases absent.symm.trans live

/-- The answer for a tenant with a live result goes by the state of that result. -/
theorem Retrieved.of_live (h : Retrieved w chronicle tenant answer) {ticket : Nat} {r : JobResult}
    (hlive : live? w tenant = some ticket) (hresult : w.result? ticket = some r) :
    (r.status = .succeeded ∧ ∃ rows, w.Stored chronicle tenant ticket r rows ∧
      answer = .ok (Holding.archiveOf (Holding.written rows))) ∨
    (r.isDone = false ∧ answer = .error (.notReady (.uuid tenant))) ∨
    r.status = .failed ∧ ∃ text, r.error = some text ∧
      answer = .error (.exportFailed (.uuid tenant) (.str text)) := by
  cases h with
  | absent none => cases none.symm.trans hlive
  | unfinished live result unfinished =>
    cases live.symm.trans hlive
    cases result.symm.trans hresult
    exact Or.inr (Or.inl ⟨unfinished, rfl⟩)
  | failed live result failed error =>
    cases live.symm.trans hlive
    cases result.symm.trans hresult
    exact Or.inr (Or.inr ⟨failed, _, error, rfl⟩)
  | succeeded live result succeeded stored =>
    cases live.symm.trans hlive
    cases result.symm.trans hresult
    exact Or.inl ⟨succeeded, _, stored, rfl⟩

theorem Retrieved.not_missing (h : Retrieved w chronicle tenant answer) (place : Value) :
    answer ≠ .error (.archiveNotFound (.uuid tenant) place) := by
  cases h <;> simp

end Retrieved

/-- Whatever happens to a service that is not shut down, on a storage that works, the archive of a
tenant can be downloaded exactly when the live result of the tenant succeeded, and it carries the
records that the job of that result has saved. Otherwise the failure tells the state of the result;
an archive is never missing. Clean-ups that come late have to be harmless by then. -/
theorem download_retrieves_saved (c : Surroundings δ) (finds : c.FindsTenants) (plan : JobPlan)
    (allows : Bool) (bound : Nat) (w₀ : World δ) (opening : w₀.Opening)
    (occasions : List Occasion) (running : .shutdown ∉ occasions)
    (harmless : Harmless (.around c plan allows bound) occasions w₀) (tenant : Uuid) :
    let env := Environment.around c plan allows bound
    let w := (annals env occasions w₀).1
    let chronicle := (annals env occasions w₀).2
    let answer := ((download env tenant).outcome w).1
    ((∃ members, answer = .ok members) ↔ ∃ ticket r, live? w tenant = some ticket ∧
      w.result? ticket = some r ∧ r.status = .succeeded) ∧
    (∀ ticket r, live? w tenant = some ticket → w.result? ticket = some r →
      (r.status = .succeeded → ∃ rows members, answer = .ok members ∧
        (ticket, rows) ∈ chronicle ∧ (∀ others, (ticket, others) ∈ chronicle → others = rows) ∧
        members.Carries r rows) ∧
      (r.isDone = false → answer = .error (.notReady (.uuid tenant))) ∧
      (r.status = .failed → ∃ text, r.error = some text ∧
        answer = .error (.exportFailed (.uuid tenant) (.str text)))) ∧
    (live? w tenant = none → answer = .error (.resultNotFound (.uuid tenant))) ∧
    ∀ place, answer ≠ .error (.archiveNotFound (.uuid tenant) place) := by
  intro env w chronicle answer
  have e : env.Within c := Environment.around_within c plan allows bound
  have consistent : w.Consistent chronicle := annals_consistent e finds running opening harmless
  have retrieved : Retrieved w chronicle tenant answer :=
    (download_retrieved e consistent tenant).1
  have done : ∀ {r : JobResult}, r.status = .succeeded ∨ r.status = .failed → r.isDone = true := by
    rintro r (h | h) <;> exact JobResult.isDone_of h
  refine ⟨⟨?_, ?_⟩, fun ticket r hlive hresult => ?_, retrieved.of_absent, retrieved.not_missing⟩
  · rintro ⟨members, hok⟩
    exact (hok ▸ retrieved).of_ok
  · rintro ⟨ticket, r, hlive, hresult, hs⟩
    rcases retrieved.of_live hlive hresult with ⟨_, rows, _, hok⟩ | ⟨hopen, _⟩ | ⟨hfailed, _⟩
    · exact ⟨_, hok⟩
    · rw [done (Or.inl hs)] at hopen
      cases hopen
    · cases hs.symm.trans hfailed
  · rcases retrieved.of_live hlive hresult with
      ⟨hs, rows, ⟨hrows, _, counts, writable⟩, hok⟩ | ⟨hopen, hunready⟩ | ⟨hfailed, herror⟩
    · refine ⟨fun _ => ⟨rows, _, hok, hrows, fun others hothers =>
        chronicle_unique consistent hrows hothers, Holding.archiveOf_carries counts writable⟩,
        fun hopen => ?_, fun hfailed => ?_⟩
      · rw [done (Or.inl hs)] at hopen
        cases hopen
      · cases hs.symm.trans hfailed
    · refine ⟨fun hs => ?_, fun _ => hunready, fun hfailed => ?_⟩
      · rw [done (Or.inl hs)] at hopen
        cases hopen
      · rw [done (Or.inr hfailed)] at hopen
        cases hopen
    · refine ⟨fun hs => ?_, fun hopen => ?_, fun _ => herror⟩
      · cases hs.symm.trans hfailed
      · rw [done (Or.inr hfailed)] at hopen
        cases hopen

/-- A source that answers from a store finds tenants under their own identifiers. -/
theorem ofStore_findsTenants (now : Int) : (Surroundings.ofStore now).FindsTenants := by
  intro id store tenant store' asked
  have found : store.tenant? id = some tenant := Except.ok.inj (congrArg Prod.fst asked)
  obtain ⟨addition, _, hadded⟩ := List.mem_filterMap.mp (List.mem_of_getLast? found)
  cases addition with
  | tenant other =>
    dsimp only at hadded
    split at hadded
    next same =>
      cases hadded
      exact same
    next => cases hadded
  | _ => cases hadded

/-- An export can be downloaded from an object store after an earlier one of its tenant has been
deleted and cleaned up after. -/
theorem download_retrieves_saved_remote :
    let store : Store := ⟨[.tenant ⟨⟨7⟩, .str "acme"⟩]⟩
    let settings : RemoteSettings := ⟨none, none, none, "exports", none, "", 0, 1⟩
    let w₀ : World Store := ⟨store, [], ⟨60, true, .idle, []⟩, 0, ⟨1, true, []⟩,
      .remote ⟨settings, .new "data.tar", .empty, false⟩, ⟨0⟩, []⟩
    let c : Surroundings Store := { Surroundings.ofStore 0 with keepsUp := false }
    let env := Environment.around c ⟨.standard, 2, 1, .null, []⟩ false 9
    let submit := Occasion.operation (.submit ⟨7⟩ (RecordType.all.filter (· ≠ .tenant)))
    let occasions := [submit, .operation .run, .operation (.delete ⟨7⟩), submit, .tend 1,
      .operation .run]
    let s := annals env occasions w₀
    Harmless env occasions w₀ ∧ ∃ r rows members, s.1.result? 1 = some r ∧ (1, rows) ∈ s.2 ∧
      ((download env ⟨7⟩).outcome s.1).1 = .ok members ∧ members.Carries r rows := by
  intro store settings w₀ c env submit occasions s
  have connects : RemoteStorage.new settings (.new "data.tar") =
      .ok ⟨settings, .new "data.tar", .empty, false⟩ := by
    simp [RemoteStorage.new, RemoteSettings.fault?, settings]
  have opening : w₀.Opening :=
    ⟨rfl, rfl, by decide, rfl, rfl, Storage.remote_sound (by decide) connects⟩
  have running : .shutdown ∉ occasions := by simp [occasions, submit]
  have harmless : Harmless env occasions w₀ := by decide +kernel
  have live : live? s.1 ⟨7⟩ = some 1 := by decide +kernel
  have status : (s.1.result? 1).map (·.status) = some .succeeded := by decide +kernel
  obtain ⟨r, result, succeeded⟩ := Option.map_eq_some_iff.mp status
  have main := download_retrieves_saved c (ofStore_findsTenants 0) ⟨.standard, 2, 1, .null, []⟩
    false 9 w₀ opening occasions running harmless ⟨7⟩
  obtain ⟨rows, members, hok, hrows, _, carries⟩ := (main.2.1 1 r live result).1 succeeded
  exact ⟨harmless, r, rows, members, result, hrows, hok, carries⟩

/-- Where a result succeeded but its archive is gone, its download finds none. -/
theorem outcome_download_gone {env : Environment δ} {c : Surroundings δ} (e : env.Within c)
    {w : World δ} {tenant : Uuid} {ticket : Nat} {r : JobResult}
    (live : live? w tenant = some ticket) (result : w.result? ticket = some r)
    (succeeded : r.status = .succeeded) (alone : w.storage.objects?.isNone = true)
    (gone : w.storage.workspace.tree.exists? (w.storage.workspace.archiveSteps tenant) = false) :
    ((download env tenant).outcome w).1 = .error
      (.archiveNotFound (.uuid tenant) (.str (w.storage.workspace.archiveText tenant))) := by
  rw [outcome_download_succeeded e live result succeeded]
  cases stored : w.storage with
  | remote s =>
    rw [stored] at alone
    cases alone
  | here workspace =>
    rw [stored] at gone
    have absent : workspace.tree.exists? (workspace.archiveSteps tenant) = false := gone
    show ((Workspace.fetch tenant).outcome workspace).1 = _
    rw [Workspace.fetch, Act.outcome_bind_ok (Act.outcome_get workspace), absent]
    rfl

/-- A clean-up that comes after the next export of its tenant removes the archive of that export. -/
theorem late_cleanUp_loses_archive :
    let w₀ : World Store := ⟨⟨[.tenant ⟨⟨7⟩, .str "acme"⟩]⟩, [], ⟨60, true, .idle, []⟩, 0,
      ⟨1, true, []⟩, .here (.new "data.tar"), ⟨0⟩, []⟩
    let env := Environment.around { Surroundings.ofStore 0 with keepsUp := false }
      ⟨.standard, 2, 1, .null, []⟩ false 9
    let submit := Occasion.operation (.submit ⟨7⟩ (RecordType.all.filter (· ≠ .tenant)))
    let run := Occasion.operation .run
    let w := (annals env [submit, run, .operation (.delete ⟨7⟩), submit, run, .tend 1] w₀).1
    w₀.Opening ∧ live? w ⟨7⟩ = some 1 ∧ (w.result? 1).map (·.status) = some .succeeded ∧
      ∃ place, ((download env ⟨7⟩).outcome w).1 = .error (.archiveNotFound (.uuid ⟨7⟩) place) := by
  intro w₀ env submit run w
  have opening : w₀.Opening :=
    ⟨rfl, rfl, by decide, rfl, rfl, Storage.here_sound (by decide)⟩
  have live : live? w ⟨7⟩ = some 1 := by decide +kernel
  have status : (w.result? 1).map (·.status) = some .succeeded := by decide +kernel
  obtain ⟨r, result, succeeded⟩ := Option.map_eq_some_iff.mp status
  have e : env.Within { Surroundings.ofStore 0 with keepsUp := false } :=
    Environment.around_within _ _ _ _
  exact ⟨opening, live, status, _, outcome_download_gone e live result succeeded
    (by decide +kernel) (by decide +kernel)⟩

end Service

end Handover
