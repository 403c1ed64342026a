import Handover.Proofs.Reachable

namespace Handover

variable {δ : Type}

namespace Service

variable {env : Environment δ} {c : Surroundings δ} {w w' w'' : World δ}

theorem outcome_getResult_error (e : env.Apart) {tenant : Uuid} (h : live? w tenant = none) :
    ∃ failure w', (getResult env tenant).outcome w = (.error failure, w') := by
  obtain ⟨answer, w', run, _, found⟩ := outcome_getResult_apart e w tenant
  cases answer with
  | error failure => exact ⟨failure, w', run⟩
  | ok r =>
    obtain ⟨ticket, hlive, _⟩ := found r rfl
    cases h.symm.trans hlive

/-- What can be downloaded: the archive that the storage has for a tenant whose live result
succeeded. -/
theorem download_ok_iff (e : env.Within c) {tenant : Uuid} {members : Archive} :
    ((download env tenant).outcome w).1 = .ok members ↔
      ∃ ticket r, live? w tenant = some ticket ∧ w.result? ticket = some r ∧
        r.status = .succeeded ∧ ((Storage.fetch tenant).outcome w.storage).1 = .ok members := by
  cases hlive : live? w tenant with
  | none =>
    obtain ⟨failure, w', run⟩ : ∃ failure w', (getResult env tenant).outcome w =
        (.error failure, w') := outcome_getResult_error e.apart hlive
    rw [download, Act.outcome_bind_error run]
    simp
  | some ticket =>
    have ticketed : (ticketOf env tenant).outcome w =
        (.ok ticket, { w with registry := w.registry.access tenant w.time }) :=
      outcome_ticketOf_some hlive
    cases hr : w.result? ticket with
    | none =>
      have missing : (getResult env tenant).outcome w = (.error (.resultNotFound .null),
          { w with registry := w.registry.access tenant w.time }) := by
        rw [getResult, Act.outcome_bind_ok ticketed, resultOf,
          Act.outcome_bind_ok (Act.outcome_get _)]
        have unknown : World.result?
            { w with registry := w.registry.access tenant w.time } ticket = none := hr
        rw [unknown]
        rfl
      rw [download, Act.outcome_bind_error missing]
      simp [hr]
    | some r =>
      cases hs : r.status with
      | submitted =>
        rw [outcome_download_unfinished hlive hr (JobResult.isDone_of hs)]
        simp [hr, hs]
      | running =>
        rw [outcome_download_unfinished hlive hr (JobResult.isDone_of hs)]
        simp [hr, hs]
      | failed =>
        rw [outcome_download_failed hlive hr hs]
        simp [hr, hs]
      | succeeded =>
        rw [outcome_download_succeeded e hlive hr hs]
        simp [hr, hs]

/-- A world in which nothing is lost that another one has: what is registered, the results, the
queue, and what can be downloaded. -/
structure Unharmed (env : Environment δ) (w w' : World δ) : Prop where
  registered : ∀ tenant, w'.registry.value? tenant = w.registry.value? tenant
  results : ∀ ticket r, w.result? ticket = some r → w'.result? ticket = some r
  queue : w'.worker = w.worker
  archives : ∀ tenant members, ((download env tenant).outcome w).1 = .ok members →
    ((download env tenant).outcome w').1 = .ok members

theorem Unharmed.trans (h : Unharmed env w w') (h' : Unharmed env w' w'') :
    Unharmed env w w'' where
  registered tenant := (h'.registered tenant).trans (h.registered tenant)
  results ticket r hr := h'.results ticket r (h.results ticket r hr)
  queue := h'.queue.trans h.queue
  archives tenant members hd := h'.archives tenant members (h.archives tenant members hd)

theorem Unharmed.of_live (e : env.Within c)
    (registered : ∀ tenant, w'.registry.value? tenant = w.registry.value? tenant)
    (results : ∀ ticket r, w.result? ticket = some r → w'.result? ticket = some r)
    (queue : w'.worker = w.worker) (live : ∀ tenant, live? w' tenant = live? w tenant)
    (storage : w'.storage = w.storage) : Unharmed env w w' := by
  refine ⟨registered, results, queue, fun tenant members hd => ?_⟩
  obtain ⟨ticket, r, hlive, hr, hs, hfetch⟩ := (download_ok_iff e).mp hd
  refine (download_ok_iff e).mpr ⟨ticket, r, ?_, results ticket r hr, hs, ?_⟩
  · rw [live]
    exact hlive
  · rw [storage]
    exact hfetch

theorem approve_unharmed (e : env.Within c) (id : Uuid) :
    Unharmed env w ((approve env id).outcome w).2 := by
  have moved : ∀ data, Unharmed env w { w with data } := fun data =>
    .of_live e (fun _ => rfl) (fun _ _ hr => hr) rfl (fun _ => rfl) rfl
  rcases asked : (c.ask (.tenant id)).outcome w.data with ⟨failure | found, data⟩
  · rw [outcome_approve_failed e asked]
    exact moved data
  · cases (found : Option Tenant) with
    | none =>
      rw [outcome_approve_unknown e asked]
      exact moved data
    | some tenant =>
      rw [outcome_approve_known e asked]
      exact .of_live e (fun other => Registry.peek_value? ..) (fun _ _ hr => hr) rfl
        (fun other => Registry.peek_peek ..) rfl

variable {id : Uuid} {tenant : Tenant} {skipped : List RecordType} {failure : Failure}

theorem outcome_cleanReplaced (e : env.Within c) (w v : World δ) (id : Uuid)
    (replaced : Option Nat) : ∃ result s,
      (cleanReplaced env w id replaced).outcome v = (result, { v with storage := s }) := by
  unfold cleanReplaced
  split
  next =>
    exact ⟨_, _, outcome_useStorage (e.others .cleanUp (by simp) (by simp)) rfl⟩
  next => exact ⟨.ok (), v.storage, rfl⟩

/-- How an export that is entered is refused: what its predecessor has stored cannot be removed, and
the export stays registered, or its job is not taken, and nothing is registered any longer. -/
theorem enter_refused (e : env.Within c)
    (refused : (enter env id tenant skipped).outcome w = (.error failure, w')) :
    (∃ s, (cleanReplaced env w id (w.registry.value? id)).outcome (w.registered id) =
        (.error failure, w') ∧ w' = { w.registered id with storage := s }) ∨
      ∃ s, (cleanReplaced env w id (w.registry.value? id)).outcome (w.registered id) =
          (.ok (), { w.registered id with storage := s }) ∧
        w' = { w.registered id with
          storage := s
          registry := ((w.registered id).registry.discard id w.results.length).2 } := by
  obtain ⟨result, s, cleaned⟩ :=
    outcome_cleanReplaced e w (w.registered id) id (w.registry.value? id)
  cases result with
  | error other =>
    rw [outcome_enter_uncleaned cleaned] at refused
    cases refused
    exact Or.inl ⟨s, cleaned, rfl⟩
  | ok =>
    rw [outcome_enter_cleaned cleaned] at refused
    cases hsubmit : w.worker.submit (.job w.results.length tenant skipped) with
    | ok worker =>
      rw [outcome_handIn_ok (w := { w.registered id with storage := s }) hsubmit] at refused
      cases refused
    | error other =>
      rw [outcome_handIn_error (w := { w.registered id with storage := s }) hsubmit] at refused
      cases refused
      exact Or.inr ⟨s, cleaned, rfl⟩

theorem enter_unharmed (e : env.Within c) (fresh : w.registry.value? id = none)
    (refused : (enter env id tenant skipped).outcome w = (.error failure, w')) :
    Unharmed env w w' := by
  have uncleaned : (cleanReplaced env w id (w.registry.value? id)).outcome (w.registered id) =
      (.ok (), w.registered id) := by
    rw [fresh]
    rfl
  rcases enter_refused e refused with ⟨s, cleaned, _⟩ | ⟨s, cleaned, rfl⟩
  · rw [uncleaned] at cleaned
    cases cleaned
  · have stored : s = w.storage := by
      rw [uncleaned] at cleaned
      exact (congrArg (fun v => v.2.storage) cleaned).symm
    have restored : ((w.registered id).registry.discard id w.results.length).2 = w.registry :=
      Registry.discard_put_fresh fresh w.time w.results.length
    refine .of_live e (fun other => ?_) (fun ticket r hr => World.result?_registered_old hr) rfl
      (fun other => ?_) stored
    · rw [restored]
    · show (Registry.peek _ (w.registered id).isEvictable w.time other).1 = live? w other
      rw [restored, World.isEvictable_registered]
      rfl

theorem enter_harms (e : env.Within c) (h : w.Numbered) {ticket : Nat}
    (registered : w.registry.value? id = some ticket)
    (refused : (enter env id tenant skipped).outcome w = (.error failure, w')) :
    w'.registry.value? id ≠ some ticket := by
  rcases enter_refused e refused with ⟨s, _, rfl⟩ | ⟨s, _, rfl⟩
  · have newest : (w.registered id).registry.value? id = some w.results.length :=
      Registry.value?_put_self w.registry w.time id w.results.length
    have old := h.value?_lt registered
    rw [newest, Ne, Option.some.injEq]
    omega
  · rw [World.registered, Registry.discard_put_self]
    simp

theorem enter_confined (e : env.Within c)
    (refused : (enter env id tenant skipped).outcome w = (.error failure, w')) :
    w'.worker = w.worker ∧
      ∀ other, other ≠ id → w'.registry.value? other = w.registry.value? other := by
  have others : ∀ other, other ≠ id →
      (w.registered id).registry.value? other = w.registry.value? other :=
    fun other hne => Registry.value?_put_of_ne w.registry w.time w.results.length hne
  rcases enter_refused e refused with ⟨s, _, rfl⟩ | ⟨s, _, rfl⟩
  · exact ⟨rfl, others⟩
  · refine ⟨rfl, fun other hne => ?_⟩
    rw [← others other hne]
    exact Registry.discard_of_ne _ w.results.length hne

/-- A submission that is refused harms nothing exactly when it is refused before the export is
registered, or when nothing was registered for the tenant. It never touches the queue and what is
registered for others. -/
theorem refused_submission_unharmed_iff (c : Surroundings δ) (plan : JobPlan) (allows : Bool)
    (bound : Nat) (w w' : World δ) (id : Uuid) (skipped : List RecordType) (failure : Failure)
    (reachable : Reachable (Environment.around c plan allows bound) w)
    (refused : (submit (Environment.around c plan allows bound) id skipped).outcome w =
      (.error failure, w')) :
    let env := Environment.around c plan allows bound
    (Unharmed env w w' ↔
      ((approve env id).outcome w).1 = .error failure ∨ w.registry.value? id = none) ∧
    w'.worker = w.worker ∧
    ∀ other, other ≠ id → w'.registry.value? other = w.registry.value? other := by
  intro env
  have e : env.Within c := Environment.around_within c plan allows bound
  have looked : Unharmed env w ((approve env id).outcome w).2 := approve_unharmed e id
  have numbered := approve_numbered e id w (reachable.numbered e)
  rcases approved : (approve env id).outcome w with ⟨other | tenant, v⟩
  · rw [submit, Act.outcome_bind_error approved] at refused
    cases refused
    rw [approved] at looked
    exact ⟨⟨fun _ => Or.inl rfl, fun _ => looked⟩, looked.queue,
      fun other _ => looked.registered other⟩
  · rw [approved] at looked numbered
    rw [submit, Act.outcome_bind_ok approved] at refused
    have entered : (enter env id tenant skipped).outcome v = (.error failure, w') := by
      rcases run : (enter env id tenant skipped).outcome v with ⟨other | _, v'⟩
      · rw [Act.outcome_bind_error run] at refused
        cases refused
        rfl
      · rw [Act.outcome_bind_ok run] at refused
        cases refused
    obtain ⟨queue, others⟩ := enter_confined e entered
    refine ⟨⟨fun unharmed => Or.inr ?_, fun condition => ?_⟩, queue.trans looked.queue,
      fun other hne => (others other hne).trans (looked.registered other)⟩
    · cases registered : w.registry.value? id with
      | none => rfl
      | some ticket =>
        have harmed := enter_harms e numbered ((looked.registered id).trans registered) entered
        exact absurd ((unharmed.registered id).trans registered) harmed
    · rcases condition with early | fresh
      · cases early
      · exact looked.trans (enter_unharmed e ((looked.registered id).trans fresh) entered)

/-- A tenant without a result stays without one when the worker takes no more jobs. -/
theorem refused_submission_unharmed_stopped :
    let w₀ : World Store := ⟨⟨[.tenant ⟨⟨7⟩, .str "acme"⟩]⟩, [], ⟨60, true, .idle, []⟩, 0,
      ⟨1, true, []⟩, .here (.new "data.tar"), ⟨0⟩, []⟩
    let w := (shutdownWorker.outcome w₀).2
    let env := Environment.around (.ofStore 0) ⟨.standard, 2, 1, .null, []⟩ false 9
    ∃ failure w', (submit env ⟨7⟩ []).outcome w = (.error failure, w') ∧ Unharmed env w w' := by
  intro w₀ w env
  have opening : w₀.Opening := ⟨rfl, rfl, by decide, rfl, rfl, Storage.here_sound (by decide)⟩
  have refused : ((submit env ⟨7⟩ []).outcome w).1.isOk = false := by decide +kernel
  rcases run : (submit env ⟨7⟩ []).outcome w with ⟨failure | _, w'⟩
  · have fresh : w.registry.value? ⟨7⟩ = none := by decide +kernel
    have main := refused_submission_unharmed_iff (.ofStore 0) ⟨.standard, 2, 1, .null, []⟩ false 9
      w w' ⟨7⟩ [] failure (.stopped (.opened opening)) run
    exact ⟨failure, w', rfl, main.1.mpr (Or.inr fresh)⟩
  · rw [run] at refused
    cases refused

/-- A tenant whose archive cannot be deleted loses its result to an export that is not run. -/
theorem refused_submission_loses_archive :
    let store : Store := ⟨[.tenant ⟨⟨7⟩, .str "acme"⟩]⟩
    let settings : RemoteSettings := ⟨none, none, none, "exports", none, "", 0, 1⟩
    let w₀ : World Store := ⟨store, [], ⟨60, true, .idle, []⟩, 0, ⟨1, true, []⟩,
      .remote ⟨settings, .new "data.tar", .empty, false⟩, ⟨0⟩, []⟩
    let env := Environment.around (.ofStore 0) ⟨.standard, 2, 1, .null, []⟩ false 9
    let skipped := RecordType.all.filter (· ≠ .tenant)
    let exported := (course env [.submit ⟨7⟩ skipped, .run] w₀).1
    let denied : ObjectFault := .refused ⟨some "AccessDenied", none⟩
    let storage := exported.storage.mapObjects fun s => s.setFault .delete (some denied)
    let w := { exported with storage }
    Reachable env w ∧ ∃ failure w', (submit env ⟨7⟩ skipped).outcome w = (.error failure, w') ∧
      w.registry.value? ⟨7⟩ = some 0 ∧ w'.registry.value? ⟨7⟩ = some 1 ∧
      (∃ members, ((download env ⟨7⟩).outcome w).1 = .ok members) ∧
      (∀ members, ((download env ⟨7⟩).outcome w').1 ≠ .ok members) ∧
      w'.worker.depth = 0 ∧ ¬ Unharmed env w w' := by
  intro store settings w₀ env skipped exported denied storage w
  have connects : RemoteStorage.new settings (.new "data.tar") =
      .ok ⟨settings, .new "data.tar", .empty, false⟩ := by
    simp [RemoteStorage.new, RemoteSettings.fault?, settings]
  have opening : w₀.Opening :=
    ⟨rfl, rfl, by decide, rfl, rfl, Storage.remote_sound (by decide) connects⟩
  have reachable : Reachable env w :=
    ((Reachable.opened opening).course [.submit ⟨7⟩ skipped, .run]).disturbed storage
  have registered : w.registry.value? ⟨7⟩ = some 0 := by decide +kernel
  have stored : ((download env ⟨7⟩).outcome w).1.isOk = true := by decide +kernel
  have refused : ((submit env ⟨7⟩ skipped).outcome w).1.isOk = false := by decide +kernel
  have newest : ((submit env ⟨7⟩ skipped).outcome w).2.registry.value? ⟨7⟩ = some 1 := by
    decide +kernel
  have lost : ((download env ⟨7⟩).outcome ((submit env ⟨7⟩ skipped).outcome w).2).1.isOk = false :=
    by decide +kernel
  have idle : ((submit env ⟨7⟩ skipped).outcome w).2.worker.depth = 0 := by decide +kernel
  rcases run : (submit env ⟨7⟩ skipped).outcome w with ⟨failure | _, w'⟩
  · rw [run] at newest lost idle
    refine ⟨reachable, failure, w', rfl, registered, newest, ?_, fun members hd => ?_, idle,
      fun unharmed => ?_⟩
    · rcases answer : ((download env ⟨7⟩).outcome w).1 with failure | members
      · rw [answer] at stored
        cases stored
      · exact ⟨members, rfl⟩
    · rw [hd] at lost
      cases lost
    · have same := unharmed.registered ⟨7⟩
      rw [newest, registered] at same
      cases same
  · rw [run] at refused
    cases refused

end Service

end Handover
