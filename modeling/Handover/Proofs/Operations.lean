import Handover.Proofs.JobEnd
import Handover.Proofs.Registry
import Handover.Proofs.Worker

namespace Handover

variable {δ : Type}

/-- A world after something that makes no result and runs no job: entries of ended jobs may be gone
from the registry, and the archives and files of all entries that are left are still there. -/
structure World.Trims (w w' : World δ) : Prop where
  results : w'.results = w.results
  worker : w'.worker = w.worker
  registry : w'.registry.Sound
  storage : w'.storage.Sound
  old : ∀ tenant ticket, w'.registry.value? tenant = some ticket →
    w.registry.value? tenant = some ticket
  retained : ∀ tenant ticket, w.registry.value? tenant = some ticket →
    w.isEvictable ticket = false → w'.registry.value? tenant = some ticket
  kept : ∀ tenant ticket members, w'.registry.value? tenant = some ticket →
    w.storage.Keeps tenant members → w'.storage.Keeps tenant members
  files : ∀ tenant ticket held, w'.registry.value? tenant = some ticket →
    w.storage.workspace.Holds tenant held → w'.storage.workspace.Holds tenant held

namespace World.Trims

variable {w w' w'' : World δ}

theorem refl (registry : w.registry.Sound) (storage : w.storage.Sound) : w.Trims w :=
  ⟨rfl, rfl, registry, storage, fun _ _ h => h, fun _ _ h _ => h, fun _ _ _ _ h => h,
    fun _ _ _ _ h => h⟩

theorem trans (h : w.Trims w') (h' : w'.Trims w'') : w.Trims w'' where
  results := h'.results.trans h.results
  worker := h'.worker.trans h.worker
  registry := h'.registry
  storage := h'.storage
  old tenant ticket hv := h.old tenant ticket (h'.old tenant ticket hv)
  retained tenant ticket hv hstays := by
    refine h'.retained tenant ticket (h.retained tenant ticket hv hstays) ?_
    rw [isEvictable, result?, h.results]
    exact hstays
  kept tenant ticket members hv hk :=
    h'.kept tenant ticket members hv (h.kept tenant ticket members (h'.old tenant ticket hv) hk)
  files tenant ticket held hv hk :=
    h'.files tenant ticket held hv (h.files tenant ticket held (h'.old tenant ticket hv) hk)

/-- The data and the time have no part in what is registered and stored. -/
theorem withData (h : w.Trims w') (data : δ) (time : Rat) :
    w.Trims { w' with data, time } :=
  ⟨h.results, h.worker, h.registry, h.storage, h.old, h.retained, h.kept, h.files⟩

end World.Trims

namespace Service

variable {env : Environment δ} {c : Surroundings δ} {w w' : World δ} {tenant : Uuid}

theorem outcome_cleanUp (e : env.Within c) (h : w.storage.Sound) (tenant : Uuid) :
    ∃ s, (cleanUp env tenant).outcome w = (.ok (), { w with storage := s }) ∧
      Storage.Spares tenant w.storage s := by
  obtain ⟨s, run, spares⟩ := Storage.outcome_cleanUp h tenant
  exact ⟨s, outcome_useStorage (e.others _ (by simp) (by simp)) run, spares⟩

/-- Clean-ups remove what is stored for their tenants, and nothing else. -/
theorem outcome_cleanUpAll (e : env.Within c) (tenants : List Uuid) (h : w.storage.Sound) :
    ∃ s, (cleanUpAll env tenants).outcome w = (.ok (), { w with storage := s }) ∧ s.Sound ∧
      ∀ tenant, tenant ∉ tenants →
        (∀ members, w.storage.Keeps tenant members → s.Keeps tenant members) ∧
        ∀ held, w.storage.workspace.Holds tenant held → s.workspace.Holds tenant held := by
  induction tenants generalizing w with
  | nil => exact ⟨w.storage, rfl, h, fun _ _ => ⟨fun _ hk => hk, fun _ hk => hk⟩⟩
  | cons first rest ih =>
    obtain ⟨s₁, cleaned, spares⟩ := outcome_cleanUp e h first
    obtain ⟨s, run, sound, kept⟩ := ih (w := { w with storage := s₁ }) spares.sound
    refine ⟨s, ?_, sound, fun tenant hne => ?_⟩
    · have ignored := Act.outcome_ignoringFailure (cleanUp env first) w
      rw [cleaned] at ignored
      exact (Act.outcome_bind_ok ignored).trans run
    · rw [List.mem_cons, not_or] at hne
      obtain ⟨hfirst, hrest⟩ := hne
      obtain ⟨archives, files⟩ := kept tenant hrest
      exact ⟨fun members hk => archives members (spares.others tenant hfirst members hk),
        fun held hk => files held (spares.beside.holds hfirst hk)⟩

/-- Notices are followed at once or wait; other tenants have no part in it. -/
theorem outcome_heed (e : env.Within c) (notices : List (Notice Uuid Nat))
    (h : w.storage.Sound) :
    ∃ s due, (heed env notices).outcome w =
        (.ok (), { w with storage := s, due }) ∧ s.Sound ∧
      ∀ tenant, (∀ notice ∈ notices, notice.key ≠ tenant) →
        (∀ members, w.storage.Keeps tenant members → s.Keeps tenant members) ∧
        ∀ held, w.storage.workspace.Holds tenant held → s.workspace.Holds tenant held := by
  rw [heed]
  split
  next =>
    obtain ⟨s, run, sound, kept⟩ := outcome_cleanUpAll e (notices.map (·.key)) h
    refine ⟨s, w.due, run, sound, fun tenant hne => kept tenant fun hm => ?_⟩
    obtain ⟨notice, hn, rfl⟩ := List.mem_map.mp hm
    exact hne notice hn rfl
  next => exact ⟨w.storage, _, rfl, h, fun _ _ => ⟨fun _ hk => hk, fun _ hk => hk⟩⟩

/-- Something that may remove entries of ended jobs from the registry. -/
theorem outcome_withRegistry {α : Type} (e : env.Within c) (h : w.storage.Sound)
    (operation : World δ → Removal Uuid Nat α)
    (drops : (operation w).Drops w.registry w.isEvictable) :
    ∃ s due, (withRegistry env operation).outcome w = ((operation w).answer,
        { w with registry := (operation w).registry, storage := s, due }) ∧
      w.Trims { w with registry := (operation w).registry, storage := s, due } := by
  obtain ⟨s, due, run, sound, kept⟩ := outcome_heed
    (w := { w with registry := (operation w).registry }) e (operation w).notices h
  have unnoticed : ∀ {tenant ticket}, (operation w).registry.value? tenant = some ticket →
      ∀ notice ∈ (operation w).notices, notice.key ≠ tenant := by
    intro tenant ticket hv notice hn he
    rw [← he, drops.noticed notice hn] at hv
    cases hv
  refine ⟨s, due, ?_, rfl, rfl, drops.sound, sound, drops.old, drops.retained,
    fun tenant ticket members hv hk => (kept tenant (unnoticed hv)).1 members hk,
    fun tenant ticket held hv hk => (kept tenant (unnoticed hv)).2 held hk⟩
  rw [withRegistry, Act.outcome_bind_ok (Act.outcome_get w)]
  dsimp only
  rw [Act.outcome_bind_ok (Act.outcome_set _ w), Act.outcome_bind_ok run, Act.outcome_settle]

/-- Without notices nothing is to be cleaned up. -/
theorem outcome_heed_nil (env : Environment δ) (w : World δ) :
    (heed env []).outcome w = (.ok (), w) := by
  rw [heed]
  split
  next => rfl
  next => simp

theorem outcome_withRegistry_quiet {α : Type} {operation : World δ → Removal Uuid Nat α}
    {answer : Except Failure α} {registry : Registry Uuid Nat}
    (h : operation w = ⟨answer, [], registry⟩) :
    (withRegistry env operation).outcome w = (answer, { w with registry }) := by
  rw [withRegistry, Act.outcome_bind_ok (Act.outcome_get w)]
  dsimp only
  rw [h, Act.outcome_bind_ok (Act.outcome_set _ w), Act.outcome_bind_ok (outcome_heed_nil env _)]
  rfl

/-- The ticket of the live result of a tenant. -/
def live? (w : World δ) (tenant : Uuid) : Option Nat :=
  (w.registry.peek w.isEvictable w.time tenant).1

theorem outcome_ticketOf_none (e : env.Within c) (registry : w.registry.Sound)
    (storage : w.storage.Sound) (h : live? w tenant = none) :
    ∃ w', (ticketOf env tenant).outcome w = (.error (.resultNotFound (.uuid tenant)), w') ∧
      w.Trims w' := by
  obtain ⟨s, due, run, trims⟩ := outcome_withRegistry (w := w) e storage
    (fun w => w.registry.get w.isEvictable w.time tenant (.resultNotFound (.uuid tenant)))
    (Registry.get_drops registry)
  rw [Registry.get_none registry h] at run
  exact ⟨_, run, trims⟩

theorem outcome_ticketOf_some {ticket : Nat} (h : live? w tenant = some ticket) :
    (ticketOf env tenant).outcome w =
      (.ok ticket, { w with registry := w.registry.access tenant w.time }) :=
  outcome_withRegistry_quiet (Registry.get_some h)

theorem outcome_resultOf {ticket : Nat} {r : JobResult} (h : w.result? ticket = some r) :
    (resultOf ticket).outcome w = (.ok r, w) := by
  rw [resultOf, Act.outcome_bind_ok (Act.outcome_get w), h]
  rfl

theorem outcome_getResult_none (e : env.Within c) (registry : w.registry.Sound)
    (storage : w.storage.Sound) (h : live? w tenant = none) :
    ∃ w', (getResult env tenant).outcome w = (.error (.resultNotFound (.uuid tenant)), w') ∧
      w.Trims w' := by
  obtain ⟨w', run, trims⟩ := outcome_ticketOf_none e registry storage h
  exact ⟨w', Act.outcome_bind_error run, trims⟩

theorem outcome_getResult_some {ticket : Nat} {r : JobResult} (h : live? w tenant = some ticket)
    (hr : w.result? ticket = some r) :
    (getResult env tenant).outcome w =
      (.ok r, { w with registry := w.registry.access tenant w.time }) := by
  rw [getResult, Act.outcome_bind_ok (outcome_ticketOf_some h)]
  exact outcome_resultOf hr

/-- A result that is looked at is the live one, and what is stored stays. -/
theorem getResult_ok (e : env.Within c) (registry : w.registry.Sound) (storage : w.storage.Sound)
    {r : JobResult} (run : (getResult env tenant).outcome w = (.ok r, w')) :
    (∃ ticket, live? w tenant = some ticket ∧ w.result? ticket = some r) ∧
      w'.storage = w.storage := by
  cases live : live? w tenant with
  | none =>
    obtain ⟨_, absent, _⟩ := outcome_getResult_none e registry storage live
    cases absent.symm.trans run
  | some ticket =>
    rw [getResult, Act.outcome_bind_ok (outcome_ticketOf_some live), resultOf,
      Act.outcome_bind_ok (Act.outcome_get _)] at run
    cases found : w.result? ticket with
    | none =>
      rw [show World.result? { w with registry := w.registry.access tenant w.time } ticket = none
        from found] at run
      cases run
    | some r' =>
      rw [show World.result? { w with registry := w.registry.access tenant w.time } ticket = some r'
        from found] at run
      cases run
      exact ⟨⟨ticket, rfl, found⟩, rfl⟩

theorem outcome_download_unfinished {ticket : Nat} {r : JobResult}
    (h : live? w tenant = some ticket) (hr : w.result? ticket = some r) (hopen : r.isDone = false) :
    (download env tenant).outcome w = (.error (.notReady (.uuid tenant)),
      { w with registry := w.registry.access tenant w.time }) := by
  rw [download, Act.outcome_bind_ok (outcome_getResult_some h hr), hopen]
  rfl

theorem outcome_download_failed {ticket : Nat} {r : JobResult}
    (h : live? w tenant = some ticket) (hr : w.result? ticket = some r) (hs : r.status = .failed) :
    (download env tenant).outcome w =
      (.error (.exportFailed (.uuid tenant) (r.error.elim .null .str)),
        { w with registry := w.registry.access tenant w.time }) := by
  have done : r.isDone = true := JobResult.isDone_of hs
  have bad : r.isSuccess = false := JobResult.isSuccess_of hs
  rw [download, Act.outcome_bind_ok (outcome_getResult_some h hr), done, bad]
  rfl

theorem outcome_delete_unfinished {ticket : Nat} {r : JobResult}
    (h : live? w tenant = some ticket) (hr : w.result? ticket = some r) (hopen : r.isDone = false) :
    (delete env tenant).outcome w = (.error (.alreadyRunning (.uuid tenant)),
      { w with registry := w.registry.access tenant w.time }) := by
  rw [delete, Act.outcome_bind_ok (outcome_getResult_some h hr), hopen]
  rfl

theorem outcome_fetch (e : env.Within c) (w : World δ) (tenant : Uuid) :
    (useStorage env .fetch (Storage.fetch tenant)).outcome w =
      (((Storage.fetch tenant).outcome w.storage).1,
        { w with storage := ((Storage.fetch tenant).outcome w.storage).2 }) :=
  outcome_useStorage (e.others .fetch (by simp) (by simp)) rfl

/-- What the storage has for a tenant whose live result succeeded is what can be downloaded. -/
theorem outcome_download_succeeded (e : env.Within c) {ticket : Nat} {r : JobResult}
    (h : live? w tenant = some ticket) (hr : w.result? ticket = some r)
    (hs : r.status = .succeeded) :
    (download env tenant).outcome w = (((Storage.fetch tenant).outcome w.storage).1,
      { w with
        registry := w.registry.access tenant w.time
        storage := ((Storage.fetch tenant).outcome w.storage).2 }) := by
  have done : r.isDone = true := JobResult.isDone_of hs
  have good : r.isSuccess = true := JobResult.isSuccess_of hs
  rw [download, Act.outcome_bind_ok (outcome_getResult_some h hr), done, good]
  exact outcome_fetch e { w with registry := w.registry.access tenant w.time } tenant

theorem outcome_peekResult (w : World δ) (tenant : Uuid) :
    (peekResult tenant).outcome w = (.ok ((live? w tenant).bind w.result?),
      { w with registry := (w.registry.peek w.isEvictable w.time tenant).2 }) := rfl

theorem outcome_approve_failed (e : env.Within c) {id : Uuid} {failure : Failure} {data : δ}
    (asked : (c.ask (.tenant id)).outcome w.data = (.error failure, data)) :
    (approve env id).outcome w = (.error failure, { w with data }) := by
  have found : (env.ask (.tenant id)).outcome w = (.error failure, { w with data }) := by
    rw [e.ask, World.outcome_onData, asked]
  exact Act.outcome_bind_error found

theorem outcome_approve_unknown (e : env.Within c) {id : Uuid} {data : δ}
    (asked : (c.ask (.tenant id)).outcome w.data = (.ok none, data)) :
    (approve env id).outcome w = (.error (.tenantNotFound (.uuid id)), { w with data }) := by
  have found : (env.ask (.tenant id)).outcome w = (.ok none, { w with data }) := by
    rw [e.ask, World.outcome_onData, asked]
  exact Act.outcome_bind_ok found

theorem outcome_approve_known (e : env.Within c) {id : Uuid} {tenant : Tenant} {data : δ}
    (asked : (c.ask (.tenant id)).outcome w.data = (.ok (some tenant), data)) :
    (approve env id).outcome w =
      ((verdict env w.worker id ((live? w id).bind w.result?)).map fun _ => tenant,
        { w with data, registry := (w.registry.peek w.isEvictable w.time id).2 }) := by
  have found : (env.ask (.tenant id)).outcome w = (.ok (some tenant), { w with data }) := by
    rw [e.ask, World.outcome_onData, asked]
  refine (Act.outcome_bind_ok found).trans ?_
  refine (Act.outcome_bind_ok (outcome_peekResult { w with data } id)).trans ?_
  refine (Act.outcome_bind_ok (Act.outcome_get _)).trans ?_
  exact Act.outcome_settle_then _ tenant _

theorem outcome_submit_unfinished (e : env.Within c) (refuses : env.allowsResubmission = false)
    {ticket : Nat} {r : JobResult} (h : live? w tenant = some ticket)
    (hr : w.result? ticket = some r) (hopen : r.isDone = false) {owner : Tenant} {data : δ}
    (asked : (c.ask (.tenant tenant)).outcome w.data = (.ok (some owner), data))
    (skipped : List RecordType) :
    (submit env tenant skipped).outcome w = (.error (.alreadyRunning (.uuid tenant)),
      { w with data, registry := (w.registry.peek w.isEvictable w.time tenant).2 }) := by
  have running : verdict env w.worker tenant ((live? w tenant).bind w.result?) =
      .error (.alreadyRunning (.uuid tenant)) := by
    rw [h, Option.bind_some, hr, verdict, refuses, Option.any_some, hopen]
    rfl
  refine Act.outcome_bind_error ?_
  rw [outcome_approve_known e asked, running]
  rfl

end Service

/-- The world after an export has been registered for a tenant. -/
def World.registered (w : World δ) (tenant : Uuid) : World δ :=
  { w with
    registry := (w.registry.put w.time tenant w.results.length).2
    results := w.results ++ [.submitted tenant w.clock.now]
    clock := w.clock.tick }

namespace Service

variable {env : Environment δ} {c : Surroundings δ} {w : World δ} {id : Uuid} {ticket : Nat}

theorem outcome_register (w : World δ) (id : Uuid) : (register id).outcome w =
    (.ok (w.results.length, w.registry.value? id), w.registered id) := by
  rw [← Registry.put_replaced w.registry w.time id w.results.length]
  rfl

theorem outcome_handIn_ok {task : Task} {worker : Worker Task}
    (h : w.worker.submit task = .ok worker) :
    (handIn id ticket task).outcome w = (.ok (), { w with worker }) := by
  have queued : (enqueue task).outcome w = (.ok (), { w with worker }) := by
    rw [enqueue, Act.outcome_bind_ok (Act.outcome_get w), h]
    rfl
  rw [handIn, Act.outcome_bind_ok (Act.outcome_attempt _ w), queued]
  rfl

theorem outcome_handIn_error {task : Task} {failure : Failure}
    (h : w.worker.submit task = .error failure) :
    (handIn id ticket task).outcome w =
      (.error failure, { w with registry := (w.registry.discard id ticket).2 }) := by
  have refused : (enqueue task).outcome w = (.error failure, w) := by
    rw [enqueue, Act.outcome_bind_ok (Act.outcome_get w), h]
    rfl
  rw [handIn, Act.outcome_bind_ok (Act.outcome_attempt _ w), refused]
  rfl

theorem outcome_enter_cleaned {v : World δ} {tenant : Tenant} {skipped : List RecordType}
    (cleaned : (cleanReplaced env w id (w.registry.value? id)).outcome (w.registered id) =
      (.ok (), v)) :
    (enter env id tenant skipped).outcome w =
      (handIn id w.results.length (.job w.results.length tenant skipped)).outcome v := by
  rw [enter, Act.outcome_bind_ok (Act.outcome_get w), Act.outcome_bind_ok (outcome_register w id)]
  exact Act.outcome_bind_ok cleaned

theorem outcome_enter_uncleaned {v : World δ} {tenant : Tenant} {skipped : List RecordType}
    {failure : Failure}
    (refused : (cleanReplaced env w id (w.registry.value? id)).outcome (w.registered id) =
      (.error failure, v)) :
    (enter env id tenant skipped).outcome w = (.error failure, v) := by
  rw [enter, Act.outcome_bind_ok (Act.outcome_get w), Act.outcome_bind_ok (outcome_register w id)]
  exact Act.outcome_bind_error refused

end Service

namespace World.Trims

variable {w w' : World δ}

theorem ofRegistry (storage : w.storage.Sound) {registry : Registry Uuid Nat}
    (sound : registry.Sound) (same : ∀ tenant, registry.value? tenant = w.registry.value? tenant) :
    w.Trims { w with registry } :=
  ⟨rfl, rfl, sound, storage, fun tenant _ hv => same tenant ▸ hv,
    fun tenant _ hv _ => (same tenant).trans hv, fun _ _ _ _ hk => hk, fun _ _ _ _ hk => hk⟩

end World.Trims

end Handover
