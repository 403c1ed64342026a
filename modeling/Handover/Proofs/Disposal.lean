import Handover.Proofs.Accounting
import Handover.Proofs.Orderly
import Handover.Proofs.Reclaim

namespace Handover

open Act

namespace Registry

variable {κ ν : Type} [DecidableEq κ] [DecidableEq ν] {r : Registry κ ν} {key : κ}

/-- A key that is gone is told of, if all its values are accounted for. -/
theorem told_of_gone {r' : Registry κ ν} {notices : List (Notice κ ν)}
    (accounted : ∀ value, r.presence key value =
      r'.presence key value + notices.countP (·.tellsOf key value))
    (gone : r'.value? key = none) :
    r.value? key = none ∨ ∃ notice ∈ notices, notice.key = key := by
  cases there : r.value? key with
  | none => exact .inl rfl
  | some value =>
    have once := accounted value
    rw [presence_eq, presence_eq, gone, there, if_pos rfl, if_neg (by simp)] at once
    have some_told : 0 < notices.countP (·.tellsOf key value) := by omega
    obtain ⟨notice, hn, told⟩ := List.countP_pos_iff.mp some_told
    exact .inr ⟨notice, hn, (of_decide_eq_true told).1⟩

/-- A call tells of every key that goes, unless it discards. -/
theorem follow_told (h : r.Sound) (listens : r.listens = true) (absent : κ → Failure)
    (m : Moment ν) (call : RegistryCall κ ν) (undiscarded : ∀ other v, call ≠ .discard other v)
    (gone : (r.follow absent m call).registry.value? key = none) :
    r.value? key = none ∨ ∃ notice ∈ (r.follow absent m call).notices, notice.key = key := by
  cases call with
  | put other v =>
    have gone' : (r.put m.now other v).2.value? key = none := gone
    by_cases own : key = other
    · rw [own, value?_put_self] at gone'
      cases gone'
    · exact .inl ((value?_put_of_ne r m.now v own).symm.trans gone')
  | get other =>
    exact told_of_gone (fun value => get_accounted listens h.awake m.evictable m.now other _) gone
  | peek other => exact .inl ((peek_value? r m.evictable m.now other key).symm.trans gone)
  | contains other => exact .inl ((peek_value? r m.evictable m.now other key).symm.trans gone)
  | touch other v => exact .inl ((touch_value? r m.now other key v).symm.trans gone)
  | discard other v => exact absurd rfl (undiscarded other v)
  | remove other =>
    exact told_of_gone (fun value => remove_accounted listens h.awake other) gone
  | purge =>
    exact told_of_gone (fun value => purge_accounted h.keyed listens h.awake m.evictable m.now) gone
  | close => exact told_of_gone (fun value => close_accounted h.keyed listens h.awake) gone

/-- Whether a registry can still tell, and notices tell of every key it has lost. -/
structure Tells (r r' : Registry κ ν) (notices : List (Notice κ ν)) : Prop where
  sound : r'.Sound
  listens : r'.listens = true
  told : ∀ key, r'.value? key = none → r.value? key = none ∨ ∃ notice ∈ notices, notice.key = key

theorem follow_tells (h : r.Sound) (listens : r.listens = true) (absent : κ → Failure)
    (m : Moment ν) (call : RegistryCall κ ν) (stays : call ≠ .close)
    (undiscarded : ∀ other v, call ≠ .discard other v) :
    r.Tells (r.follow absent m call).registry (r.follow absent m call).notices where
  sound := ⟨Keyed.follow h.keyed absent m call, fun stopped =>
    ((follow_cleaner absent r m call).2 stopped).elim h.awake stays⟩
  listens := (follow_terms absent r m call).2.trans listens
  told _ gone := follow_told h listens absent m call undiscarded gone

end Registry

variable {δ : Type}

/-- Whether what leaves the registry is cleaned up at once, without being kept from it. -/
structure Environment.Prompt (env : Environment δ) : Prop where
  cleansUp : env.CleansUp
  keepsUp : env.keepsUp = true

theorem Environment.Prompt.heed_eq {env : Environment δ} (h : env.Prompt)
    (notices : List (Notice Uuid Nat)) :
    Service.heed env notices = Service.cleanUpAll env (notices.map (·.key)) := by
  rw [Service.heed, h.keepsUp, if_pos rfl]

/-- A world in which everything that is stored is stored for tenants that are registered. The
registry tells of what it removes. -/
structure World.Swept (ws : Workspace) (w : World δ) : Prop where
  registry : w.registry.Sound
  listens : w.registry.listens = true
  disposes : w.storage.Disposes
  site : ws.SameSite w.storage.workspace
  clear : ∀ tenant, w.registry.value? tenant = none → w.storage.Clear tenant

/-- Whether a world has nothing new stored but for a tenant, and in the same place. -/
structure World.StoresFor (owner : Uuid) (w w' : World δ) : Prop where
  site : w.storage.workspace.SameSite w'.storage.workspace
  clear : ∀ other, other ≠ owner → w.storage.Clear other → w'.storage.Clear other

namespace World.Swept

variable {ws : Workspace} {w w' : World δ}

/-- The data, the results, the queue and the time have no part in what is stored, and the registry
none as long as it loses nothing. -/
theorem of_tells (h : w.Swept ws) (tells : w.registry.Tells w'.registry [])
    (storage : w'.storage = w.storage) : w'.Swept ws where
  registry := tells.sound
  listens := tells.listens
  disposes := storage ▸ h.disposes
  site := storage ▸ h.site
  clear tenant absent := storage ▸ h.clear tenant ((tells.told tenant absent).resolve_right nofun)

theorem of_registry (h : w.Swept ws) (registry : w'.registry = w.registry)
    (storage : w'.storage = w.storage) : w'.Swept ws := by
  refine h.of_tells ?_ storage
  rw [registry]
  exact ⟨h.registry, h.listens, fun _ => .inl⟩

theorem of_beside (h : w.Swept ws) (beside : w.Beside w')
    (site : w.storage.workspace.SameSite w'.storage.workspace)
    (clear : ∀ tenant, w.storage.Clear tenant → w'.storage.Clear tenant) : w'.Swept ws where
  registry := beside.registry.symm ▸ h.registry
  listens := beside.registry.symm ▸ h.listens
  disposes := by
    rw [Storage.Disposes, beside.faults]
    exact h.disposes
  site := h.site.trans site
  clear tenant absent := clear tenant (h.clear tenant (beside.registry ▸ absent))

end World.Swept

namespace Service

variable {env : Environment δ} {ws : Workspace} {w : World δ} {tenant other : Uuid} {α : Type}

/-- How a look at a tenant fails that is not registered. -/
def noResult (tenant : Uuid) : Failure :=
  .resultNotFound (.uuid tenant)

theorem cleanUp_storage (e : env.Apart) (cleans : env.CleansUp) (w : World δ) (tenant : Uuid) :
    ((cleanUp env tenant).outcome w).2.storage =
      ((Storage.cleanUp tenant).outcome w.storage).2 := by
  obtain ⟨ahead, happens⟩ := e.before .cleanUp
  have goes := cleans w
  rw [happens, World.outcome_onData] at goes
  have run : (cleanUp env tenant).outcome w = _ :=
    outcome_useStorage_ok happens (Prod.ext goes rfl)
  rw [run]

/-- What clean-ups do to a world: what is stored for their tenants is removed, and for others nothing
is left that was not there. -/
structure Cleaned (tenants : List Uuid) (w w' : World δ) : Prop where
  beside : w.Beside w'
  site : w.storage.workspace.SameSite w'.storage.workspace
  clear : ∀ other, other ∈ tenants ∨ w.storage.Clear other → w'.storage.Clear other

theorem cleanUp_cleaned (e : env.Apart) (cleans : env.CleansUp) (disposes : w.storage.Disposes)
    (tenant : Uuid) : Cleaned [tenant] w ((cleanUp env tenant).outcome w).2 := by
  have storage := cleanUp_storage e cleans w tenant
  have allowed : ∀ r, w.storage = .remote r → r.store.faults.lookup .delete = none := by
    intro r hr
    rw [hr] at disposes
    exact disposes
  refine ⟨cleanUp_beside e tenant w w (.refl w), ?_, fun other clear => ?_⟩
  · rw [storage]
    exact (Storage.cleanUp_leavesOnly tenant w.storage).site
  · rw [storage]
    exact Storage.cleanUp_clear w.storage allowed tenant (clear.imp_left List.mem_singleton.mp)

theorem cleanUpAll_cleaned (e : env.Apart) (cleans : env.CleansUp) (disposes : w.storage.Disposes)
    (tenants : List Uuid) : Cleaned tenants w ((cleanUpAll env tenants).outcome w).2 := by
  induction tenants generalizing w with
  | nil => exact ⟨.refl w, ⟨rfl, rfl⟩, fun _ clear => clear.resolve_left (by simp)⟩
  | cons tenant rest ih =>
    have first := cleanUp_cleaned e cleans disposes tenant
    have told := outcome_ignoringFailure (cleanUp env tenant) w
    generalize ((cleanUp env tenant).outcome w).2 = w₁ at first told
    have further := ih (w := w₁) (by rwa [Storage.Disposes, first.beside.faults])
    have run : ((cleanUpAll env (tenant :: rest)).outcome w).2 =
        ((cleanUpAll env rest).outcome w₁).2 := congrArg Prod.snd (outcome_bind_ok told)
    rw [run]
    refine ⟨first.beside.trans further.beside, first.site.trans further.site, fun other clear => ?_⟩
    refine further.clear other ?_
    rcases clear with named | clear
    · rcases List.mem_cons.mp named with own | later
      · exact .inr (first.clear other (.inl (List.mem_singleton.mpr own)))
      · exact .inl later
    · exact .inr (first.clear other (.inr clear))

/-- The cleaner removes what is stored for those whose clean-ups have waited. -/
theorem tend_cleaned (e : env.Apart) (cleans : env.CleansUp) (disposes : w.storage.Disposes)
    (count : Nat) : Cleaned (w.due.take count) w ((tend env count).outcome w).2 := by
  obtain ⟨beside, site, clear⟩ := cleanUpAll_cleaned
    (w := { w with due := w.due.drop count }) e cleans disposes (w.due.take count)
  exact ⟨(World.Beside.withDue w _).trans beside, site, clear⟩

/-- What is told of when entries are removed is no longer stored. -/
theorem withRegistry_cleaned (e : env.Apart) (prompt : env.Prompt)
    (disposes : w.storage.Disposes) (operation : World δ → Removal Uuid Nat α) :
    Cleaned ((operation w).notices.map (·.key)) { w with registry := (operation w).registry }
      ((withRegistry env operation).outcome w).2 := by
  let w₁ : World δ := { w with registry := (operation w).registry }
  have cleaned := cleanUpAll_cleaned (w := w₁) e prompt.cleansUp disposes
    ((operation w).notices.map (·.key))
  rw [← prompt.heed_eq] at cleaned
  obtain ⟨w₂, heeded, _⟩ := outcome_heed_apart e (operation w).notices w₁
  have run : (withRegistry env operation).outcome w = ((operation w).answer, w₂) := by
    rw [withRegistry, outcome_bind_ok (outcome_get w)]
    dsimp only
    rw [outcome_bind_ok (outcome_set _ w), outcome_bind_ok heeded, outcome_settle]
  rwa [run, show w₂ = ((heed env (operation w).notices).outcome w₁).2 by rw [heeded]]

theorem withRegistry_swept (e : env.Apart) (prompt : env.Prompt)
    {operation : World δ → Removal Uuid Nat α}
    (tells : ∀ w : World δ, w.registry.Sound → w.registry.listens = true →
      w.registry.Tells (operation w).registry (operation w).notices) :
    Preserves (World.Swept ws) (withRegistry env operation) := by
  intro w h
  obtain ⟨sound, listens, told⟩ := tells w h.registry h.listens
  have cleaned := withRegistry_cleaned e prompt h.disposes operation
  refine ⟨?_, ?_, ?_, h.site.trans cleaned.site, fun tenant absent => ?_⟩
  · rwa [cleaned.beside.registry]
  · rwa [cleaned.beside.registry]
  · rw [Storage.Disposes, cleaned.beside.faults]
    exact h.disposes
  · rw [cleaned.beside.registry] at absent
    refine cleaned.clear tenant ?_
    rcases told tenant absent with before | ⟨notice, hn, named⟩
    · exact .inr (h.clear tenant before)
    · exact .inl (List.mem_map.mpr ⟨notice, hn, named⟩)

theorem tend_swept (e : env.Apart) (cleans : env.CleansUp) (count : Nat) :
    Preserves (World.Swept ws) (tend env count) := by
  intro w h
  have cleaned := tend_cleaned e cleans h.disposes count
  exact h.of_beside cleaned.beside cleaned.site fun other clear => cleaned.clear other (.inr clear)

/-- When the service is shut down, nothing is stored any more. -/
theorem shutdown_clear (e : env.Apart) (prompt : env.Prompt) (h : w.Swept ws) :
    ws.SameSite ((shutdown env).outcome w).2.storage.workspace ∧
      ∀ tenant, ((shutdown env).outcome w).2.storage.Clear tenant := by
  let w₁ : World δ := { w with worker := w.worker.shutdown }
  have stopped : shutdownWorker.outcome w = (.ok (), w₁) := rfl
  have cleaned := withRegistry_cleaned (w := w₁) e prompt h.disposes fun w => w.registry.close
  rw [shutdown, outcome_bind_ok stopped, outcome_followedBy_state]
  generalize ((withRegistry env fun w => w.registry.close).outcome w₁).2 = w₂ at cleaned
  have tended := tend_cleaned (w := w₂) e prompt.cleansUp
    (by rw [Storage.Disposes, cleaned.beside.faults]; exact h.disposes) w₂.due.length
  refine ⟨(h.site.trans cleaned.site).trans tended.site, fun tenant =>
    tended.clear tenant (.inr (cleaned.clear tenant ?_))⟩
  have told := Registry.follow_told h.registry h.listens noResult ⟨w.time, w.isEvictable⟩ .close
    (by simp) (Registry.value?_of_not_held (Registry.held?_close w.registry tenant))
  rcases told with absent | ⟨notice, hn, named⟩
  · exact .inr (h.clear tenant absent)
  · exact .inl (List.mem_map.mpr ⟨notice, hn, named⟩)

theorem onData_swept (act : Act δ α) : Preserves (World.Swept ws) (World.onData act) :=
  fun _ h => h.of_registry rfl rfl

theorem getResult_swept (e : env.Apart) (prompt : env.Prompt) (tenant : Uuid) :
    Preserves (World.Swept ws) (getResult env tenant) := by
  have ticketed : Preserves (World.Swept ws) (ticketOf env tenant) :=
    withRegistry_swept e prompt fun w sound listens => Registry.follow_tells sound listens
      noResult ⟨w.time, w.isEvictable⟩ (.get tenant) nofun nofun
  refine ticketed.bind fun ticket => .get_bind fun w h => ?_
  cases w.result? ticket with
  | some r => exact h
  | none => exact h

theorem fetch_swept (e : env.Apart) (tenant : Uuid) :
    Preserves (World.Swept ws) (useStorage env .fetch (Storage.fetch tenant)) := by
  intro w h
  have keeps : Storage.KeepsFaults (Storage.fetch tenant) :=
    Storage.either_keepsFaults fun _ => RemoteStorage.fetch_faulty tenant
  have beside := useStorage_beside e .fetch keeps w w (.refl w)
  rcases useStorage_storage e .fetch (Storage.fetch tenant) w with same | fetched
  · exact h.of_beside beside (same ▸ ⟨rfl, rfl⟩) fun _ clear => same ▸ clear
  · obtain ⟨site, clear⟩ := Storage.fetch_clear w.storage tenant
    refine h.of_beside beside ?_ fun other absent => fetched ▸ clear other absent
    rw [fetched, site]
    exact ⟨rfl, rfl⟩

theorem download_swept (e : env.Apart) (prompt : env.Prompt) (tenant : Uuid) :
    Preserves (World.Swept ws) (download env tenant) := by
  refine (getResult_swept e prompt tenant).bind fun r => ?_
  cases r.isDone with
  | false => exact .throw _
  | true =>
    cases r.isSuccess with
    | false => exact .throw _
    | true => exact fetch_swept e tenant

theorem delete_swept (e : env.Apart) (prompt : env.Prompt) (tenant : Uuid) :
    Preserves (World.Swept ws) (delete env tenant) := by
  refine (getResult_swept e prompt tenant).bind fun r => ?_
  cases r.isDone with
  | false => exact .throw _
  | true =>
    have removed : Preserves (World.Swept ws)
        (withRegistry env fun w => w.registry.remove tenant) :=
      withRegistry_swept e prompt fun w sound listens => Registry.follow_tells sound listens
        noResult ⟨w.time, w.isEvictable⟩ (.remove tenant) nofun nofun
    exact removed.discard

theorem purge_swept (e : env.Apart) (prompt : env.Prompt) :
    Preserves (World.Swept ws) (purge env) :=
  withRegistry_swept e prompt fun w sound listens => Registry.follow_tells sound listens
    noResult ⟨w.time, w.isEvictable⟩ .purge nofun nofun

theorem approve_swept (e : env.Apart) (id : Uuid) :
    Preserves (World.Swept ws) (approve env id) := by
  obtain ⟨act, asks⟩ := e.ask (.tenant id)
  rw [approve, asks]
  refine (onData_swept act).bind fun found => ?_
  rcases found with _ | tenant
  · exact .throw _
  · have peeked : Preserves (World.Swept (δ := δ) ws) (peekResult id) := by
      intro w h
      rw [outcome_peekResult]
      exact h.of_tells (Registry.follow_tells h.registry h.listens noResult
        ⟨w.time, w.isEvictable⟩ (.peek id) nofun nofun) rfl
    refine peeked.bind fun previous => .get_bind fun w h => ?_
    exact ((Preserves.settle _).bind fun _ => .pure tenant) w h

theorem cleanReplaced_swept (e : env.Apart) (cleans : env.CleansUp) (v : World δ) (id : Uuid)
    (replaced : Option Nat) : Preserves (World.Swept ws) (cleanReplaced env v id replaced) := by
  unfold cleanReplaced
  split
  next =>
    intro w h
    have cleaned := cleanUp_cleaned e cleans h.disposes id
    exact h.of_beside cleaned.beside cleaned.site fun other clear =>
      cleaned.clear other (.inr clear)
  next => exact .pure _

theorem cleanReplaced_beside (e : env.Apart) (v w₀ : World δ) (id : Uuid) (replaced : Option Nat) :
    Preserves w₀.Beside (cleanReplaced env v id replaced) := by
  unfold cleanReplaced
  split
  next => exact cleanUp_beside e id w₀
  next => exact .pure _

/-- An export that is entered belongs to a tenant that is registered. -/
theorem enter_swept (e : env.Apart) (cleans : env.CleansUp) (h : w.Swept ws)
    (isOpen : w.worker.isOpen = true) (free : w.worker.isFull = false) (id : Uuid)
    (tenant : Tenant) (skipped : List RecordType) :
    ((enter env id tenant skipped).outcome w).2.Swept ws := by
  have registered : (w.registered id).Swept ws :=
    h.of_tells (Registry.follow_tells h.registry h.listens noResult ⟨w.time, w.isEvictable⟩
      (.put id w.results.length) nofun nofun) rfl
  have replaced := cleanReplaced_swept e cleans w id (w.registry.value? id) _ registered
  have beside := cleanReplaced_beside e w (w.registered id) id (w.registry.value? id) _ (.refl _)
  rcases run : (cleanReplaced env w id (w.registry.value? id)).outcome (w.registered id) with
    ⟨failure | _, w₁⟩
  · rw [run] at replaced
    rw [outcome_enter_uncleaned run]
    exact replaced
  · rw [run] at replaced beside
    obtain ⟨worker, submitted⟩ : ∃ worker,
        w₁.worker.submit (.job w.results.length tenant skipped) = .ok worker := by
      rw [show w₁.worker = w.worker from beside.worker, Worker.submit, isOpen, free]
      exact ⟨_, rfl⟩
    rw [outcome_enter_cleaned run, outcome_handIn_ok submitted]
    exact replaced.of_registry rfl rfl

theorem submit_swept (e : env.Apart) (cleans : env.CleansUp) (h : w.Swept ws)
    (isOpen : w.worker.isOpen = true) (id : Uuid) (skipped : List RecordType) :
    ((submit env id skipped).outcome w).2.Swept ws := by
  have approved := approve_swept e id w h
  obtain ⟨answer, w₁, run, _, known⟩ := outcome_approve_apart e w id
  rw [run] at approved
  cases answer with
  | error failure =>
    rw [submit, outcome_bind_error run]
    exact approved
  | ok tenant =>
    obtain ⟨peeked, allowed, _⟩ := known tenant rfl
    have worker : w₁.worker = w.worker := peeked.worker
    have free : w₁.worker.isFull = false := worker ▸ verdict_ok allowed
    have entered := enter_swept e cleans approved (worker ▸ isOpen) free id tenant skipped
    rw [submit, outcome_bind_ok run, outcome_bind]
    rcases ran : (enter env id tenant skipped).outcome w₁ with ⟨failure | _, w₂⟩ <;>
    · rw [ran] at entered
      exact entered

/-- What a job stores is stored for its own tenant. -/
theorem exportTenant_storesFor (e : env.Apart) (w₀ : World δ) (ticket : Nat) (tenant : Tenant)
    (skipped : List RecordType) :
    Preserves (w₀.StoresFor tenant.id) (exportTenant env ticket tenant skipped) := by
  let P (s : Storage) : Prop := w₀.storage.workspace.SameSite s.workspace ∧
    ∀ other, other ≠ tenant.id → w₀.storage.Clear other → s.Clear other
  have leaves : ∀ {act : Act Storage Unit}, Storage.LeavesOnly tenant.id act →
      Preserves P act := by
    intro act leaves s h
    exact ⟨h.1.trans (leaves s).site,
      fun other hne clear => (leaves s).clear hne (h.2 other hne clear)⟩
  have stored : Preserves (fun w : World δ => P w.storage)
      (exportTenant env ticket tenant skipped) :=
    exportTenant_stored e (leaves (Storage.prepare_leavesOnly tenant.id))
      (fun type record => leaves (Storage.save_leavesOnly tenant.id type record))
      (leaves (Storage.close_leavesOnly tenant.id)) (leaves (Storage.pack_leavesOnly tenant.id))
  intro w h
  obtain ⟨site, clear⟩ := stored w ⟨h.site, h.clear⟩
  exact ⟨site, clear⟩

end Service

end Handover
