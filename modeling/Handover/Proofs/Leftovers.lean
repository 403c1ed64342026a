import Handover.Proofs.Disposal
import Handover.Proofs.Life
import Handover.Proofs.Retrieval

namespace Handover

open Act

variable {δ : Type}

/-- Whether nothing of a tenant is found in a storage: no folder and no object, and where a name of
archives leads to places in the folders of their tenants, no archive and no other file. -/
structure Storage.Lacks (archiveName : String) (tenant : Uuid) (s : Storage) : Prop where
  folder : s.workspace.tree.node? (s.workspace.tenantPath tenant) ≠ some .folder
  object : ∀ r, s = .remote r → ∀ members, (r.archivePlace tenant, members) ∉ r.store.objects
  archive : (Workspace.new archiveName).Contained →
    s.workspace.tree.node? (FileTree.lexical (s.workspace.archiveSteps tenant)) = none
  files : (Workspace.new archiveName).Contained → ∀ path, s.workspace.tenantPath tenant <+: path →
    s.workspace.tree.node? path = none

theorem Storage.Clear.lacks {s : Storage} {tenant : Uuid} {archiveName : String}
    (h : s.Clear tenant) (site : (Workspace.new archiveName).SameSite s.workspace) :
    s.Lacks archiveName tenant where
  folder := (h.files _ List.prefix_rfl).folder
  object := h.objects
  archive contained :=
    have own := site.contained_iff.mpr contained
    (h.files _ (own.inside tenant)).file own
  files contained path below := (h.files path below).file (site.contained_iff.mpr contained)

theorem Storage.Fresh.disposes {s : Storage} {archiveName : String} (h : s.Fresh archiveName) :
    s.Disposes := by
  rcases h with rfl | ⟨settings, r, made, rfl⟩
  · rfl
  · rw [RemoteStorage.new_eq made]
    rfl

namespace World

/-- Whether the tenant of every job that waits is registered with the result of that job or a newer
one, which is still submitted. -/
def Attended (w : World δ) : Prop :=
  ∀ ticket tenant skipped, .job ticket tenant skipped ∈ w.worker.waiting →
    ∃ newest moment, ticket ≤ newest ∧ w.registry.value? tenant.id = some newest ∧
      w.result? newest = some (.submitted tenant.id moment)

variable {w w' : World δ} {ws : Workspace}

theorem Attended.sheds (h : w.Attended) (sheds : w.Sheds w') : w'.Attended := by
  intro ticket tenant skipped hm
  rw [sheds.worker] at hm
  obtain ⟨newest, moment, older, hv, hr⟩ := h ticket tenant skipped hm
  exact ⟨newest, moment, older, sheds.retained tenant.id newest hv (not_evictable hr rfl),
    (sheds.result? newest).trans hr⟩

theorem Attended.registered (h : w.Attended) (orderly : w.Orderly) {tenant : Tenant}
    {skipped : List RecordType} {worker : Worker Task} (submitted :
      w.worker.submit (.job w.results.length tenant skipped) = .ok worker) :
    Attended { w.registered tenant.id with worker } := by
  obtain ⟨waiting, _⟩ := Worker.submit_ok submitted
  have value_self := Registry.value?_put_self w.registry w.time tenant.id w.results.length
  have result_self := result?_registered_new w tenant.id
  intro ticket owner other hm
  have hm' : Task.job ticket owner other ∈
      w.worker.waiting ++ [.job w.results.length tenant skipped] := waiting ▸ hm
  rcases List.mem_append.mp hm' with hold | hnew
  · obtain ⟨newest, moment, older, hv, hr⟩ := h ticket owner other hold
    obtain ⟨_, queued⟩ := orderly.queued ticket owner other hold
    by_cases own : owner.id = tenant.id
    · -- The job that waits is followed by the new one.
      rw [own]
      exact ⟨_, _, Nat.le_of_lt (List.getElem?_eq_some_iff.mp queued).1, value_self, result_self⟩
    · exact ⟨newest, moment, older, (Registry.value?_put_of_ne _ _ _ own).trans hv,
        result?_registered_old hr⟩
  · cases List.mem_singleton.mp hnew
    exact ⟨_, _, Nat.le_refl _, value_self, result_self⟩

/-- The jobs that wait behind one that has run are newer, and so are their results. -/
theorem Attended.ran (h : w.Attended) (orderly : w.Orderly) {ticket : Nat} {tenant : Tenant}
    {skipped : List RecordType} {rest : List Task} {worker : Worker Task}
    (front : w.worker.waiting = .job ticket tenant skipped :: rest) (left : worker.waiting = rest)
    (value : ∀ other, w'.registry.value? other = w.registry.value? other)
    (others : ∀ other, other ≠ ticket → w'.result? other = w.result? other) :
    Attended { w' with worker } := by
  intro number owner other hm
  have waits : .job number owner other ∈ rest := left ▸ hm
  obtain ⟨newest, moment, older, hv, hr⟩ :=
    h number owner other (front ▸ List.mem_cons_of_mem _ waits)
  have order := orderly.order
  rw [front] at order
  have later : ticket < number := List.rel_of_pairwise_cons order
    (List.mem_append_left _ (List.mem_filterMap.mpr ⟨_, waits, rfl⟩))
  have hne : newest ≠ ticket := by omega
  exact ⟨newest, moment, older, (value owner.id).trans hv, (others newest hne).trans hr⟩

/-- A world that is in order and in which nothing is stored but for registered tenants. -/
structure Tidy (ws : Workspace) (w : World δ) : Prop extends w.Orderly where
  swept : w.Swept ws
  attended : w.Attended

theorem Unused.tidy (h : w.Unused) (disposes : w.storage.Disposes)
    (listens : w.registry.listens = true) (clear : ∀ tenant, w.storage.Clear tenant) :
    w.Tidy w.storage.workspace := by
  have orderly := h.orderly disposes
  refine ⟨orderly, ⟨orderly.registry, listens, disposes, ⟨rfl, rfl⟩, fun tenant _ => clear tenant⟩,
    fun ticket tenant skipped hm => ?_⟩
  have idle : w.worker.waiting = [] := by rw [Worker.waiting, h.jobs]; rfl
  rw [idle] at hm
  cases hm

/-- A world in which nothing is stored but for registered tenants, before the service is shut down
and afterwards. -/
def Upkept (ws : Workspace) (w : World δ) : Prop :=
  w.Tidy ws ∨ ∃ s, w.Retired s [] ∧ ws.SameSite s.workspace ∧ ∀ tenant, s.Clear tenant

theorem Upkept.keyed (h : w.Upkept ws) : w.registry.Keyed := by
  rcases h with tidy | ⟨s, retired, _⟩
  · exact tidy.registry.keyed
  · rw [Registry.Keyed, retired.entries]
    exact List.Pairwise.nil

theorem Upkept.lacks {archiveName : String} (h : w.Upkept (.new archiveName)) {tenant : Uuid}
    (absent : w.registry.value? tenant = none) : w.storage.Lacks archiveName tenant := by
  rcases h with tidy | ⟨s, retired, site, clear⟩
  · exact (tidy.swept.clear tenant absent).lacks tidy.swept.site
  · rw [retired.storage]
    exact (clear tenant).lacks site

end World

namespace Service

variable {env : Environment δ} {w : World δ} {ws : Workspace}

theorem request_swept (e : env.Apart) (prompt : env.Prompt) (h : w.Swept ws)
    (isOpen : w.worker.isOpen = true) {op : Operation} (hop : op ≠ .run) :
    (after env w op).Swept ws := by
  cases op with
  | run => exact absurd rfl hop
  | submit tenant skipped => exact submit_swept e prompt.cleansUp h isOpen tenant skipped
  | look tenant => exact getResult_swept e prompt tenant w h
  | download tenant => exact download_swept e prompt tenant w h
  | delete tenant => exact delete_swept e prompt tenant w h
  | purge => exact purge_swept e prompt w h
  | advance seconds => exact h.of_registry rfl rfl

theorem request_tidy (e : env.Apart) (prompt : env.Prompt) (finds : env.FindsTenants)
    (h : w.Tidy ws) {op : Operation} (hop : op ≠ .run) : (after env w op).Tidy ws := by
  refine ⟨request_orderly e prompt.cleansUp finds h.toOrderly hop,
    request_swept e prompt h.swept h.isOpen hop, ?_⟩
  rcases request_cases e prompt.cleansUp finds h.toOrderly hop with
    sheds | ⟨tenant, skipped, worker, _, _, _, submitted, beside⟩
  · exact h.attended.sheds sheds
  · have peeked : w.Sheds (w.peeked tenant.id) := peeked_sheds h.registry (.refl _)
    have orderly := h.toOrderly.sheds peeked
    have registered := (h.attended.sheds peeked).registered orderly submitted
    have sound := (orderly.registered submitted).registry
    exact registered.sheds (.of_same _ sound (fun _ => rfl) beside)

/-- A job stores something for its own tenant only, and that tenant is registered. -/
theorem run_tidy (e : env.Apart) (h : w.Tidy ws) : (after env w .run).Tidy ws := by
  cases front : w.worker.waiting with
  | nil =>
    rw [after, outcome_runNext_idle front]
    exact h
  | cons task rest =>
    cases task with
    | filler => exact absurd (front ▸ List.mem_cons_self) h.exports
    | job ticket tenant skipped =>
      obtain ⟨place, rows, result, w', left, ended, begun, stored, faults, run⟩ :=
        runNext_front e h.toOrderly front
      obtain ⟨remaining, orderly⟩ := h.toOrderly.ran front left ended faults
      have value : ∀ other, w'.registry.value? other = w.registry.value? other := by
        intro other
        rw [ended.registry]
        exact Registry.touch_value? w.registry w.time tenant.id other ticket
      have listens : w'.registry.listens = true := by
        rw [ended.registry]
        exact (Registry.follow_terms noResult w.registry ⟨w.time, w.isEvictable⟩
          (.touch tenant.id ticket)).2.trans h.swept.listens
      obtain ⟨site, clear⟩ := exportTenant_storesFor e _ ticket tenant skipped
        (World.started { w with worker := w.worker.setPhase place .running } ticket)
        ⟨⟨rfl, rfl⟩, fun _ _ clear => clear⟩
      rw [begun, ← stored] at site
      rw [begun, ← stored] at clear
      rw [after, run]
      refine ⟨orderly, ⟨orderly.registry, listens, orderly.disposes, h.swept.site.trans site,
        fun other absent => ?_⟩, h.attended.ran h.toOrderly front remaining value ended.others⟩
      have unregistered : w.registry.value? other = none := (value other).symm.trans absent
      have hne : other ≠ tenant.id := by
        rintro rfl
        obtain ⟨newest, _, _, hv, _⟩ :=
          h.attended ticket tenant skipped (front ▸ List.mem_cons_self)
        cases unregistered.symm.trans hv
      exact clear other hne (h.swept.clear other unregistered)

/-- Clean-ups that come late take nothing new in, and leave what is registered. -/
theorem tend_tidy (e : env.Apart) (cleans : env.CleansUp) (h : w.Tidy ws) (count : Nat) :
    (onward env w (.tend count)).Tidy ws := by
  obtain ⟨w', run, beside, _⟩ := outcome_tend_apart e count w
  have swept := tend_swept e cleans count w h.swept
  rw [run] at swept
  have sheds : w.Sheds w' := .of_same _ h.registry (fun _ => rfl) beside
  rw [onward, run]
  exact ⟨h.toOrderly.sheds sheds, swept, h.attended.sheds sheds⟩

theorem onward_upkept (e : env.Apart) (prompt : env.Prompt) (finds : env.FindsTenants)
    (h : w.Upkept ws) (occasion : Occasion) : (onward env w occasion).Upkept ws := by
  rcases h with tidy | ⟨s, retired, kept⟩
  · rcases occasion with op | count | _
    · by_cases hop : op = .run
      · subst hop
        exact .inl (run_tidy e tidy)
      · exact .inl (request_tidy e prompt finds tidy hop)
    · exact .inl (tend_tidy e prompt.cleansUp tidy count)
    · exact .inr ⟨_, shutdown_retired e w, shutdown_clear e prompt tidy.swept⟩
  · exact .inr ⟨s, retired_onward e retired occasion, kept⟩

theorem life_upkept (e : env.Apart) (prompt : env.Prompt) (finds : env.FindsTenants)
    (h : w.Upkept ws) (occasions : List Occasion) : (life env occasions w).Upkept ws := by
  induction occasions generalizing w with
  | nil => exact h
  | cons occasion rest ih => exact ih (onward_upkept e prompt finds h occasion)

theorem shutdown_lacks (e : env.Apart) (prompt : env.Prompt) (finds : env.FindsTenants)
    {archiveName : String} (h : w.Upkept (.new archiveName)) (tenant : Uuid) :
    ((shutdown env).outcome w).2.storage.Lacks archiveName tenant := by
  have kept := onward_upkept e prompt finds h .shutdown
  refine kept.lacks (Registry.value?_of_not_held (Registry.held?_empty ?_ tenant))
  exact (shutdown_retired e w).entries

/-- What is deleted is not registered any more. -/
theorem delete_value? (e : env.Apart) {tenant : Uuid}
    (deleted : ((delete env tenant).outcome w).1.isOk = true) :
    (after env w (.delete tenant)).registry.value? tenant = none := by
  obtain ⟨answer, w₁, looked, _⟩ := outcome_getResult_apart e w tenant
  rw [after]
  cases answer with
  | error failure =>
    rw [delete, outcome_bind_error looked] at deleted
    cases deleted
  | ok r =>
    rw [delete, outcome_bind_ok looked] at deleted ⊢
    cases done : r.isDone with
    | false =>
      rw [done] at deleted
      cases deleted
    | true =>
      obtain ⟨w₂, removed, beside⟩ :=
        outcome_withRegistry_apart e (fun w => w.registry.remove tenant) w₁
      show ((discard (withRegistry env fun w => w.registry.remove tenant)).outcome
        w₁).2.registry.value? tenant = none
      rw [outcome_discard, removed]
      refine Registry.value?_of_not_held ?_
      rw [show w₂.registry = (w₁.registry.remove tenant).registry from beside.registry,
        Registry.held?_remove, if_pos rfl]

/-- What has expired is not registered any more when it is looked at or everything expired is
purged. -/
theorem evicted_value? (e : env.Apart) (keyed : w.registry.Keyed) {tenant : Uuid}
    {entry : RegistryEntry Uuid Nat} (held : w.registry.held? tenant = some entry)
    (expired : w.registry.isExpired w.isEvictable w.time entry = true) {op : Operation}
    (hop : op = .look tenant ∨ op = .purge) :
    (after env w op).registry.value? tenant = none := by
  refine Registry.value?_of_not_held ?_
  rcases hop with rfl | rfl
  · obtain ⟨answer, w', run, beside, _⟩ := outcome_getResult_apart e w tenant
    rw [after, run, show w'.registry = (w.looked tenant).registry from beside.registry,
      World.looked, Registry.held?_get, if_pos rfl, held]
    simp [expired]
  · obtain ⟨w', run, beside⟩ := outcome_purge_apart e w
    rw [after, run, show w'.registry = w.purged.registry from beside.registry, World.purged,
      keyed.held?_purge, held]
    simp [expired]

/-- Whatever happens to a service that starts with an empty storage and whose cleaner keeps up,
nothing is stored but for tenants that are registered. When a result is deleted or has expired and
is removed, nothing of its tenant is left, and when the service is shut down, nothing of any tenant.
Archives and other files are promised to go only if the name of archives leads from the folder of a
tenant to a place in it. -/
theorem nothing_leaks (c : Surroundings δ) (finds : c.FindsTenants) (keepsUp : c.keepsUp = true)
    (plan : JobPlan) (allows : Bool) (bound : Nat) (archiveName : String) (w₀ : World δ)
    (unused : w₀.Unused) (listens : w₀.registry.listens = true) (fresh : w₀.storage.Fresh archiveName)
    (occasions : List Occasion) :
    let env := Environment.around c plan allows bound
    let w := life env occasions w₀
    (∀ tenant, w.registry.value? tenant = none → w.storage.Lacks archiveName tenant) ∧
    (∀ tenant, ((delete env tenant).outcome w).1.isOk = true →
      (after env w (.delete tenant)).storage.Lacks archiveName tenant) ∧
    (∀ tenant entry, w.registry.held? tenant = some entry →
      w.registry.isExpired w.isEvictable w.time entry = true → ∀ op, op = .look tenant ∨
        op = .purge → (after env w op).storage.Lacks archiveName tenant) ∧
    (∀ tenant, ((shutdown env).outcome w).2.storage.Lacks archiveName tenant) := by
  intro env w
  have within : env.Within c := Environment.around_within c plan allows bound
  have e := within.apart
  have prompt : env.Prompt := ⟨within.cleansUp, keepsUp⟩
  have finding := within.findsTenants finds
  have begun : w₀.Tidy (.new archiveName) :=
    fresh.workspace ▸ unused.tidy fresh.disposes listens fresh.clear
  have upkept : w.Upkept (.new archiveName) := life_upkept e prompt finding (.inl begun) occasions
  refine ⟨fun tenant => upkept.lacks, fun tenant deleted => ?_,
    fun tenant entry held expired op hop => ?_, shutdown_lacks e prompt finding upkept⟩
  · have kept := onward_upkept e prompt finding upkept (.operation (.delete tenant))
    exact kept.lacks (delete_value? e deleted)
  · have kept := onward_upkept e prompt finding upkept (.operation op)
    exact kept.lacks (evicted_value? e upkept.keyed held expired hop)

/-- Of two tenants that were exported one is deleted: its archive is gone, that of the other one is
not. -/
theorem nothing_leaks_deleted :
    let store : Store := ⟨[.tenant ⟨⟨7⟩, .str "acme"⟩, .tenant ⟨⟨8⟩, .str "umbra"⟩]⟩
    let w₀ : World Store := ⟨store, [], ⟨60, true, .idle, []⟩, 0, ⟨2, true, []⟩,
      .here (.new "data.tar"), ⟨0⟩, []⟩
    let env := Environment.around (.ofStore 0) ⟨.standard, 2, 1, .null, []⟩ true 9
    let skipped := RecordType.all.filter (· ≠ .tenant)
    let w := life env [.operation (.submit ⟨7⟩ skipped), .operation (.submit ⟨8⟩ skipped),
      .operation .run, .operation .run] w₀
    let found (w : World Store) (tenant : Uuid) := w.storage.workspace.tree.node?
      (FileTree.lexical (w.storage.workspace.archiveSteps tenant))
    w₀.Unused ∧ w₀.storage.Fresh "data.tar" ∧ (Workspace.new "data.tar").Contained ∧
      (found w ⟨7⟩).isSome = true ∧ found (after env w (.delete ⟨7⟩)) ⟨7⟩ = none ∧
      (found (after env w (.delete ⟨7⟩)) ⟨8⟩).isSome = true := by
  intro store w₀ env skipped w found
  have unused : w₀.Unused := ⟨rfl, rfl, by decide, rfl, rfl, by decide⟩
  have fresh : w₀.storage.Fresh "data.tar" := .inl rfl
  have contained : (Workspace.new "data.tar").Contained :=
    Workspace.new_contained (by decide +kernel) (by decide +kernel)
  have deleted : ((delete env ⟨7⟩).outcome w).1.isOk = true := by decide +kernel
  have both : (found w ⟨7⟩).isSome = true := by decide +kernel
  have other : (found (after env w (.delete ⟨7⟩)) ⟨8⟩).isSome = true := by decide +kernel
  obtain ⟨_, gone, _⟩ := nothing_leaks (.ofStore 0) (ofStore_findsTenants 0) rfl
    ⟨.standard, 2, 1, .null, []⟩ true 9 "data.tar" w₀ unused rfl fresh
    [.operation (.submit ⟨7⟩ skipped), .operation (.submit ⟨8⟩ skipped), .operation .run,
      .operation .run]
  exact ⟨unused, fresh, contained, both, (gone ⟨7⟩ deleted).archive contained, other⟩

/-- An archive that lies beside the folders of tenants stays when its tenant is deleted. -/
theorem archive_outside_leaks :
    let store : Store := ⟨[.tenant ⟨⟨7⟩, .str "acme"⟩]⟩
    let w₀ : World Store := ⟨store, [], ⟨60, true, .idle, []⟩, 0, ⟨1, true, []⟩,
      .here (.new "../leak.tar"), ⟨0⟩, []⟩
    let env := Environment.around (.ofStore 0) ⟨.standard, 2, 1, .null, []⟩ false 9
    let skipped := RecordType.all.filter (· ≠ .tenant)
    let w := life env [.operation (.submit ⟨7⟩ skipped), .operation .run,
      .operation (.delete ⟨7⟩)] w₀
    (Surroundings.ofStore 0).FindsTenants ∧ w₀.Unused ∧ w₀.registry.listens = true ∧
      w₀.storage.Fresh "../leak.tar" ∧ w.registry.value? ⟨7⟩ = none ∧
      (w.storage.workspace.tree.node?
        (FileTree.lexical (w.storage.workspace.archiveSteps ⟨7⟩))).isSome = true := by
  intro store w₀ env skipped w
  exact ⟨ofStore_findsTenants 0, ⟨rfl, rfl, by decide, rfl, rfl, by decide⟩, rfl, .inl rfl,
    by decide +kernel, by decide +kernel⟩

end Service

end Handover
