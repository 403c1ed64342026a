import Handover.Proofs.Alike
import Handover.Proofs.Tending

namespace Handover

open Act (Parallel)

namespace Workspace

variable {w v : Workspace} {tenant : Uuid} {held : Holding}

/-- What is held for a tenant is all that there is in its folder. -/
theorem Holds.twin (hw : w.Holds tenant held) (site : w.SameSite v) (hv : v.Holds tenant held)
    (hheld : held ≠ .nothing) (sound : w.Sound) (sound' : v.Sound)
    (named : LeadsInside w.archiveName) : Twin tenant w v := by
  refine ⟨site, sound.plain, named, sound.distinct, sound'.distinct, hw.reached hheld, ?_,
    fun rest => ?_⟩
  · rw [← site.tenantPath]
    exact hv.reached hheld
  · rw [← site.tenantPath tenant, hv.nodes, site.tenantPath, hw.nodes, site.archiveName]

end Workspace

namespace Storage

/-- The storages that come of one by any history: chores for any tenants in any order, and jobs of
any services, whatever data they read and however they end. -/
inductive Reaches (s₀ : Storage) : Storage → Prop
  | start : Reaches s₀ s₀
  | chore {s : Storage} (before : Reaches s₀ s) (tenant : Uuid) (chore : Chore) :
      Reaches s₀ ((perform tenant chore).outcome s).2
  | job {δ : Type} {env : Environment δ} (e : env.Apart) {w : World δ}
      (before : Reaches s₀ w.storage) (ticket : Nat) (tenant : Tenant)
      (skipped : List RecordType) :
      Reaches s₀ ((Service.runExport env ticket tenant skipped).outcome w).2.storage

/-- Two storages of one kind, with the same settings and in the same place. -/
inductive Akin : Storage → Storage → Prop
  | here {w v : Workspace} (site : w.SameSite v) : Akin (.here w) (.here v)
  | remote {r q : RemoteStorage} (settings : q.settings = r.settings)
      (site : r.staging.SameSite q.staging) : Akin (.remote r) (.remote q)

/-- Two sound storages that differ in nothing but what they hold. -/
structure Peers (s t : Storage) : Prop where
  own : s.Inward
  other : t.Inward
  akin : Akin s t

/-- Two such storages in which the same lines have been saved for a tenant. -/
structure StagedPeers (tenant : Uuid) (s t : Storage) : Prop extends Peers s t where
  staged : ∃ saved, s.workspace.Holds tenant (.lines saved) ∧
    t.workspace.Holds tenant (.lines saved)

variable {s s' t t' u : Storage} {tenant : Uuid}

theorem Akin.refl (s : Storage) : Akin s s := by
  cases s with
  | here w => exact .here ⟨rfl, rfl⟩
  | remote r => exact .remote rfl ⟨rfl, rfl⟩

theorem Akin.symm (h : Akin s t) : Akin t s := by
  cases h with
  | here site => exact .here ⟨site.base.symm, site.archiveName.symm⟩
  | remote settings site => exact .remote settings.symm ⟨site.base.symm, site.archiveName.symm⟩

theorem Akin.trans (h : Akin s t) (h' : Akin t u) : Akin s u := by
  cases h with
  | here site =>
    cases h' with
    | here site' => exact .here (site.trans site')
  | remote settings site =>
    cases h' with
    | remote settings' site' => exact .remote (settings'.trans settings) (site.trans site')

theorem AgreeBeside.akin (h : AgreeBeside tenant s t) : Akin s t := by
  cases h with
  | here files => exact .here ⟨files.base, files.archiveName⟩
  | remote settings files objects => exact .remote settings ⟨files.base, files.archiveName⟩

theorem Akin.site (h : Akin s t) : s.workspace.SameSite t.workspace := by
  cases h with
  | here site => exact site
  | remote settings site => exact site

/-- What is done for a tenant leaves two storages as much alike as they were. -/
theorem Peers.tended (h : Peers s t) (own : Tended tenant s s') (other : Tended tenant t t') :
    Peers s' t' :=
  ⟨own.inward, other.inward, own.beside.akin.symm.trans (h.akin.trans other.beside.akin)⟩

/-- Whatever has happened in a storage, it differs from what it was in nothing but what it holds. -/
theorem Reaches.peers (h : s.Reaches t) (begun : s.Inward) : Peers s t := by
  induction h with
  | start => exact ⟨begun, begun, .refl s⟩
  | chore before tenant chore peers =>
    exact peers.tended (begun.tended tenant)
      (perform_tended _ tenant chore _ (peers.other.tended tenant))
  | job e before ticket tenant skipped peers =>
    exact peers.tended (begun.tended tenant.id)
      (Service.runExport_tended e _ ticket tenant skipped _ (peers.other.tended tenant.id))

theorem Peers.staged (h : Peers s t) {saved : List (RecordType × String)} {w v : Workspace}
    (own : Workspace.Changed tenant s.workspace w (.lines saved))
    (other : Workspace.Changed tenant t.workspace v (.lines saved)) :
    StagedPeers tenant (s.withWorkspace w) (t.withWorkspace v) := by
  refine ⟨h.tended (h.own.withWorkspace own.tended) (h.other.withWorkspace other.tended),
    saved, ?_, ?_⟩
  · rw [workspace_withWorkspace]
    exact own.holds
  · rw [workspace_withWorkspace]
    exact other.holds

theorem Peers.prepared (h : Peers s t) (tenant : Uuid) :
    StagedPeers tenant (s.withWorkspace (s.workspace.prepared tenant))
      (t.withWorkspace (t.workspace.prepared tenant)) :=
  h.staged (Workspace.prepared_changed h.own.workspace tenant)
    (Workspace.prepared_changed h.other.workspace tenant)

theorem save_peers (tenant : Uuid) (type : RecordType) (record : Value) :
    Parallel (StagedPeers tenant) (save tenant type record) (save tenant type record) := by
  rintro s t ⟨peers, saved, own, other⟩
  obtain ⟨w, run, changed⟩ :=
    Workspace.outcome_save_changed peers.own.workspace own type record
  obtain ⟨v, run', changed'⟩ :=
    Workspace.outcome_save_changed peers.other.workspace other type record
  have saves : (save tenant type record).outcome s = _ := outcome_staged run
  have saves' : (save tenant type record).outcome t = _ := outcome_staged run'
  rw [saves, saves']
  exact ⟨rfl, peers.staged changed changed'⟩

theorem close_peers (tenant : Uuid) :
    Parallel (StagedPeers tenant) (close tenant) (close tenant) := by
  rintro s t ⟨peers, saved, own, other⟩
  rw [outcome_close, outcome_close]
  exact ⟨rfl, peers.staged (Workspace.closed_changed peers.own.workspace own)
    (Workspace.closed_changed peers.other.workspace other)⟩

/-- Whether the same archive is fetched for a tenant from two storages. -/
def BothOffer (tenant : Uuid) (s t : Storage) : Prop :=
  ∃ members, ((fetch tenant).outcome s).1 = .ok members ∧
    ((fetch tenant).outcome t).1 = .ok members

/-- What has been packed in the workspace is offered by the object store. -/
theorem outcome_pack_offers {r : RemoteStorage} (h : (remote r).Inward) {w : Workspace}
    {members : Archive} (packed : (Workspace.pack tenant).outcome r.staging = (.ok (), w))
    (offers : w.Offers tenant members) :
    ∃ r', (RemoteStorage.pack tenant).outcome r = (.ok (), r') ∧
      ((RemoteStorage.fetch tenant).outcome r').1 = .ok members := by
  have works : r.store.Works := h.works r.store rfl
  have name : w.archiveName = r.staging.archiveName := by
    have tended : Workspace.Tended tenant r.staging
        ((Workspace.pack tenant).outcome r.staging).2 :=
      Workspace.pack_tended h.named tenant r.staging ⟨h.workspace, .refl r.staging tenant⟩
    rw [packed] at tended
    exact tended.beside.archiveName
  have run := RemoteStorage.outcome_pack works packed offers.archiveAt name
  have place : (r.uploaded tenant members w).archivePlace tenant = r.archivePlace tenant := by
    have tended : Tended tenant (.remote r)
        (.remote ((RemoteStorage.pack tenant).outcome r).2) :=
      pack_tended (.remote r) tenant (.remote r) (h.tended tenant)
    rw [run] at tended
    exact tended.beside.archivePlace tenant
  have found : (r.uploaded tenant members w).store.objects.lookup (r.archivePlace tenant) =
      some members := ObjectStore.lookup_withArchive r.store (r.archivePlace tenant) members
  rw [← place] at found
  have works' : (r.uploaded tenant members w).store.Works := works
  exact ⟨_, run, congrArg Prod.fst (RemoteStorage.outcome_fetch works' found)⟩

/-- Whatever else two storages hold, the same lines are packed into the same archive. -/
theorem pack_peers (h : StagedPeers tenant s t) :
    ((pack tenant).outcome t).1 = ((pack tenant).outcome s).1 ∧
      (((pack tenant).outcome s).1 = .ok () →
        BothOffer tenant ((pack tenant).outcome s).2 ((pack tenant).outcome t).2) := by
  obtain ⟨⟨own, other, akin⟩, saved, holds, holds'⟩ := h
  have twin := holds.twin akin.site holds' (by simp) own.workspace other.workspace own.named
  cases akin with
  | @here w v _ =>
    have twin : Workspace.Twin tenant w v := twin
    show ((Workspace.pack tenant).outcome v).1 = ((Workspace.pack tenant).outcome w).1 ∧
      (((Workspace.pack tenant).outcome w).1 = .ok () →
        BothOffer tenant (.here ((Workspace.pack tenant).outcome w).2)
          (.here ((Workspace.pack tenant).outcome v).2))
    obtain ⟨failure, w', v', run, run', _⟩ | ⟨_, w', v', run, run', packed⟩ :=
      (Workspace.pack_parallel tenant).cases twin
    · rw [run, run']
      exact ⟨rfl, fun done => by cases done⟩
    · rw [run, run']
      obtain ⟨members, offers⟩ := Workspace.pack_offers run
      refine ⟨rfl, fun _ => ⟨members, congrArg Prod.fst offers.outcome_fetch,
        congrArg Prod.fst (packed.offers offers).outcome_fetch⟩⟩
  | @remote r q _ _ =>
    have twin : Workspace.Twin tenant r.staging q.staging := twin
    show ((RemoteStorage.pack tenant).outcome q).1 = ((RemoteStorage.pack tenant).outcome r).1 ∧
      (((RemoteStorage.pack tenant).outcome r).1 = .ok () →
        BothOffer tenant (.remote ((RemoteStorage.pack tenant).outcome r).2)
          (.remote ((RemoteStorage.pack tenant).outcome q).2))
    obtain ⟨failure, w', v', run, run', _⟩ | ⟨_, w', v', run, run', packed⟩ :=
      (Workspace.pack_parallel tenant).cases twin
    · have fails : ∀ {r : RemoteStorage} {w},
          (Workspace.pack tenant).outcome r.staging = (.error failure, w) →
          ((RemoteStorage.pack tenant).outcome r).1 = .error failure := by
        intro r w run
        rw [RemoteStorage.pack, Act.outcome_bind_error (RemoteStorage.outcome_staged run)]
      rw [fails run, fails run']
      exact ⟨rfl, fun done => by cases done⟩
    · obtain ⟨members, offers⟩ := Workspace.pack_offers run
      obtain ⟨r', uploaded, fetched⟩ := outcome_pack_offers own run offers
      obtain ⟨q', uploaded', fetched'⟩ := outcome_pack_offers other run' (packed.offers offers)
      rw [uploaded, uploaded']
      exact ⟨rfl, fun _ => ⟨members, fetched, fetched'⟩⟩

end Storage

namespace Service

open Storage (Peers StagedPeers BothOffer)

variable {δ : Type} {env : Environment δ} {c : Surroundings δ} {w v : World δ}
variable {ticket : Nat} {tenant : Tenant} {moment : Instant}

/-- An export in two storages that differ in what they hold ends alike, and if it succeeds, it
leaves the same archive. -/
theorem exportTenant_peers (e : env.Within c) (ticket : Nat) (tenant : Tenant)
    (skipped : List RecordType) (h : World.Alike Eq Peers w v) :
    let act := exportTenant env ticket tenant skipped
    (act.outcome v).1 = (act.outcome w).1 ∧
      World.Alike Eq (fun s t => Peers s t ∧
        ((act.outcome w).1 = .ok () → BothOffer tenant.id s t))
        (act.outcome w).2 (act.outcome v).2 := by
  refine exportTenant_parallel e c.respects_eq (Storage.save_peers tenant.id)
    (fun result s t => Peers s t ∧ (result = .ok () → BothOffer tenant.id s t))
    (fun s t peers => peers.prepared tenant.id) (Storage.close_peers tenant.id)
    (fun s t failure staged => ⟨staged.toPeers, nofun⟩) (fun s t staged => ?_) h
  obtain ⟨answer, offers⟩ := Storage.pack_peers staged
  exact ⟨answer, staged.tended (Storage.pack_tended s tenant.id s (staged.own.tended tenant.id))
    (Storage.pack_tended t tenant.id t (staged.other.tended tenant.id)), offers⟩

/-- The status of a job that has waited is that of its export, and what is stored is what its export
leaves. -/
theorem runExport_leaves (e : env.Apart) (skipped : List RecordType)
    (queued : w.result? ticket = some (.submitted tenant.id moment)) :
    let run := (exportTenant env ticket tenant skipped).outcome (w.started ticket)
    let w' := ((runExport env ticket tenant skipped).outcome w).2
    w'.storage = run.2.storage ∧
      ∀ r, w'.result? ticket = some r → r.status = endStatus run.1 := by
  obtain ⟨rows, w', ends, ended, files, _⟩ := runExport_apart e queued skipped
  intro run
  rw [ends]
  refine ⟨files, fun r result => ?_⟩
  obtain ⟨r', result', _, status, _⟩ := ended.ended
  cases result.symm.trans result'
  exact status

/-- A job in two storages that differ in what they hold does the same, and if it succeeds, it leaves
the same archive. -/
theorem runExport_peers (e : env.Within c) (skipped : List RecordType)
    (h : World.Alike Eq Peers w v)
    (queued : w.result? ticket = some (.submitted tenant.id moment)) :
    let act := runExport env ticket tenant skipped
    (act.outcome v).1 = (act.outcome w).1 ∧
      World.Alike Eq Peers (act.outcome w).2 (act.outcome v).2 ∧
      ∀ r, (act.outcome v).2.result? ticket = some r → r.status = .succeeded →
        BothOffer tenant.id (act.outcome w).2.storage (act.outcome v).2.storage := by
  have exports : Parallel (World.Alike Eq Peers) (exportTenant env ticket tenant skipped)
      (exportTenant env ticket tenant skipped) := by
    intro w v h
    obtain ⟨answer, data, storage, same, related, peers, _⟩ :=
      exportTenant_peers e ticket tenant skipped h
    exact ⟨answer, data, storage, same, related, peers⟩
  obtain ⟨answer, alike⟩ := runExport_parallel exports w v h
  refine ⟨answer, alike, fun r result succeeded => ?_⟩
  have started : World.Alike Eq Peers (w.started ticket) (v.started ticket) :=
    ((markResult_blind ticket .running).parallel w v h).2
  obtain ⟨ended, data, storage, same, _, _, offers⟩ :=
    exportTenant_peers e ticket tenant skipped started
  have queued' : v.result? ticket = some (.submitted tenant.id moment) := by
    obtain ⟨_, _, rfl, _⟩ := h
    exact queued
  obtain ⟨files, _⟩ := runExport_leaves e.apart skipped queued
  obtain ⟨files', status⟩ := runExport_leaves e.apart skipped queued'
  rw [files, files', same]
  refine offers ?_
  have well := (status r result).symm.trans succeeded
  rw [← ended]
  rcases run : ((exportTenant env ticket tenant skipped).outcome (v.started ticket)).1 with
    failure | _
  · rw [run] at well
    cases well
  · rfl

/-- What has happened in a storage makes no difference to a job. From a storage with any history of
jobs and other uses, by any tenants, a job gives the same answer, results, registry, queue, time,
clock and data as from the new storage; if it succeeds, the same archive can be fetched; and of all
other tenants it leaves the files, the archives, the open files and the objects as they were. The
name of archives has to lead from the folder of a tenant to a place in it. -/
theorem job_sees_no_leftovers (c : Surroundings δ) (plan : JobPlan) (allows : Bool) (bound : Nat)
    {archiveName : String} (named : Workspace.LeadsInside archiveName) {s₀ s : Storage}
    (fresh : s₀.Fresh archiveName) (reached : s₀.Reaches s) (w : World δ) (ticket : Nat)
    (tenant : Tenant) (skipped : List RecordType) (moment : Instant)
    (queued : w.result? ticket = some (.submitted tenant.id moment)) :
    let env := Environment.around c plan allows bound
    let onNew := (runExport env ticket tenant skipped).outcome { w with storage := s₀ }
    let onUsed := (runExport env ticket tenant skipped).outcome { w with storage := s }
    onUsed.1 = onNew.1 ∧
      onUsed.2 = { onNew.2 with storage := onUsed.2.storage } ∧
      (∀ r, onUsed.2.result? ticket = some r → r.status = .succeeded →
        ∃ members, ((Storage.fetch tenant.id).outcome onNew.2.storage).1 = .ok members ∧
          ((Storage.fetch tenant.id).outcome onUsed.2.storage).1 = .ok members) ∧
      Storage.AgreeBeside tenant.id s onUsed.2.storage := by
  intro env onNew onUsed
  have e : env.Within c := Environment.around_within c plan allows bound
  have peers : Peers s₀ s := reached.peers (fresh.inward named)
  have alike : World.Alike Eq Peers { w with storage := s₀ } { w with storage := s } :=
    ⟨w.data, s, rfl, rfl, peers⟩
  obtain ⟨answer, ⟨data, storage, same, related, _⟩, offers⟩ :=
    runExport_peers e skipped alike queued
  refine ⟨answer, ?_, offers, ?_⟩
  · rw [show onUsed.2 = { onNew.2 with data, storage } from same, ← related]
  · exact (runExport_tended e.apart s ticket tenant skipped { w with storage := s }
      (peers.other.tended tenant.id)).beside

/-- A file that an earlier job of the tenant has left open does not get into the archive. -/
theorem job_sees_no_leftovers_open :
    let tenant : Tenant := ⟨⟨7⟩, .str "acme"⟩
    let s₀ : Storage := .here (.new "data.tar")
    let begun := ((Storage.perform ⟨7⟩ .prepare).outcome s₀).2
    let s := ((Storage.perform ⟨7⟩ (.save .tenant .tenant (.str "stale"))).outcome begun).2
    let w : World Store := ⟨⟨[.tenant tenant]⟩, [.submitted ⟨7⟩ ⟨0⟩], ⟨60, true, .idle, []⟩, 0,
      ⟨1, true, []⟩, s₀, ⟨1⟩, []⟩
    let env := Environment.around (.ofStore 0) ⟨.standard, 2, 1, .null, []⟩ false 9
    let skipped := RecordType.all.filter (· ≠ .tenant)
    let onNew := (runExport env 0 tenant skipped).outcome { w with storage := s₀ }
    let onUsed := (runExport env 0 tenant skipped).outcome { w with storage := s }
    Workspace.LeadsInside "data.tar" ∧ s₀.Fresh "data.tar" ∧ s₀.Reaches s ∧
      w.result? 0 = some (.submitted ⟨7⟩ ⟨0⟩) ∧ s.workspace.opened = [(⟨7⟩, .tenant)] ∧
      ∃ members, ((Storage.fetch ⟨7⟩).outcome onNew.2.storage).1 = .ok members ∧
        ((Storage.fetch ⟨7⟩).outcome onUsed.2.storage).1 = .ok members := by
  intro tenant s₀ begun s w env skipped onNew onUsed
  have named : Workspace.LeadsInside "data.tar" := by decide +kernel
  have fresh : s₀.Fresh "data.tar" := .inl rfl
  have reached : s₀.Reaches s :=
    .chore (.chore .start ⟨7⟩ .prepare) ⟨7⟩ (.save .tenant .tenant (.str "stale"))
  have well : (onUsed.2.result? 0).map (·.status) = some .succeeded := by decide +kernel
  obtain ⟨r, result, succeeded⟩ := Option.map_eq_some_iff.mp well
  obtain ⟨_, _, offers, _⟩ := job_sees_no_leftovers (.ofStore 0) ⟨.standard, 2, 1, .null, []⟩
    false 9 named fresh reached w 0 tenant skipped ⟨0⟩ rfl
  exact ⟨named, fresh, reached, rfl, by decide +kernel, offers r result succeeded⟩

/-- With a name of archives that leads into the folder of another tenant, a job takes the place of
that tenant's archive, and succeeds only because that tenant has a folder. -/
theorem archive_outside_overwrites :
    let archiveName := "../00000000-0000-0000-0000-000000000008/data.tar"
    let acme : Tenant := ⟨⟨7⟩, .str "acme"⟩
    let umbra : Tenant := ⟨⟨8⟩, .str "umbra"⟩
    let s₀ : Storage := .here (.new archiveName)
    let w : World Store := ⟨⟨[.tenant acme, .tenant umbra]⟩,
      [.submitted ⟨8⟩ ⟨0⟩, .submitted ⟨7⟩ ⟨0⟩], ⟨60, true, .idle, []⟩, 0, ⟨2, true, []⟩, s₀, ⟨1⟩, []⟩
    let env := Environment.around (.ofStore 0) ⟨.standard, 2, 1, .null, []⟩ false 9
    let skipped := RecordType.all.filter (· ≠ .tenant)
    let s := ((runExport env 0 umbra skipped).outcome w).2.storage
    let onNew := (runExport env 1 acme skipped).outcome { w with storage := s₀ }
    let onUsed := (runExport env 1 acme skipped).outcome { w with storage := s }
    s₀.Fresh archiveName ∧ s₀.Reaches s ∧ w.result? 1 = some (.submitted ⟨7⟩ ⟨0⟩) ∧
      (onNew.2.result? 1).map (·.status) = some .failed ∧
      (onUsed.2.result? 1).map (·.status) = some .succeeded ∧
      ¬Storage.AgreeBeside ⟨7⟩ s onUsed.2.storage := by
  intro archiveName acme umbra s₀ w env skipped s onNew onUsed
  have e : env.Within (.ofStore 0) := Environment.around_within _ _ _ _
  refine ⟨.inl rfl, .job (w := w) e.apart .start 0 umbra skipped, rfl, by decide +kernel,
    by decide +kernel, fun agree => ?_⟩
  have replaced : onUsed.2.storage.workspace.tree.node?
      (s.workspace.tenantPath ⟨8⟩ ++ ["data.tar"]) ≠
        s.workspace.tree.node? (s.workspace.tenantPath ⟨8⟩ ++ ["data.tar"]) := by
    decide +kernel
  exact replaced (agree.workspace.nodes ⟨8⟩ (by decide) ["data.tar"])

end Service

end Handover
