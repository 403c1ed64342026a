import Handover.Proofs.Apart
import Handover.Proofs.Chores
import Handover.Proofs.Inward

namespace Handover

open Act

namespace Workspace

/-- A sound workspace that was changed for one tenant at most. -/
structure Tended (tenant : Uuid) (w w' : Workspace) : Prop where
  sound : w'.Sound
  beside : AgreeBeside tenant w w'

variable {w w' w'' : Workspace} {tenant other : Uuid} {held : Holding}

theorem Tended.trans (h : Tended tenant w w') (h' : Tended tenant w' w'') :
    Tended tenant w w'' :=
  ⟨h'.sound, h.beside.trans h'.beside⟩

theorem Changed.tended (h : Changed tenant w w' held) : Tended tenant w w' :=
  ⟨h.sound, h.beside⟩

/-- A tree may be changed in the folder of a tenant. -/
theorem Sound.tended (h : w.Sound) {tree : FileTree} (distinct : tree.Distinct)
    (same : ∀ path, ¬w.tenantPath tenant <+: path → tree.node? path = w.tree.node? path) :
    Tended tenant w { w with tree } := by
  have base : ∀ path, path <+: w.base → tree.node? path = w.tree.node? path := fun path above =>
    same path (not_tenantPath_above above tenant)
  refine ⟨⟨distinct, h.plain, fun path above => ?_, h.live⟩, rfl, rfl, fun other hne rest => ?_,
    fun path above folder => ?_, fun _ _ _ => Iff.rfl⟩
  · rw [base path above]
    exact h.above path above
  · exact same _ fun own => hne (eq_of_tenantPath own).symm
  · rw [base path above, folder]

theorem Sound.written_tended (h : w.Sound) {steps : List String} {node : Node} {tree : FileTree}
    (written : w.tree.write steps node = .ok tree)
    (inside : w.tenantPath tenant <+: FileTree.lexical steps) :
    Tended tenant w { w with tree } := by
  refine h.tended (h.distinct.write written) fun path beyond => ?_
  rw [FileTree.node?_of_write written, if_neg]
  rintro rfl
  exact beyond inside

theorem Sound.closed_tended (h : w.Sound) (tenant : Uuid) : Tended tenant w (w.closed tenant) where
  sound := ⟨h.distinct, h.plain, h.above, closed_live h.live tenant⟩
  beside := ⟨rfl, rfl, fun _ _ _ => rfl, fun _ _ folder => folder, fun _ hne type =>
    mem_opened_closed hne type⟩

theorem Sound.removed_tended (h : w.Sound) {path : Path} (shut : w.Shut tenant)
    (below : w.tenantPath tenant <+: path) : Tended tenant w (w.removed path) := by
  have unrooted : path ≠ [] := fun root =>
    w.tenantPath_ne_nil tenant (List.prefix_nil.mp (root ▸ below))
  have same : ∀ other, ¬w.tenantPath tenant <+: other →
      (w.tree.removeTree path).node? other = w.tree.node? other := by
    intro other beyond
    rw [FileTree.node?_removeTree _ unrooted, if_neg fun gone => beyond (below.trans gone)]
  obtain ⟨sound, beside⟩ := h.tended (h.distinct.removeTree path) same
  exact ⟨⟨sound.distinct, sound.plain, sound.above, removed_live h.live shut below⟩,
    beside.base, beside.archiveName, beside.nodes, beside.above, beside.opened⟩

theorem prepare_tended (w₀ : Workspace) (tenant : Uuid) :
    Preserves (Tended tenant w₀) (prepare tenant) :=
  fun _ h => h.trans (prepared_changed h.sound tenant).tended

theorem openFile_tended (w₀ : Workspace) (tenant : Uuid) (type : RecordType) :
    Preserves (Tended tenant w₀) (openFile tenant type) := by
  refine .get_bind fun w h => ?_
  have plain := FileTree.lexical_plain (plain_filePath h.sound.plain tenant type)
  dsimp only
  split
  next => exact h
  next =>
    cases written : w.tree.write (w.filePath tenant type)
      (.text (textAt w.tree (w.filePath tenant type))) with
    | error fault => exact h
    | ok tree =>
      obtain ⟨sound, beside⟩ := h.trans (h.sound.written_tended written
        (plain.symm ▸ w.tenantPath_prefix_filePath tenant type))
      refine ⟨⟨sound.distinct, sound.plain, sound.above, sound.live⟩, beside.base,
        beside.archiveName, beside.nodes, beside.above, fun other hne kind => ?_⟩
      simpa [hne] using beside.opened other hne kind

theorem append_tended (w₀ : Workspace) (tenant : Uuid) (type : RecordType) (text : String) :
    Preserves (Tended tenant w₀) (append tenant type text) := by
  intro w h
  rw [append, outcome_modify]
  dsimp only
  split
  next => exact h
  next =>
    have unrooted := w.filePath_ne_nil tenant type
    refine h.trans (h.sound.tended (h.sound.distinct.put _ _ unrooted) fun path beyond => ?_)
    refine FileTree.node?_put_of_ne _ unrooted _ fun same => beyond ?_
    exact same ▸ w.tenantPath_prefix_filePath tenant type

theorem saveLine_tended (w₀ : Workspace) (tenant : Uuid) (type : RecordType)
    (line : List CodePoint) : Preserves (Tended tenant w₀) (saveLine tenant type line) :=
  (openFile_tended w₀ tenant type).bind fun _ =>
    (Preserves.settle _).bind fun text => append_tended w₀ tenant type (text ++ "\n")

theorem save_tended (w₀ : Workspace) (tenant : Uuid) (type lineType : RecordType)
    (record : Value) : Preserves (Tended tenant w₀) (save tenant type lineType record) :=
  (Preserves.settle _).bind fun line => saveLine_tended w₀ tenant type (Text.codePoints line)

theorem close_tended (w₀ : Workspace) (tenant : Uuid) :
    Preserves (Tended tenant w₀) (close tenant) :=
  fun _ h => h.trans (h.sound.closed_tended tenant)

theorem pack_tended {w₀ : Workspace} (named : LeadsInside w₀.archiveName) (tenant : Uuid) :
    Preserves (Tended tenant w₀) (pack tenant) := by
  intro w h
  have closed := h.trans (h.sound.closed_tended tenant)
  have shut := w.closed_shut tenant
  rw [pack, outcome_bind_ok (outcome_modify _ _), outcome_bind_ok (outcome_get _)]
  generalize w.closed tenant = v at closed shut
  have inside : v.tenantPath tenant <+: FileTree.lexical (v.archiveSteps tenant) := by
    rw [← closed.beside.archiveName] at named
    exact (named.contained closed.sound.plain).inside tenant
  dsimp only
  split
  next => exact closed
  next begun begins =>
    have first := closed.sound.written_tended begins inside
    split
    next => exact closed
    next written writes =>
      have second := first.sound.written_tended writes inside
      have third := second.sound.removed_tended shut
        (List.prefix_append (v.tenantPath tenant) ["data"])
      have packed := closed.trans (first.trans (second.trans third))
      rw [outcome_bind_ok (outcome_set _ _)]
      split
      next => exact packed
      next => exact packed

theorem fetch_tended (w₀ : Workspace) (tenant : Uuid) :
    Preserves (Tended tenant w₀) (fetch tenant) := by
  intro w h
  rw [fetch_same w tenant w rfl]
  exact h

theorem cleanUp_tended (w₀ : Workspace) (tenant : Uuid) :
    Preserves (Tended tenant w₀) (cleanUp tenant) :=
  fun _ h => h.trans (without_changed h.sound tenant).tended

end Workspace

namespace ObjectStore

variable {place other : String}

theorem lookup_put (s : ObjectStore) (content : Archive) (h : other ≠ place) :
    (s.put place content).2.objects.lookup other = s.objects.lookup other := by
  unfold put called
  cases s.faults.lookup .put with
  | some fault => rfl
  | none => exact s.lookup_withArchive_of_ne h content

theorem lookup_delete (s : ObjectStore) (h : other ≠ place) :
    (s.delete place).2.objects.lookup other = s.objects.lookup other := by
  unfold delete called
  cases s.faults.lookup .delete with
  | some fault => rfl
  | none => exact lookup_filter s.objects h

end ObjectStore

namespace Storage

/-- A sound storage whose name of archives leads to places in the folders of tenants; its object
store, if it has one, works. -/
structure Inward (s : Storage) : Prop where
  workspace : s.workspace.Sound
  named : Workspace.LeadsInside s.workspace.archiveName
  works : ∀ store, s.objects? = some store → store.Works

/-- Whether a storage is another one but for a tenant: the others have the same files, archives,
open files and objects. -/
inductive AgreeBeside (tenant : Uuid) : Storage → Storage → Prop
  | here {w w' : Workspace} (files : Workspace.AgreeBeside tenant w w') :
      AgreeBeside tenant (.here w) (.here w')
  | remote {r r' : RemoteStorage} (settings : r'.settings = r.settings)
      (files : Workspace.AgreeBeside tenant r.staging r'.staging)
      (objects : ∀ place, place ≠ r.archivePlace tenant →
        r'.store.objects.lookup place = r.store.objects.lookup place) :
      AgreeBeside tenant (.remote r) (.remote r')

theorem AgreeBeside.refl (s : Storage) (tenant : Uuid) : AgreeBeside tenant s s := by
  cases s with
  | here w => exact .here (.refl w tenant)
  | remote r => exact .remote rfl (.refl r.staging tenant) fun _ _ => rfl

variable {s₀ s s' s'' : Storage} {tenant : Uuid} {α : Type}

theorem AgreeBeside.workspace (h : AgreeBeside tenant s s') :
    Workspace.AgreeBeside tenant s.workspace s'.workspace := by
  cases h with
  | here files => exact files
  | remote settings files objects => exact files

theorem AgreeBeside.archivePlace {r r' : RemoteStorage}
    (h : AgreeBeside tenant (.remote r) (.remote r')) (other : Uuid) :
    r'.archivePlace other = r.archivePlace other := by
  cases h with
  | remote settings files objects =>
    rw [RemoteStorage.archivePlace, RemoteStorage.archivePlace, RemoteStorage.archiveKey,
      RemoteStorage.archiveKey, settings, files.archiveName]

theorem AgreeBeside.trans (h : AgreeBeside tenant s s') (h' : AgreeBeside tenant s' s'') :
    AgreeBeside tenant s s'' := by
  cases h with
  | here files =>
    cases h' with
    | here files' => exact .here (files.trans files')
  | remote settings files objects =>
    have places := (AgreeBeside.remote settings files objects).archivePlace tenant
    cases h' with
    | remote settings' files' objects' =>
      refine .remote (settings'.trans settings) (files.trans files') fun place hne => ?_
      exact (objects' place (places ▸ hne)).trans (objects place hne)

/-- A sound storage that was changed for one tenant at most. -/
structure Tended (tenant : Uuid) (s s' : Storage) : Prop where
  inward : s'.Inward
  beside : AgreeBeside tenant s s'

theorem Inward.tended (h : s.Inward) (tenant : Uuid) : Tended tenant s s :=
  ⟨h, .refl s tenant⟩

/-- Only the files may be changed. -/
theorem Inward.withWorkspace (h : s.Inward) {w : Workspace}
    (tended : Workspace.Tended tenant s.workspace w) : Tended tenant s (s.withWorkspace w) := by
  have named : Workspace.LeadsInside w.archiveName := tended.beside.archiveName ▸ h.named
  cases s with
  | here v => exact ⟨⟨tended.sound, named, nofun⟩, .here tended.beside⟩
  | remote r => exact ⟨⟨tended.sound, named, h.works⟩, .remote rfl tended.beside fun _ _ => rfl⟩

theorem staged_tended {act : Act Workspace α} (h : ∀ w : Workspace,
    Workspace.LeadsInside w.archiveName → Preserves (Workspace.Tended tenant w) act) :
    Preserves (Tended tenant s₀) (staged act) := by
  rintro s ⟨inward, beside⟩
  obtain ⟨inward', beside'⟩ := inward.withWorkspace
    (h s.workspace inward.named s.workspace ⟨inward.workspace, .refl _ tenant⟩)
  exact ⟨inward', beside.trans beside'⟩

theorem call_tended {r : RemoteStorage} (h : Tended tenant s₀ (.remote r))
    {operation : ObjectStore → Except ObjectFault α × ObjectStore}
    (faults : ∀ store, (operation store).2.faults = store.faults)
    (objects : ∀ store place, place ≠ r.archivePlace tenant →
      (operation store).2.objects.lookup place = store.objects.lookup place) :
    Preserves (fun r => Tended tenant s₀ (.remote r)) (RemoteStorage.call operation) := by
  rintro r' ⟨inward, beside⟩
  obtain ⟨_, own⟩ := h
  refine ⟨⟨inward.workspace, inward.named, ?_⟩, ?_⟩
  · rintro _ ⟨⟩
    exact (faults r'.store).trans (inward.works _ rfl)
  · cases beside with
    | remote settings files kept =>
      refine .remote settings files fun place hne => ?_
      have apart : place ≠ r.archivePlace tenant := own.archivePlace tenant ▸ hne
      exact (objects r'.store place apart).trans (kept place hne)

theorem either_tended {alone : Act Workspace α} {both : Act RemoteStorage α}
    (h : ∀ w₀ : Workspace, Workspace.LeadsInside w₀.archiveName →
      Preserves (Workspace.Tended tenant w₀) alone)
    (h' : Preserves (fun r => Tended tenant s₀ (.remote r)) both) :
    Preserves (Tended tenant s₀) (either alone both) := by
  intro s tended
  cases s with
  | here w => exact staged_tended h (.here w) tended
  | remote r => exact h' r tended

theorem prepare_tended (s₀ : Storage) (tenant : Uuid) :
    Preserves (Tended tenant s₀) (prepare tenant) :=
  staged_tended fun w₀ _ => Workspace.prepare_tended w₀ tenant

theorem save_tended (s₀ : Storage) (tenant : Uuid) (type : RecordType) (record : Value) :
    Preserves (Tended tenant s₀) (save tenant type record) :=
  staged_tended fun w₀ _ => Workspace.save_tended w₀ tenant type type record

theorem close_tended (s₀ : Storage) (tenant : Uuid) :
    Preserves (Tended tenant s₀) (close tenant) :=
  staged_tended fun w₀ _ => Workspace.close_tended w₀ tenant

theorem empties_tended (s₀ : Storage) (tenant : Uuid) :
    Preserves (fun r => Tended tenant s₀ (.remote r))
      (RemoteStorage.staged (Workspace.cleanUp tenant)) :=
  fun r h => staged_tended (fun w₀ _ => Workspace.cleanUp_tended w₀ tenant) (.remote r) h

theorem pack_tended (s₀ : Storage) (tenant : Uuid) :
    Preserves (Tended tenant s₀) (pack tenant) := by
  have packs : ∀ w₀ : Workspace, Workspace.LeadsInside w₀.archiveName →
      Preserves (Workspace.Tended tenant w₀) (Workspace.pack tenant) :=
    fun _ named => Workspace.pack_tended named tenant
  refine either_tended packs (RemoteStorage.pack_preserves
    (fun r h => staged_tended packs (.remote r) h) (fun r h content => ?_)
    (empties_tended s₀ tenant))
  exact call_tended h (fun store => store.faults_put _ content) fun store _ =>
    store.lookup_put content

theorem fetch_tended (s₀ : Storage) (tenant : Uuid) :
    Preserves (Tended tenant s₀) (fetch tenant) := by
  refine either_tended (fun w₀ _ => Workspace.fetch_tended w₀ tenant)
    (RemoteStorage.fetch_preserves fun r h => ?_)
  exact call_tended h (fun store => store.faults_get _) fun store _ _ => by rw [store.objects_get]

theorem cleanUp_tended (s₀ : Storage) (tenant : Uuid) :
    Preserves (Tended tenant s₀) (cleanUp tenant) := by
  refine either_tended (fun w₀ _ => Workspace.cleanUp_tended w₀ tenant)
    (RemoteStorage.cleanUp_preserves (fun r h => ?_) (empties_tended s₀ tenant))
  exact call_tended h (fun store => store.faults_delete _) fun store _ => store.lookup_delete

theorem perform_tended (s₀ : Storage) (tenant : Uuid) (chore : Chore) :
    Preserves (Tended tenant s₀) (perform tenant chore) := by
  cases chore with
  | prepare => exact (prepare_tended s₀ tenant).map
  | save type lineType record =>
    exact (staged_tended fun w₀ _ =>
      Workspace.save_tended w₀ tenant type lineType record).map
  | saveLine type line whole =>
    exact (staged_tended fun w₀ _ => Workspace.saveLine_tended w₀ tenant type line).map
  | close => exact (close_tended s₀ tenant).map
  | pack => exact (pack_tended s₀ tenant).map
  | fetch => exact (fetch_tended s₀ tenant).map
  | cleanUp => exact (cleanUp_tended s₀ tenant).map

theorem Fresh.inward {archiveName : String} (h : s₀.Fresh archiveName)
    (named : Workspace.LeadsInside archiveName) : s₀.Inward := by
  rcases h with rfl | ⟨settings, r, made, rfl⟩
  · exact ⟨Workspace.new_sound archiveName, named, nofun⟩
  · rw [RemoteStorage.new_eq made]
    refine ⟨Workspace.new_sound archiveName, named, ?_⟩
    rintro _ ⟨⟩
    rfl

end Storage

namespace Service

variable {δ : Type} {env : Environment δ}

/-- A job changes what is stored for its own tenant only. -/
theorem runExport_tended (e : env.Apart) (s₀ : Storage) (ticket : Nat) (tenant : Tenant)
    (skipped : List RecordType) :
    Preserves (fun w : World δ => s₀.Tended tenant.id w.storage)
      (runExport env ticket tenant skipped) :=
  runExport_stored (exportTenant_stored e (Storage.prepare_tended s₀ tenant.id)
    (Storage.save_tended s₀ tenant.id) (Storage.close_tended s₀ tenant.id)
    (Storage.pack_tended s₀ tenant.id))

end Service

end Handover
