import Handover.Proofs.Storage

namespace Handover

open Act

namespace FileTree

variable {t t' : FileTree} {steps : List String} {node : Node}

/-- A walk that comes to an end has come where it seems to lead. -/
theorem lexical_of_walk {path : Path} (h : t.walk [] steps = .ok path) : lexical steps = path := by
  suffices all : ∀ here, t.walk here steps = .ok path →
      steps.foldl (fun here step => if step = ".." then here.dropLast else here ++ [step]) here =
        path from all [] h
  clear h
  intro here h
  induction steps generalizing here with
  | nil => exact Except.ok.inj h
  | cons step rest ih =>
    rw [FileTree.walk] at h
    split at h
    next => cases h
    next => exact ih _ h
    next => cases h

theorem node?_of_write (h : t.write steps node = .ok t') (path : Path) :
    t'.node? path = if path = lexical steps then some node else t.node? path := by
  cases walked : t.walk [] steps with
  | error fault =>
    rw [FileTree.write, walked] at h
    cases h
  | ok found =>
    rw [lexical_of_walk walked]
    simp only [FileTree.write, walked, bind, Except.bind] at h
    split at h
    next => cases h
    next unfoldered =>
      cases h
      refine node?_put t (fun root => unfoldered ?_) node path
      rw [root, node?_nil]

end FileTree

namespace Workspace

/-- A workspace whose base never steps upward and whose archives lie in the folders of their
tenants. -/
structure Contained (w : Workspace) : Prop where
  plain : ".." ∉ w.base
  inside : ∀ tenant, w.tenantPath tenant <+: FileTree.lexical (w.archiveSteps tenant)

/-- What may be found in a place where a workspace has nothing: no folder, and no file either if
archives lie in the folders of their tenants. -/
structure Free (w : Workspace) (found : Option Node) : Prop where
  folder : found ≠ some .folder
  file : w.Contained → found = none

/-- Whether a workspace has no folder for a tenant, nor anything in it. -/
def Vacant (tenant : Uuid) (w : Workspace) : Prop :=
  ∀ path, w.tenantPath tenant <+: path → w.Free (w.tree.node? path)

/-- Whether two workspaces lie in the same place and name their archives alike. -/
structure SameSite (w w' : Workspace) : Prop where
  base : w'.base = w.base
  archiveName : w'.archiveName = w.archiveName

/-- Whether a workspace has nothing new but in the folder of a tenant and above it. -/
structure Leaves (tenant : Uuid) (w w' : Workspace) : Prop extends w.SameSite w' where
  nodes : ∀ path, ¬w.tenantPath tenant <+: path → ¬path <+: w.base →
    w.Free (w.tree.node? path) → w.Free (w'.tree.node? path)

variable {w w' w'' : Workspace} {tenant other : Uuid}

theorem free_none (w : Workspace) : w.Free none :=
  ⟨nofun, fun _ => rfl⟩

namespace SameSite

theorem trans (h : w.SameSite w') (h' : w'.SameSite w'') : w.SameSite w'' :=
  ⟨h'.base.trans h.base, h'.archiveName.trans h.archiveName⟩

theorem tenantPath (h : w.SameSite w') (other : Uuid) :
    w'.tenantPath other = w.tenantPath other := by
  rw [Workspace.tenantPath, Workspace.tenantPath, h.base]

theorem contained_iff (h : w.SameSite w') : w'.Contained ↔ w.Contained := by
  have steps : ∀ other, w'.archiveSteps other = w.archiveSteps other := by
    intro other
    rw [archiveSteps, archiveSteps, h.archiveName, h.tenantPath]
  have inside : ∀ other, w'.tenantPath other <+: FileTree.lexical (w'.archiveSteps other) ↔
      w.tenantPath other <+: FileTree.lexical (w.archiveSteps other) := by
    intro other
    rw [steps, h.tenantPath]
  constructor
  · intro h'
    exact ⟨h.base ▸ h'.plain, fun other => (inside other).mp (h'.inside other)⟩
  · intro h'
    exact ⟨h.base.symm ▸ h'.plain, fun other => (inside other).mpr (h'.inside other)⟩

theorem free_iff (h : w.SameSite w') {found : Option Node} : w'.Free found ↔ w.Free found :=
  ⟨fun free => ⟨free.folder, fun contained => free.file (h.contained_iff.mpr contained)⟩,
    fun free => ⟨free.folder, fun contained => free.file (h.contained_iff.mp contained)⟩⟩

end SameSite

namespace Leaves

theorem vacant (h : Leaves tenant w w') (hne : other ≠ tenant) (absent : w.Vacant other) :
    w'.Vacant other := by
  intro path below
  rw [h.tenantPath] at below
  refine h.free_iff.mpr (h.nodes path (fun own => ?_) (fun above => ?_) (absent path below))
  · obtain ⟨rest, rfl⟩ := below
    exact hne (eq_of_tenantPath own).symm
  · exact not_tenantPath_above above other below

theorem of_same (base : w'.base = w.base) (archiveName : w'.archiveName = w.archiveName)
    (tree : w'.tree = w.tree) : Leaves tenant w w' :=
  ⟨⟨base, archiveName⟩, fun _ _ _ absent => by rwa [tree]⟩

theorem trans (h : Leaves tenant w w') (h' : Leaves tenant w' w'') : Leaves tenant w w'' := by
  refine ⟨h.toSameSite.trans h'.toSameSite, fun path beyond unbased absent => ?_⟩
  refine h.free_iff.mp (h'.nodes path ?_ ?_ (h.free_iff.mpr (h.nodes path beyond unbased absent)))
  · rwa [h.tenantPath]
  · rwa [h.base]

end Leaves

theorem prepare_leaves (w₀ : Workspace) (tenant : Uuid) :
    Preserves (Leaves tenant w₀) (prepare tenant) := by
  refine fun w h => h.trans ⟨⟨rfl, rfl⟩, fun path beyond unbased absent => ?_⟩
  have unprepared : ¬path <+: w.dataPath tenant := by
    intro above
    rw [dataPath] at above
    rcases List.prefix_concat_iff.mp above with data | above
    · exact beyond (data ▸ List.prefix_append _ _)
    · rcases List.prefix_concat_iff.mp above with folder | above
      · exact beyond (folder ▸ List.prefix_rfl)
      · exact unbased above
  rwa [outcome_prepare, node?_prepared, if_neg unprepared, if_neg beyond]

/-- A file in the folder of a tenant is nothing for others. -/
theorem written_leaves {steps : List String} {node : Node} {tree : FileTree}
    (written : w.tree.write steps node = .ok tree) (file : node ≠ .folder)
    (inside : w.Contained → w.tenantPath tenant <+: FileTree.lexical steps) :
    Leaves tenant w { w with tree } := by
  refine ⟨⟨rfl, rfl⟩, fun path beyond _ absent => ?_⟩
  show w.Free (tree.node? path)
  rw [FileTree.node?_of_write written]
  split
  next there =>
    exact ⟨fun folder => file (Option.some.inj folder),
      fun contained => absurd (there ▸ inside contained) beyond⟩
  next => exact absent

theorem removed_leaves (w : Workspace) {path : Path} (h : path ≠ []) (tenant : Uuid) :
    Leaves tenant w (w.removed path) := by
  refine ⟨⟨rfl, rfl⟩, fun other _ _ absent => ?_⟩
  show w.Free ((w.tree.removeTree path).node? other)
  rw [FileTree.node?_removeTree _ h]
  split
  next => exact w.free_none
  next => exact absent

theorem put_leaves (w : Workspace) {path : Path} (own : w.tenantPath tenant <+: path)
    (node : Node) : Leaves tenant w { w with tree := w.tree.put path node } := by
  refine ⟨⟨rfl, rfl⟩, fun other beyond _ absent => ?_⟩
  show w.Free ((w.tree.put path node).node? other)
  have elsewhere : other ≠ path := fun same => beyond (same ▸ own)
  have unrooted : path ≠ [] := fun root =>
    w.tenantPath_ne_nil tenant (List.prefix_nil.mp (root ▸ own))
  rwa [FileTree.node?_put_of_ne _ unrooted _ elsewhere]

theorem openFile_leaves (w₀ : Workspace) (tenant : Uuid) (type : RecordType) :
    Preserves (Leaves tenant w₀) (openFile tenant type) := by
  refine .get_bind fun w h => ?_
  dsimp only
  split
  next => exact h
  next =>
    cases written : w.tree.write (w.filePath tenant type)
      (.text (textAt w.tree (w.filePath tenant type))) with
    | error fault => exact h
    | ok tree =>
      refine h.trans ((written_leaves written nofun fun contained => ?_).trans
        (.of_same rfl rfl rfl))
      rw [FileTree.lexical_plain (plain_filePath contained.plain tenant type)]
      exact w.tenantPath_prefix_filePath tenant type

theorem append_leaves (w₀ : Workspace) (tenant : Uuid) (type : RecordType) (text : String) :
    Preserves (Leaves tenant w₀) (append tenant type text) := by
  intro w h
  rw [append, outcome_modify]
  dsimp only
  split
  next => exact h
  next => exact h.trans (put_leaves w (w.tenantPath_prefix_filePath tenant type) _)

theorem saveLine_leaves (w₀ : Workspace) (tenant : Uuid) (type : RecordType)
    (line : List CodePoint) : Preserves (Leaves tenant w₀) (saveLine tenant type line) :=
  (openFile_leaves w₀ tenant type).bind fun _ =>
    (Preserves.settle _).bind fun text => append_leaves w₀ tenant type (text ++ "\n")

theorem save_leaves (w₀ : Workspace) (tenant : Uuid) (type lineType : RecordType)
    (record : Value) : Preserves (Leaves tenant w₀) (save tenant type lineType record) :=
  (Preserves.settle _).bind fun line => saveLine_leaves w₀ tenant type (Text.codePoints line)

theorem close_leaves (w₀ : Workspace) (tenant : Uuid) :
    Preserves (Leaves tenant w₀) (close tenant) :=
  fun _ h => h.trans (.of_same rfl rfl rfl)

theorem pack_leaves (w₀ : Workspace) (tenant : Uuid) :
    Preserves (Leaves tenant w₀) (pack tenant) := by
  have closed : Preserves (Leaves tenant w₀) (modify fun w => w.closed tenant) :=
    fun w h => h.trans (.of_same rfl rfl rfl)
  refine closed.bind fun _ => .get_bind fun w h => ?_
  have inside : w.Contained → w.tenantPath tenant <+: FileTree.lexical (w.archiveSteps tenant) :=
    fun contained => contained.inside tenant
  cases begins : w.tree.write (w.archiveSteps tenant) (.archive []) with
  | error fault =>
    simp only [begins]
    exact h
  | ok begun =>
    simp only [begins]
    have first : Leaves tenant w { w with tree := begun } := written_leaves begins nofun inside
    cases writes : begun.write (w.archiveSteps tenant) (.archive (membersOf begun
      (w.dataPath tenant) (FileTree.lexical (w.archiveSteps tenant)))) with
    | error fault => exact h
    | ok written =>
      have second : Leaves tenant { w with tree := begun } { w with tree := written } :=
        written_leaves writes nofun fun contained => inside ((first.contained_iff).mp contained)
      have third := removed_leaves { w with tree := written } (w.dataPath_ne_nil tenant) tenant
      have packed := h.trans (first.trans (second.trans third))
      have stored : Preserves (Leaves tenant w₀)
          (set ({ w with tree := written }.removed (w.dataPath tenant)) : Act Workspace PUnit) :=
        fun _ _ => packed
      refine stored.bind (fun _ => ?_) w h
      split
      next => exact .pure ()
      next => exact .throw _

theorem cleanUp_leaves (w₀ : Workspace) (tenant : Uuid) :
    Preserves (Leaves tenant w₀) (cleanUp tenant) := by
  intro w h
  have closed : Leaves tenant w (w.closed tenant) := .of_same rfl rfl rfl
  exact h.trans (closed.trans (removed_leaves _ (w.tenantPath_ne_nil tenant) tenant))

/-- A plain name leads from the folder of a tenant to a place in it. -/
theorem new_contained {archiveName : String} (relative : isAbsolute archiveName = false)
    (plain : ".." ∉ stepsOf archiveName) : (new archiveName).Contained := by
  have based : ".." ∉ (new archiveName).base := by simp [new]
  refine ⟨based, fun tenant => ?_⟩
  have steps : (new archiveName).archiveSteps tenant =
      (new archiveName).tenantPath tenant ++ stepsOf archiveName := by
    rw [archiveSteps, show (new archiveName).archiveName = archiveName from rfl, relative]
    rfl
  rw [steps, FileTree.lexical_plain]
  · exact List.prefix_append _ _
  · intro hm
    rcases List.mem_append.mp hm with hm | hm
    · exact plain_tenantPath based tenant hm
    · exact plain hm

theorem vacant_without (w : Workspace) (tenant : Uuid) : (w.without tenant).Vacant tenant := by
  intro path below
  have gone : (w.without tenant).tree.node? path = none :=
    (FileTree.node?_removeTree _ (w.tenantPath_ne_nil tenant) path).trans (if_pos below)
  rw [gone]
  exact free_none _

theorem new_vacant (archiveName : String) (tenant : Uuid) : (new archiveName).Vacant tenant := by
  rintro _ ⟨rest, rfl⟩
  have absent : (new archiveName).tree.node? ((new archiveName).tenantPath tenant ++ rest) =
      none := by
    rw [FileTree.node?_of_ne_nil _ (by simp [tenantPath])]
    simp [new, FileTree.withFolder, tenantPath, List.lookup_cons]
  rw [absent]
  exact free_none _

end Workspace

namespace ObjectStore

variable {s : ObjectStore} {place other : String} {content members : Archive}

theorem mem_put (hne : other ≠ place) (h : (other, members) ∈ (s.put place content).2.objects) :
    (other, members) ∈ s.objects := by
  unfold put called at h
  cases allowed : s.faults.lookup .put with
  | some fault =>
    rw [allowed] at h
    exact h
  | none =>
    rw [allowed] at h
    rcases List.mem_append.mp h with h | h
    · exact (List.mem_filter.mp h).1
    · cases List.mem_singleton.mp h
      exact absurd rfl hne

theorem mem_delete (h : (other, members) ∈ (s.delete place).2.objects) :
    (other, members) ∈ s.objects := by
  unfold delete called at h
  cases allowed : s.faults.lookup .delete with
  | some fault =>
    rw [allowed] at h
    exact h
  | none =>
    rw [allowed] at h
    exact (List.mem_filter.mp h).1

theorem objects_get (s : ObjectStore) (place : String) :
    (s.get place).2.objects = s.objects := by
  unfold get called
  cases s.faults.lookup .get with
  | some fault => rfl
  | none =>
    dsimp only
    cases s.objects.lookup place <;> rfl

end ObjectStore

namespace RemoteStorage

/-- Whether no object is kept under the key of a tenant. -/
def Bare (tenant : Uuid) (r : RemoteStorage) : Prop :=
  ∀ members, (r.archivePlace tenant, members) ∉ r.store.objects

/-- Whether a storage has nothing new but for a tenant. -/
structure Leaves (tenant : Uuid) (r r' : RemoteStorage) : Prop where
  settings : r'.settings = r.settings
  staging : Workspace.Leaves tenant r.staging r'.staging
  objects : ∀ place, place ≠ r.archivePlace tenant → ∀ members,
    (place, members) ∈ r'.store.objects → (place, members) ∈ r.store.objects

variable {tenant other : Uuid} {r r' r'' : RemoteStorage} {α : Type}

namespace Leaves

theorem refl (r : RemoteStorage) (tenant : Uuid) : Leaves tenant r r :=
  ⟨rfl, .of_same rfl rfl rfl, fun _ _ _ h => h⟩

theorem archivePlace (h : Leaves tenant r r') (other : Uuid) :
    r'.archivePlace other = r.archivePlace other := by
  simp only [RemoteStorage.archivePlace, archiveKey, h.settings, h.staging.archiveName]

theorem bare (h : Leaves tenant r r') (hne : other ≠ tenant) (absent : r.Bare other) :
    r'.Bare other := by
  intro members hm
  rw [h.archivePlace] at hm
  exact absent members (h.objects _ (fun same => hne (archivePlace_injective same)) members hm)

end Leaves

theorem staged_leaves {act : Act Workspace α} (r₀ : RemoteStorage)
    (h : ∀ w₀, Preserves (Workspace.Leaves tenant w₀) act) :
    Preserves (Leaves tenant r₀) (staged act) := by
  intro r hr
  exact ⟨hr.settings, h r₀.staging r.staging hr.staging, hr.objects⟩

theorem call_leaves {operation : ObjectStore → Except ObjectFault α × ObjectStore}
    (r₀ : RemoteStorage) (h : ∀ s : ObjectStore, ∀ place, place ≠ r₀.archivePlace tenant →
      ∀ members, (place, members) ∈ (operation s).2.objects → (place, members) ∈ s.objects) :
    Preserves (Leaves tenant r₀) (call operation) :=
  fun r hr => ⟨hr.settings, hr.staging, fun place hne members hm =>
    hr.objects place hne members (h r.store place hne members hm)⟩

theorem cleanUp_leaves (r₀ : RemoteStorage) (tenant : Uuid) :
    Preserves (Leaves tenant r₀) (cleanUp tenant) :=
  cleanUp_preserves (fun _ _ => call_leaves r₀ fun _ _ _ _ => ObjectStore.mem_delete)
    (staged_leaves r₀ fun w₀ => Workspace.cleanUp_leaves w₀ tenant)

theorem pack_leaves (r₀ : RemoteStorage) (tenant : Uuid) :
    Preserves (Leaves tenant r₀) (pack tenant) := by
  refine pack_preserves (staged_leaves r₀ fun w₀ => Workspace.pack_leaves w₀ tenant)
    (fun r h content => call_leaves r₀ fun _ other hne members => ObjectStore.mem_put ?_)
    (staged_leaves r₀ fun w₀ => Workspace.cleanUp_leaves w₀ tenant)
  rwa [h.archivePlace tenant]

/-- What a storage holds is not changed by being fetched. -/
theorem fetch_same (r₀ : RemoteStorage) (tenant : Uuid) :
    Preserves (fun r => r.settings = r₀.settings ∧ r.staging = r₀.staging ∧
      r.store.objects = r₀.store.objects) (fetch tenant) :=
  fetch_preserves fun _ _ r h => ⟨h.1, h.2.1, (r.store.objects_get _).trans h.2.2⟩

end RemoteStorage

namespace Storage

/-- Whether nothing is stored for a tenant. -/
structure Clear (tenant : Uuid) (s : Storage) : Prop where
  files : s.workspace.Vacant tenant
  objects : ∀ r, s = .remote r → r.Bare tenant

/-- Whether a storage has nothing new but for a tenant, and lies in the same place. -/
inductive Leaves (tenant : Uuid) : Storage → Storage → Prop
  | here {w w' : Workspace} (h : w.Leaves tenant w') : Leaves tenant (.here w) (.here w')
  | remote {r r' : RemoteStorage} (h : r.Leaves tenant r') : Leaves tenant (.remote r) (.remote r')

variable {tenant other : Uuid} {s s' : Storage} {α : Type}

theorem Leaves.clear (h : Leaves tenant s s') (hne : other ≠ tenant) (clear : s.Clear other) :
    s'.Clear other := by
  cases h with
  | here h => exact ⟨h.vacant hne clear.files, fun _ other => nomatch other⟩
  | remote h =>
    refine ⟨h.staging.vacant hne clear.files, ?_⟩
    rintro _ ⟨⟩
    exact h.bare hne (clear.objects _ rfl)

theorem Leaves.site (h : Leaves tenant s s') : s.workspace.SameSite s'.workspace := by
  cases h with
  | here h => exact h.toSameSite
  | remote h => exact h.staging.toSameSite

variable (tenant) in
/-- An action of which nothing is left but for a tenant. -/
def LeavesOnly (act : Act Storage α) : Prop :=
  ∀ s, Leaves tenant s (act.outcome s).2

theorem staged_leavesOnly {act : Act Workspace α}
    (h : ∀ w₀, Preserves (Workspace.Leaves tenant w₀) act) : LeavesOnly tenant (staged act) := by
  intro s
  have leaves := h s.workspace s.workspace (.of_same rfl rfl rfl)
  cases s with
  | here w => exact .here leaves
  | remote r => exact .remote ⟨rfl, leaves, fun _ _ _ hm => hm⟩

theorem either_leavesOnly {alone : Act Workspace α} {both : Act RemoteStorage α}
    (h : ∀ w₀, Preserves (Workspace.Leaves tenant w₀) alone)
    (h' : ∀ r₀, Preserves (RemoteStorage.Leaves tenant r₀) both) :
    LeavesOnly tenant (either alone both) := by
  intro s
  cases s with
  | here w => exact .here (h w w (.of_same rfl rfl rfl))
  | remote r => exact .remote (h' r r (.refl r tenant))

theorem prepare_leavesOnly (tenant : Uuid) : LeavesOnly tenant (prepare tenant) :=
  staged_leavesOnly fun w₀ => Workspace.prepare_leaves w₀ tenant

theorem save_leavesOnly (tenant : Uuid) (type : RecordType) (record : Value) :
    LeavesOnly tenant (save tenant type record) :=
  staged_leavesOnly fun w₀ => Workspace.save_leaves w₀ tenant type type record

theorem close_leavesOnly (tenant : Uuid) : LeavesOnly tenant (close tenant) :=
  staged_leavesOnly fun w₀ => Workspace.close_leaves w₀ tenant

theorem pack_leavesOnly (tenant : Uuid) : LeavesOnly tenant (pack tenant) :=
  either_leavesOnly (fun w₀ => Workspace.pack_leaves w₀ tenant)
    fun r₀ => RemoteStorage.pack_leaves r₀ tenant

theorem cleanUp_leavesOnly (tenant : Uuid) : LeavesOnly tenant (cleanUp tenant) :=
  either_leavesOnly (fun w₀ => Workspace.cleanUp_leaves w₀ tenant)
    fun r₀ => RemoteStorage.cleanUp_leaves r₀ tenant

/-- A clean-up that is not refused leaves nothing for its tenant, and for others nothing new. -/
theorem cleanUp_clear (s : Storage)
    (allowed : ∀ r, s = .remote r → r.store.faults.lookup .delete = none) (tenant : Uuid)
    (clear : other = tenant ∨ s.Clear other) :
    ((cleanUp tenant).outcome s).2.Clear other := by
  by_cases own : other = tenant
  · subst own
    cases s with
    | here w => exact ⟨w.vacant_without other, fun _ other => nomatch other⟩
    | remote r =>
      have cleaned : ((cleanUp other).outcome (.remote r)).2 = .remote (r.without other) := by
        show Storage.remote ((RemoteStorage.cleanUp other).outcome r).2 = _
        rw [RemoteStorage.outcome_cleanUp (allowed r rfl)]
      rw [cleaned]
      refine ⟨r.staging.vacant_without other, ?_⟩
      rintro _ ⟨⟩ members hm
      have kept : (r.archivePlace other, members) ∈
          r.store.objects.filter fun entry => entry.1 ≠ r.archivePlace other := hm
      simp at kept
  · exact (cleanUp_leavesOnly tenant s).clear own (clear.resolve_left own)

/-- A fetch leaves everything as it is. -/
theorem fetch_clear (s : Storage) (tenant : Uuid) :
    ((fetch tenant).outcome s).2.workspace = s.workspace ∧
      ∀ other, s.Clear other → ((fetch tenant).outcome s).2.Clear other := by
  cases s with
  | here w =>
    have same : ((fetch tenant).outcome (.here w)).2 = .here w :=
      congrArg Storage.here (Workspace.fetch_same w tenant w rfl)
    rw [same]
    exact ⟨rfl, fun _ clear => clear⟩
  | remote r =>
    have same := RemoteStorage.fetch_same r tenant r ⟨rfl, rfl, rfl⟩
    have fetched : ((fetch tenant).outcome (.remote r)).2 =
        .remote ((RemoteStorage.fetch tenant).outcome r).2 := rfl
    rw [fetched]
    generalize ((RemoteStorage.fetch tenant).outcome r).2 = r' at same
    obtain ⟨settings, staging, store, isConnected⟩ := r'
    obtain ⟨rfl, rfl, objects⟩ := same
    refine ⟨rfl, fun other clear => ⟨clear.files, ?_⟩⟩
    rintro _ ⟨⟩ members hm
    exact clear.objects r rfl members (objects ▸ hm)

/-- A storage that has just been made: a new workspace, also in front of an empty object store. -/
def Fresh (archiveName : String) (s : Storage) : Prop :=
  s = .here (.new archiveName) ∨ ∃ settings r,
    RemoteStorage.new settings (.new archiveName) = .ok r ∧ s = .remote r

namespace Fresh

variable {archiveName : String}

theorem workspace (h : s.Fresh archiveName) : s.workspace = .new archiveName := by
  rcases h with rfl | ⟨settings, r, made, rfl⟩
  · rfl
  · rw [RemoteStorage.new_eq made]
    rfl

theorem clear (h : s.Fresh archiveName) (tenant : Uuid) : s.Clear tenant := by
  refine ⟨h.workspace ▸ Workspace.new_vacant archiveName tenant, ?_⟩
  rcases h with rfl | ⟨settings, r, made, rfl⟩
  · exact fun _ other => nomatch other
  · rw [RemoteStorage.new_eq made]
    rintro _ ⟨⟩ members hm
    cases hm

end Fresh

end Storage

end Handover
