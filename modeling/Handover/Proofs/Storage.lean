import Handover.Proofs.Workspace
import Handover.Storage.Backend

namespace Handover

open Act (Preserves)

namespace ObjectStore

variable {s : ObjectStore}

/-- An object store that never fails. -/
def Works (s : ObjectStore) : Prop :=
  s.faults = []

def noted (s : ObjectStore) (operation : ObjectOperation) (place : String) : ObjectStore :=
  { s with calls := s.calls ++ [(operation, place)] }

def withArchive (s : ObjectStore) (place : String) (members : Archive) : ObjectStore :=
  { s.noted .put place with
    objects := (s.objects.filter fun entry => entry.1 ≠ place) ++ [(place, members)] }

def without (s : ObjectStore) (place : String) : ObjectStore :=
  { s.noted .delete place with objects := s.objects.filter fun entry => entry.1 ≠ place }

theorem Works.lookup (h : s.Works) (operation : ObjectOperation) :
    s.faults.lookup operation = none := by
  rw [Works] at h
  rw [h]
  rfl

theorem Works.put (h : s.Works) (place : String) (members : Archive) :
    s.put place members = (.ok (), s.withArchive place members) := by
  rw [ObjectStore.put, called, h.lookup]
  rfl

theorem delete_of_allowed (h : s.faults.lookup .delete = none) (place : String) :
    s.delete place = (.ok (), s.without place) := by
  rw [ObjectStore.delete, called, h]
  rfl

theorem Works.get (h : s.Works) {place : String} {members : Archive}
    (found : s.objects.lookup place = some members) :
    s.get place = (.ok members, s.noted .get place) := by
  rw [ObjectStore.get, called, h.lookup]
  dsimp only
  rw [found]
  rfl

theorem Works.get_none (h : s.Works) {place : String} (absent : s.objects.lookup place = none) :
    s.get place = (.error (.refused ⟨some "NoSuchKey", none⟩), s.noted .get place) := by
  rw [ObjectStore.get, called, h.lookup]
  dsimp only
  rw [absent]
  rfl

theorem lookup_filter (objects : List (String × Archive)) {place other : String}
    (h : other ≠ place) :
    (objects.filter fun entry => entry.1 ≠ place).lookup other = objects.lookup other := by
  induction objects with
  | nil => rfl
  | cons entry rest ih =>
    obtain ⟨p, content⟩ := entry
    by_cases hp : p = place
    · subst hp
      have hne : (other == p) = false := beq_false_of_ne h
      rw [List.filter_cons, if_neg (by simp), ih, List.lookup_cons, hne]
    · rw [List.filter_cons, if_pos (by simpa using hp), List.lookup_cons, List.lookup_cons, ih]

theorem lookup_filter_self (objects : List (String × Archive)) (place : String) :
    (objects.filter fun entry => entry.1 ≠ place).lookup place = none := by
  rw [List.lookup_eq_none_iff]
  intro entry hentry
  have hne : entry.1 ≠ place := by simpa using (List.mem_filter.mp hentry).2
  exact bne_iff_ne.mpr (Ne.symm hne)

theorem lookup_withArchive (s : ObjectStore) (place : String) (members : Archive) :
    (s.withArchive place members).objects.lookup place = some members := by
  rw [withArchive, List.lookup_append, lookup_filter_self]
  simp

theorem lookup_withArchive_of_ne (s : ObjectStore) {place other : String} (h : other ≠ place)
    (members : Archive) :
    (s.withArchive place members).objects.lookup other = s.objects.lookup other := by
  have hne : (other == place) = false := beq_false_of_ne h
  rw [withArchive, List.lookup_append, lookup_filter _ h, List.lookup_cons, hne]
  simp

end ObjectStore

namespace RemoteStorage

variable {s : RemoteStorage} {tenant other : Uuid}

theorem new_eq {settings : RemoteSettings} {w : Workspace} (h : new settings w = .ok s) :
    s = ⟨settings, w, .empty, false⟩ := by
  unfold new at h
  split at h
  next => cases h
  next => exact (Except.ok.inj h).symm

/-- The archives of different tenants lie at different places. -/
theorem archivePlace_injective (h : s.archivePlace tenant = s.archivePlace other) :
    tenant = other := by
  have key : s.archiveKey tenant = s.archiveKey other := by
    have := congrArg String.toList h
    simp only [archivePlace, String.toList_append, List.append_assoc,
      List.append_cancel_left_eq] at this
    exact String.toList_injective this
  have name : (tenant.text ++ "/" ++ s.staging.archiveName).toList =
      (other.text ++ "/" ++ s.staging.archiveName).toList := by
    have := congrArg String.toList key
    simp only [archiveKey] at this
    split at this
    · exact this
    · simpa [String.toList_append] using this
  refine Uuid.text_injective (String.toList_injective ?_)
  simpa [String.toList_append] using name

theorem outcome_call {α : Type} {operation : ObjectStore → Except ObjectFault α × ObjectStore}
    {result : Except ObjectFault α} {store : ObjectStore}
    (h : operation s.store = (result, store)) :
    (call operation).outcome s = (.ok result, { s with store, isConnected := true }) := by
  rw [call, Act.outcome_ofOutcome, h]

theorem outcome_staged {α : Type} {act : Act Workspace α} {result : Except Failure α}
    {w : Workspace} (h : act.outcome s.staging = (result, w)) :
    (staged act).outcome s = (result, { s with staging := w }) := by
  rw [staged, Act.outcome_onPart, h]

section Preserves

variable {P : RemoteStorage → Prop}

theorem pack_preserves (packs : Preserves P (staged (Workspace.pack tenant)))
    (puts : ∀ s, P s → ∀ content,
      Preserves P (call fun store => store.put (s.archivePlace tenant) content))
    (empties : Preserves P (staged (Workspace.cleanUp tenant))) : Preserves P (pack tenant) := by
  refine packs.bind fun _ => .get_bind fun s h => ?_
  refine ((Preserves.settle _).bind fun content => (puts s h content).bind fun result => ?_) s h
  split
  · exact empties
  all_goals exact .throw _

theorem fetch_preserves
    (gets : ∀ s, P s → Preserves P (call fun store => store.get (s.archivePlace tenant))) :
    Preserves P (fetch tenant) := by
  refine .get_bind fun s h => ((gets s h).bind fun result => ?_) s h
  split
  · exact .pure _
  · split <;> exact .throw _
  all_goals exact .throw _

theorem cleanUp_preserves
    (deletes : ∀ s, P s → Preserves P (call fun store => store.delete (s.archivePlace tenant)))
    (empties : Preserves P (staged (Workspace.cleanUp tenant))) : Preserves P (cleanUp tenant) := by
  have deleted : Preserves P (deleteArchive tenant) := by
    refine .get_bind fun s h => ((deletes s h).bind fun result => ?_) s h
    split
    · exact .pure _
    all_goals exact .throw _
  exact deleted.followedBy empties

end Preserves

def uploaded (s : RemoteStorage) (tenant : Uuid) (members : Archive) (w : Workspace) :
    RemoteStorage :=
  { s with
    store := s.store.withArchive (s.archivePlace tenant) members
    staging := w.without tenant
    isConnected := true }

/-- An archive that has been packed is put into the store and removed from the workspace. -/
theorem outcome_pack {w : Workspace} {members : Archive} (works : s.store.Works)
    (packed : (Workspace.pack tenant).outcome s.staging = (.ok (), w))
    (content : w.archiveAt tenant = .ok members)
    (name : w.archiveName = s.staging.archiveName) :
    (pack tenant).outcome s = (.ok (), s.uploaded tenant members w) := by
  have place : RemoteStorage.archivePlace { s with staging := w } tenant =
      s.archivePlace tenant := by
    simp only [archivePlace, archiveKey, name]
  rw [pack, Act.outcome_bind_ok (outcome_staged packed), Act.outcome_bind_ok (Act.outcome_get _)]
  dsimp only
  have mapped : (w.archiveAt tenant).mapError Failure.file = .ok members := by rw [content]; rfl
  rw [mapped, place, Act.outcome_bind_ok (Act.outcome_settle _ _),
    Act.outcome_bind_ok (outcome_call (works.put _ _))]
  dsimp only
  rw [outcome_staged (Workspace.outcome_cleanUp _ tenant)]
  rfl

theorem outcome_fetch {members : Archive} (works : s.store.Works)
    (found : s.store.objects.lookup (s.archivePlace tenant) = some members) :
    (fetch tenant).outcome s = (.ok members,
      { s with store := s.store.noted .get (s.archivePlace tenant), isConnected := true }) := by
  rw [fetch, Act.outcome_bind_ok (Act.outcome_get _),
    Act.outcome_bind_ok (outcome_call (works.get found))]
  rfl

theorem outcome_fetch_none (works : s.store.Works)
    (absent : s.store.objects.lookup (s.archivePlace tenant) = none) :
    (fetch tenant).outcome s =
      (.error (.archiveNotFound (.uuid tenant) (.str ("s3://" ++ s.archivePlace tenant))),
        { s with store := s.store.noted .get (s.archivePlace tenant), isConnected := true }) := by
  rw [fetch, Act.outcome_bind_ok (Act.outcome_get _),
    Act.outcome_bind_ok (outcome_call (works.get_none absent))]
  rfl

def without (s : RemoteStorage) (tenant : Uuid) : RemoteStorage :=
  { s with
    store := s.store.without (s.archivePlace tenant)
    staging := s.staging.without tenant
    isConnected := true }

theorem outcome_cleanUp (allowed : s.store.faults.lookup .delete = none) :
    (cleanUp tenant).outcome s = (.ok (), s.without tenant) := by
  have deleted : (deleteArchive tenant).outcome s = (.ok (),
      { s with store := s.store.without (s.archivePlace tenant), isConnected := true }) := by
    rw [deleteArchive, Act.outcome_bind_ok (Act.outcome_get _),
      Act.outcome_bind_ok (outcome_call (ObjectStore.delete_of_allowed allowed _))]
    rfl
  have emptied := outcome_staged (Workspace.outcome_cleanUp
    (((deleteArchive tenant).outcome s).2.staging) tenant)
  rw [cleanUp, Act.outcome_followedBy emptied, deleted]
  rfl

end RemoteStorage

namespace Storage

/-- A sound storage whose archives have a plain name; its object store, if it has one, works. -/
structure Sound (s : Storage) : Prop where
  workspace : s.workspace.Sound
  named : Workspace.NamesFile s.workspace.archiveName
  works : ∀ store, s.objects? = some store → store.Works

/-- Whether an archive is kept for a tenant. -/
def Keeps (s : Storage) (tenant : Uuid) (members : Archive) : Prop :=
  match s with
  | here w => w.Holds tenant (.archive members)
  | remote r => r.store.objects.lookup (r.archivePlace tenant) = some members

/-- Whether this is what a storage has in stock for a tenant: its archive, or none. -/
def Stocks (s : Storage) (tenant : Uuid) (stock : Option Archive) : Prop :=
  match s with
  | here w => ∃ held, w.Holds tenant held ∧ held.archive? = stock
  | remote r => r.store.objects.lookup (r.archivePlace tenant) = stock

/-- A sound storage that has the same in stock for all other tenants as another one, and leaves
their files alone. -/
structure Spares (tenant : Uuid) (s s' : Storage) : Prop where
  sound : s'.Sound
  stocks : ∀ other, other ≠ tenant → ∀ stock, s.Stocks other stock → s'.Stocks other stock
  beside : Workspace.AgreeBeside tenant s.workspace s'.workspace

variable {s s' s'' : Storage} {tenant : Uuid} {held : Holding} {w' : Workspace}

theorem stocks_some_iff {members : Archive} :
    s.Stocks tenant (some members) ↔ s.Keeps tenant members := by
  cases s with
  | here w =>
    constructor
    · rintro ⟨held, hw, archived⟩
      cases held with
      | archive content =>
        cases archived
        exact hw
      | _ => cases archived
    · exact fun hk => ⟨.archive members, hk, rfl⟩
  | remote r => exact Iff.rfl

/-- The archives of all other tenants are kept. -/
theorem Spares.others (h : Spares tenant s s') (other : Uuid) (hne : other ≠ tenant)
    (members : Archive) (hk : s.Keeps other members) : s'.Keeps other members :=
  stocks_some_iff.mp (h.stocks other hne _ (stocks_some_iff.mpr hk))

theorem Spares.trans (h : Spares tenant s s') (h' : Spares tenant s' s'') :
    Spares tenant s s'' :=
  ⟨h'.sound, fun other hne stock hs =>
    h'.stocks other hne stock (h.stocks other hne stock hs), h.beside.trans h'.beside⟩

theorem Sound.spares (h : s.Sound) (tenant : Uuid) : Spares tenant s s :=
  ⟨h, fun _ _ _ hk => hk, .refl _ tenant⟩

theorem workspace_withWorkspace (s : Storage) (w : Workspace) :
    (s.withWorkspace w).workspace = w := by
  cases s <;> rfl

theorem withWorkspace_withWorkspace (s : Storage) (w v : Workspace) :
    (s.withWorkspace w).withWorkspace v = s.withWorkspace v := by
  cases s <;> rfl

/-- A new workspace alone is a sound storage. -/
theorem here_sound {archiveName : String} (named : Workspace.NamesFile archiveName) :
    (here (.new archiveName)).Sound :=
  ⟨Workspace.new_sound archiveName, named, fun _ h => nomatch h⟩

/-- A new workspace in front of an empty object store is a sound storage. -/
theorem remote_sound {archiveName : String} (named : Workspace.NamesFile archiveName)
    {settings : RemoteSettings} {r : RemoteStorage}
    (h : RemoteStorage.new settings (.new archiveName) = .ok r) : (remote r).Sound := by
  rw [RemoteStorage.new_eq h]
  refine ⟨Workspace.new_sound archiveName, named, fun store hstore => ?_⟩
  cases hstore
  rfl

theorem withWorkspace_workspace (s : Storage) : s.withWorkspace s.workspace = s := by
  cases s <;> rfl

theorem outcome_staged {α : Type} {act : Act Workspace α} {result : Except Failure α}
    (h : act.outcome s.workspace = (result, w')) :
    (staged act).outcome s = (result, s.withWorkspace w') := by
  rw [staged, Act.outcome_onPart, h]

/-- What is done in the workspace for one tenant spares the archives of the others. -/
theorem spares_withWorkspace (h : s.Sound) (hw : Workspace.Changed tenant s.workspace w' held) :
    Spares tenant s (s.withWorkspace w') := by
  refine ⟨⟨?_, ?_, fun store hs => h.works store ?_⟩, fun other hne stock hs => ?_, ?_⟩
  · rw [workspace_withWorkspace]
    exact hw.sound
  · rw [workspace_withWorkspace, hw.beside.archiveName]
    exact h.named
  · cases s <;> exact hs
  · cases s with
    | here w =>
      obtain ⟨held, holds, archived⟩ := hs
      exact ⟨held, hw.beside.holds hne holds, archived⟩
    | remote r =>
      have place : RemoteStorage.archivePlace { r with staging := w' } other =
          r.archivePlace other := by
        simp only [RemoteStorage.archivePlace, RemoteStorage.archiveKey]
        rw [hw.beside.archiveName]
        rfl
      show r.store.objects.lookup (RemoteStorage.archivePlace { r with staging := w' } other) = _
      rw [place]
      exact hs
  · rw [workspace_withWorkspace]
    exact hw.beside

theorem outcome_prepare (s : Storage) (tenant : Uuid) :
    (prepare tenant).outcome s = (.ok (), s.withWorkspace (s.workspace.prepared tenant)) :=
  outcome_staged (Workspace.outcome_prepare s.workspace tenant)

theorem outcome_close (s : Storage) (tenant : Uuid) :
    (close tenant).outcome s = (.ok (), s.withWorkspace (s.workspace.closed tenant)) :=
  outcome_staged (Workspace.outcome_close s.workspace tenant)

theorem outcome_pack {saved : List (RecordType × String)} (h : s.Sound)
    (hw : s.workspace.Holds tenant (.lines saved)) :
    ∃ s', (pack tenant).outcome s = (.ok (), s') ∧ Spares tenant s s' ∧
      s'.Keeps tenant (Holding.archiveOf saved) := by
  have packed := hw.outcome_pack h.workspace h.named (by simp) (hw.membersOf_lines h.workspace)
  have changed := hw.withArchive_changed h.workspace h.named (by simp) (Holding.archiveOf saved)
  cases s with
  | here w =>
    refine ⟨.here (w.withArchive tenant (Holding.archiveOf saved)), ?_,
      spares_withWorkspace h changed, changed.holds⟩
    show (let (result, w') := (Workspace.pack tenant).outcome w; (result, Storage.here w')) = _
    rw [show (Workspace.pack tenant).outcome w = _ from packed]
    rfl
  | remote r =>
    have works : r.store.Works := h.works r.store rfl
    have run := RemoteStorage.outcome_pack works packed (changed.holds.archiveAt_eq changed.sound
      h.named) rfl
    have emptied := changed.trans (Workspace.without_changed changed.sound tenant)
    refine ⟨.remote (r.uploaded tenant (Holding.archiveOf saved)
      (r.staging.withArchive tenant (Holding.archiveOf saved))), ?_,
      ⟨⟨emptied.sound, h.named, fun store hs => ?_⟩, fun other hne stock hs => ?_,
        emptied.beside⟩,
      ObjectStore.lookup_withArchive _ _ _⟩
    · show (let (result, r') := (RemoteStorage.pack tenant).outcome r;
        (result, Storage.remote r')) = _
      rw [run]
      rfl
    · cases hs
      exact works
    · have apart : r.archivePlace other ≠ r.archivePlace tenant := fun he =>
        hne (RemoteStorage.archivePlace_injective he)
      exact (ObjectStore.lookup_withArchive_of_ne _ apart _).trans hs

/-- The archive that is kept for a tenant is fetched, and all archives and files stay. -/
theorem outcome_fetch {members : Archive} (h : s.Sound) (hk : s.Keeps tenant members) :
    ∃ s', (fetch tenant).outcome s = (.ok members, s') ∧ s'.Sound ∧
      (∀ other kept, s'.Keeps other kept ↔ s.Keeps other kept) ∧ s'.workspace = s.workspace := by
  cases s with
  | here w =>
    refine ⟨.here w, ?_, h, fun _ _ => Iff.rfl, rfl⟩
    show (let (result, w') := (Workspace.fetch tenant).outcome w; (result, Storage.here w')) = _
    rw [show (Workspace.fetch tenant).outcome w = (.ok members, w) from
      Workspace.outcome_fetch h.workspace h.named hk]
  | remote r =>
    have works : r.store.Works := h.works r.store rfl
    refine ⟨.remote { r with
      store := r.store.noted .get (r.archivePlace tenant), isConnected := true }, ?_,
      ⟨h.workspace, h.named, fun store hs => ?_⟩, fun _ _ => Iff.rfl, rfl⟩
    · show (let (result, r') := (RemoteStorage.fetch tenant).outcome r;
        (result, Storage.remote r')) = _
      rw [RemoteStorage.outcome_fetch works hk]
    · cases hs
      exact works

theorem outcome_cleanUp (h : s.Sound) (tenant : Uuid) :
    ∃ s', (cleanUp tenant).outcome s = (.ok (), s') ∧ Spares tenant s s' := by
  have emptied := Workspace.without_changed h.workspace tenant
  cases s with
  | here w => exact ⟨.here (w.without tenant), rfl, spares_withWorkspace h emptied⟩
  | remote r =>
    have works : r.store.Works := h.works r.store rfl
    refine ⟨.remote (r.without tenant), ?_, ⟨⟨emptied.sound, h.named, fun store hs => ?_⟩,
      fun other hne stock hs => ?_, emptied.beside⟩⟩
    · show (let (result, r') := (RemoteStorage.cleanUp tenant).outcome r;
        (result, Storage.remote r')) = _
      rw [RemoteStorage.outcome_cleanUp (works.lookup .delete)]
    · cases hs
      exact works
    · have apart : r.archivePlace other ≠ r.archivePlace tenant := fun he =>
        hne (RemoteStorage.archivePlace_injective he)
      exact (ObjectStore.lookup_filter _ apart).trans hs

/-- After a clean-up there is nothing in stock. -/
theorem cleanUp_stocks (h : s.Sound) (tenant : Uuid) :
    ((cleanUp tenant).outcome s).2.Stocks tenant none := by
  cases s with
  | here w => exact ⟨.nothing, (Workspace.without_changed h.workspace tenant).holds, rfl⟩
  | remote r =>
    have works : r.store.Works := h.works r.store rfl
    have run : (cleanUp tenant).outcome (remote r) = (.ok (), .remote (r.without tenant)) := by
      show (let (result, r') := (RemoteStorage.cleanUp tenant).outcome r;
        (result, Storage.remote r')) = _
      rw [RemoteStorage.outcome_cleanUp (works.lookup .delete)]
    rw [run]
    exact ObjectStore.lookup_filter_self _ _

/-- A look for an archive leaves everything that is in stock. -/
theorem fetch_stocks (h : s.Sound) (tenant : Uuid) :
    ((fetch tenant).outcome s).2.Sound ∧
      ∀ other stock, s.Stocks other stock → ((fetch tenant).outcome s).2.Stocks other stock := by
  cases s with
  | here w =>
    have run : (fetch tenant).outcome (here w) =
        (((Workspace.fetch tenant).outcome w).1, .here w) := by
      show (let (result, w') := (Workspace.fetch tenant).outcome w; (result, Storage.here w')) = _
      rw [show ((Workspace.fetch tenant).outcome w) = (_, w) from
        Prod.ext rfl (Workspace.fetch_same w tenant w rfl)]
    rw [run]
    exact ⟨h, fun _ _ hs => hs⟩
  | remote r =>
    have works : r.store.Works := h.works r.store rfl
    have run : ((fetch tenant).outcome (remote r)).2 = .remote { r with
        store := r.store.noted .get (r.archivePlace tenant), isConnected := true } := by
      show (let (result, r') := (RemoteStorage.fetch tenant).outcome r;
        (result, Storage.remote r')).2 = _
      cases found : r.store.objects.lookup (r.archivePlace tenant) with
      | some members => rw [RemoteStorage.outcome_fetch works found]
      | none => rw [RemoteStorage.outcome_fetch_none works found]
    rw [run]
    refine ⟨⟨h.workspace, h.named, fun store hstore => ?_⟩, fun _ _ hs => hs⟩
    cases hstore
    exact works

/-- Where nothing is in stock, an archive is not found. -/
theorem fetch_none (h : s.Sound) (hs : s.Stocks tenant none) :
    ∃ place, ((fetch tenant).outcome s).1 =
      .error (.archiveNotFound (.uuid tenant) (.str place)) := by
  cases s with
  | here w =>
    obtain ⟨held, holds, unarchived⟩ := hs
    have absent : (Workspace.fetch tenant).outcome w = _ :=
      Workspace.outcome_fetch_absent h.workspace h.named holds fun members archived => by
        rw [archived] at unarchived
        cases unarchived
    refine ⟨w.archiveText tenant, ?_⟩
    show (let (result, w') := (Workspace.fetch tenant).outcome w; (result, Storage.here w')).1 = _
    rw [absent]
  | remote r =>
    have works : r.store.Works := h.works r.store rfl
    refine ⟨"s3://" ++ r.archivePlace tenant, ?_⟩
    show (let (result, r') := (RemoteStorage.fetch tenant).outcome r;
      (result, Storage.remote r')).1 = _
    rw [RemoteStorage.outcome_fetch_none works hs]

end Storage

end Handover
