import Handover.Proofs.Act
import Handover.Proofs.FileTree
import Handover.Proofs.Holding

namespace Handover

namespace Workspace

/-- A name that denotes a file of its own in the folder of a tenant. -/
structure NamesFile (name : String) : Prop where
  one : '/' ∉ name.toList
  other : name ∉ ["", ".", "..", "data"]

instance (name : String) : Decidable (NamesFile name) :=
  decidable_of_iff ('/' ∉ name.toList ∧ name ∉ ["", ".", "..", "data"])
    ⟨fun h => ⟨h.1, h.2⟩, fun h => ⟨h.1, h.2⟩⟩

/-- A workspace whose tree lists no path twice and whose base, which never steps upward, holds no
file where a folder has to be. None of its open files has been removed. -/
structure Sound (w : Workspace) : Prop where
  distinct : w.tree.Distinct
  plain : ".." ∉ w.base
  above : ∀ path, path <+: w.base →
    w.tree.node? path = none ∨ w.tree.node? path = some .folder
  live : w.lost = []

/-- What a workspace holds for a tenant. -/
structure Holds (w : Workspace) (tenant : Uuid) (held : Holding) : Prop where
  nodes : ∀ rest, w.tree.node? (w.tenantPath tenant ++ rest) = held.node? w.archiveName rest
  reached : held ≠ .nothing → w.tree.LeadsTo (w.tenantPath tenant)

/-- Whether a workspace is another one but for a tenant. -/
structure AgreeBeside (tenant : Uuid) (w w' : Workspace) : Prop where
  base : w'.base = w.base
  archiveName : w'.archiveName = w.archiveName
  nodes : ∀ other, other ≠ tenant → ∀ rest,
    w'.tree.node? (w.tenantPath other ++ rest) = w.tree.node? (w.tenantPath other ++ rest)
  above : ∀ path, path <+: w.base → w.tree.node? path = some .folder →
    w'.tree.node? path = some .folder
  opened : ∀ other, other ≠ tenant → ∀ type, (other, type) ∈ w'.opened ↔ (other, type) ∈ w.opened

variable {w w' w'' : Workspace} {tenant other : Uuid} {held : Holding}

theorem eq_of_tenantPath {rest : Path}
    (h : w.tenantPath tenant <+: w.tenantPath other ++ rest) : tenant = other := by
  rw [tenantPath, tenantPath, List.append_assoc, List.prefix_append_right_inj,
    List.singleton_append, List.cons_prefix_cons] at h
  exact Uuid.text_injective h.1

theorem tenantPath_ne_nil (w : Workspace) (tenant : Uuid) : w.tenantPath tenant ≠ [] := by
  simp [tenantPath]

theorem dataPath_ne_nil (w : Workspace) (tenant : Uuid) : w.dataPath tenant ≠ [] := by
  simp [dataPath]

theorem not_tenantPath_above {path : Path} (h : path <+: w.base) (tenant : Uuid) :
    ¬w.tenantPath tenant <+: path := by
  intro hp
  have long := (hp.trans h).length_le
  rw [tenantPath, List.length_append, List.length_singleton] at long
  omega

/-- The folders above a tenant's are those of the base. -/
theorem leadsTo_tenantPath {t : FileTree}
    (h : ∀ path, path <+: w.base → t.node? path = some .folder) :
    t.LeadsTo (w.tenantPath tenant) := by
  intro above hp hne
  rcases List.prefix_concat_iff.mp hp with he | hp
  · exact absurd he hne
  · exact h above hp

namespace AgreeBeside

theorem tenantPath_eq (h : AgreeBeside tenant w w') (other : Uuid) :
    w'.tenantPath other = w.tenantPath other := by
  rw [tenantPath, tenantPath, h.base]

theorem refl (w : Workspace) (tenant : Uuid) : AgreeBeside tenant w w :=
  ⟨rfl, rfl, fun _ _ _ => rfl, fun _ _ folder => folder, fun _ _ _ => Iff.rfl⟩

theorem trans (h : AgreeBeside tenant w w') (h' : AgreeBeside tenant w' w'') :
    AgreeBeside tenant w w'' where
  base := h'.base.trans h.base
  archiveName := h'.archiveName.trans h.archiveName
  nodes other hne rest := by
    rw [← h.nodes other hne rest, ← h.tenantPath_eq other]
    exact h'.nodes other hne rest
  above path hp hnode := h'.above path (h.base ▸ hp) (h.above path hp hnode)
  opened other hne type := (h'.opened other hne type).trans (h.opened other hne type)

theorem holds (h : AgreeBeside tenant w w') (hne : other ≠ tenant) (hw : w.Holds other held) :
    w'.Holds other held where
  nodes rest := by
    rw [h.tenantPath_eq, h.nodes other hne rest, hw.nodes rest, h.archiveName]
  reached hheld := by
    intro above hp hne'
    rw [h.tenantPath_eq] at hp hne'
    rcases List.prefix_concat_iff.mp hp with he | hp'
    · exact absurd he hne'
    · exact h.above above hp' (hw.reached hheld above hp hne')

end AgreeBeside

def archivePath (w : Workspace) (tenant : Uuid) : Path :=
  w.tenantPath tenant ++ [w.archiveName]

theorem archiveSteps_eq (h : NamesFile w.archiveName) (tenant : Uuid) :
    w.archiveSteps tenant = w.archivePath tenant := by
  have others := h.other
  simp only [List.mem_cons, List.not_mem_nil, or_false, not_or] at others
  have relative : isAbsolute w.archiveName = false := by
    rw [isAbsolute, decide_eq_false_iff_not]
    intro hhead
    exact h.one (List.mem_of_head? hhead)
  have steps : stepsOf w.archiveName = [w.archiveName] := by
    rw [stepsOf, Text.parts, List.splitOn_eq_singleton h.one]
    simp [others.1, others.2.1]
  rw [archiveSteps, relative, steps]
  rfl

theorem plain_tenantPath (h : ".." ∉ w.base) (tenant : Uuid) : ".." ∉ w.tenantPath tenant := by
  intro hm
  rcases List.mem_append.mp hm with hm | hm
  · exact h hm
  · exact tenant.text_ne_up (List.mem_singleton.mp hm).symm

def Shut (w : Workspace) (tenant : Uuid) : Prop :=
  ∀ type, (tenant, type) ∉ w.opened

/-- A sound workspace that was changed for one tenant and then holds something for it. -/
structure Changed (tenant : Uuid) (w w' : Workspace) (held : Holding) : Prop where
  sound : w'.Sound
  beside : AgreeBeside tenant w w'
  holds : w'.Holds tenant held

theorem Changed.trans {held' : Holding} (h : Changed tenant w w' held')
    (h' : Changed tenant w' w'' held) : Changed tenant w w'' held :=
  ⟨h'.sound, h.beside.trans h'.beside, h'.holds⟩

theorem closed_shut (w : Workspace) (tenant : Uuid) : (w.closed tenant).Shut tenant := by
  intro type hm
  simpa using (List.mem_filter.mp hm).2

theorem mem_opened_closed (hne : other ≠ tenant) (type : RecordType) :
    (other, type) ∈ (w.closed tenant).opened ↔ (other, type) ∈ w.opened := by
  simp [closed, hne]

theorem closed_live (h : w.lost = []) (tenant : Uuid) : (w.closed tenant).lost = [] := by
  simp [closed, h]

/-- Below the folder of a tenant whose files are closed, no open file is removed. -/
theorem removed_live {path : Path} (h : w.lost = []) (shut : w.Shut tenant)
    (below : w.tenantPath tenant <+: path) : (w.removed path).lost = [] := by
  rw [removed, List.filter_eq_nil_iff, h]
  rintro ⟨other, type⟩ hm gone
  have gone : path <+: w.filePath other type := by simpa using gone
  rw [filePath, dataPath, List.append_assoc] at gone
  obtain rfl : tenant = other := eq_of_tenantPath (below.trans gone)
  exact shut type hm

/-- Closing files changes nothing that is held. -/
theorem closed_changed (h : w.Sound) (hw : w.Holds tenant held) :
    Changed tenant w (w.closed tenant) held where
  sound := ⟨h.distinct, h.plain, h.above, closed_live h.live tenant⟩
  beside := ⟨rfl, rfl, fun _ _ _ => rfl, fun _ _ hp => hp, fun _ hne type =>
    mem_opened_closed hne type⟩
  holds := ⟨hw.nodes, hw.reached⟩

theorem outcome_close (w : Workspace) (tenant : Uuid) :
    (close tenant).outcome w = (.ok (), w.closed tenant) := rfl

def prepared (w : Workspace) (tenant : Uuid) : Workspace :=
  { (w.closed tenant).removed (w.tenantPath tenant) with
    tree := (w.tree.removeTree (w.tenantPath tenant)).makeFolders (w.dataPath tenant) }

theorem outcome_prepare (w : Workspace) (tenant : Uuid) :
    (prepare tenant).outcome w = (.ok (), w.prepared tenant) := rfl

theorem node?_prepared (w : Workspace) (tenant : Uuid) (path : Path) :
    (w.prepared tenant).tree.node? path =
      if path <+: w.dataPath tenant then
        some ((if w.tenantPath tenant <+: path then none else w.tree.node? path).getD .folder)
      else if w.tenantPath tenant <+: path then none else w.tree.node? path := by
  rw [prepared, FileTree.node?_makeFolders,
    FileTree.node?_removeTree _ (w.tenantPath_ne_nil tenant)]

theorem node?_prepared_base (h : w.Sound) (tenant : Uuid) {path : Path} (hp : path <+: w.base) :
    (w.prepared tenant).tree.node? path = some .folder := by
  have below : path <+: w.dataPath tenant := by
    rw [dataPath, tenantPath]
    exact hp.trans ((List.prefix_append _ _).trans (List.prefix_append _ _))
  rw [node?_prepared, if_pos below, if_neg (not_tenantPath_above hp tenant)]
  rcases h.above path hp with hnone | hfolder
  · rw [hnone]
    rfl
  · rw [hfolder]
    rfl

theorem node?_prepared_self (w : Workspace) (tenant : Uuid) (rest : Path) :
    (w.prepared tenant).tree.node? (w.tenantPath tenant ++ rest) =
      if rest <+: ["data"] then some .folder else none := by
  have below : w.tenantPath tenant ++ rest <+: w.dataPath tenant ↔ rest <+: ["data"] :=
    List.prefix_append_right_inj _
  rw [node?_prepared, if_pos (List.prefix_append _ rest)]
  simp only [below, Option.getD_none]

theorem prepared_changed (h : w.Sound) (tenant : Uuid) :
    Changed tenant w (w.prepared tenant) (.lines []) where
  sound := ⟨(h.distinct.removeTree _).makeFolders _, h.plain,
    fun _ hp => Or.inr (node?_prepared_base h tenant hp),
    removed_live (closed_live h.live tenant) (w.closed_shut tenant) List.prefix_rfl⟩
  beside := by
    refine ⟨rfl, rfl, fun other hne rest => ?_, fun _ hp _ => node?_prepared_base h tenant hp,
      fun _ hne type => mem_opened_closed hne type⟩
    have hother : ¬w.tenantPath other ++ rest <+: w.dataPath tenant := fun hp =>
      hne (eq_of_tenantPath ((List.prefix_append _ rest).trans hp))
    have hself : ¬w.tenantPath tenant <+: w.tenantPath other ++ rest := fun hp =>
      hne (eq_of_tenantPath hp).symm
    rw [node?_prepared, if_neg hother, if_neg hself]
  holds := by
    refine ⟨fun rest => (node?_prepared_self w tenant rest).trans ?_,
      fun _ => leadsTo_tenantPath fun _ hp => node?_prepared_base h tenant hp⟩
    match rest with
    | [] => rfl
    | [folder] =>
      simp only [List.cons_prefix_cons, List.prefix_rfl, and_true]
      rfl
    | [folder, name] =>
      have absent : Holding.fileNamed? (Holding.textsOf []) name = none :=
        Option.bind_fun_none _
      rw [if_neg fun hp => by simpa using hp.length_le, Holding.lines, Holding.node?, absent]
      simp
    | _ :: _ :: _ :: _ =>
      rw [if_neg fun hp => by simpa using hp.length_le]
      rfl

theorem filePath_eq (w : Workspace) (tenant : Uuid) (type : RecordType) :
    w.filePath tenant type = w.tenantPath tenant ++ ["data", fileName type] := by
  rw [filePath, dataPath, List.append_assoc]
  rfl

theorem tenantPath_prefix_filePath (w : Workspace) (tenant : Uuid) (type : RecordType) :
    w.tenantPath tenant <+: w.filePath tenant type := by
  rw [filePath_eq]
  exact List.prefix_append _ _

/-- A walk from the root to a file in an open workspace passes through folders. -/
theorem Holds.leadsTo_file {texts : RecordType → Option String}
    (hw : w.Holds tenant (.files texts)) (type : RecordType) :
    w.tree.LeadsTo (w.filePath tenant type) := by
  rw [filePath_eq]
  intro above hp hne
  by_cases hpre : w.tenantPath tenant <+: above
  · obtain ⟨rest, rfl⟩ := hpre
    rw [hw.nodes rest]
    rw [List.prefix_append_right_inj] at hp
    match rest, hp with
    | [], _ => rfl
    | [folder], hp =>
      obtain rfl : folder = "data" := (List.cons_prefix_cons.mp hp).1
      rfl
    | [folder, name], hp =>
      exact absurd (congrArg (w.tenantPath tenant ++ ·) (hp.eq_of_length rfl)) hne
    | _ :: _ :: _ :: _, hp => simpa using hp.length_le
  · rcases List.prefix_or_prefix_of_prefix hp (List.prefix_append _ _) with hp' | hp'
    · refine hw.reached (by simp) above hp' fun he => hpre (he ▸ List.prefix_rfl)
    · exact absurd hp' hpre

theorem Holds.node?_file {texts : RecordType → Option String}
    (hw : w.Holds tenant (.files texts)) (type : RecordType) :
    w.tree.node? (w.filePath tenant type) = (texts type).map .text := by
  rw [filePath_eq, hw.nodes, Holding.node?, if_pos rfl, Holding.fileNamed?_fileName]

theorem Holds.textAt_file {texts : RecordType → Option String}
    (hw : w.Holds tenant (.files texts)) (type : RecordType) :
    textAt w.tree (w.filePath tenant type) = (texts type).getD "" := by
  rw [textAt, hw.node?_file]
  cases texts type <;> rfl

theorem plain_filePath (h : ".." ∉ w.base) (tenant : Uuid) (type : RecordType) :
    ".." ∉ w.filePath tenant type := by
  rw [filePath_eq]
  intro hm
  rcases List.mem_append.mp hm with hm | hm
  · exact plain_tenantPath h tenant hm
  · have := Holding.fileName_ne_up type
    simp [Ne.symm this] at hm

theorem filePath_ne_nil (w : Workspace) (tenant : Uuid) (type : RecordType) :
    w.filePath tenant type ≠ [] := by
  rw [filePath]
  simp

/-- The workspace in which the file of a type is open and has a text. -/
def withText (w : Workspace) (tenant : Uuid) (type : RecordType) (text : String) : Workspace :=
  { w with
    tree := w.tree.put (w.filePath tenant type) (.text text)
    opened := if w.opened.contains (tenant, type) then w.opened else w.opened ++ [(tenant, type)] }

theorem mem_opened_withText (text : String) {type kind : RecordType} :
    (tenant, kind) ∈ (w.withText tenant type text).opened ↔
      (tenant, kind) ∈ w.opened ∨ kind = type := by
  rw [withText]
  split
  next isOpen =>
    refine ⟨Or.inl, fun h => h.elim id ?_⟩
    rintro rfl
    simpa using isOpen
  next => simp

theorem withText_changed {texts : RecordType → Option String} (h : w.Sound)
    (hw : w.Holds tenant (.files texts)) (type : RecordType) (text : String) :
    Changed tenant w (w.withText tenant type text)
      (.files (Function.update texts type (some text))) := by
  have hne := w.filePath_ne_nil tenant type
  have node : ∀ path, (w.withText tenant type text).tree.node? path =
      if path = w.filePath tenant type then some (.text text) else w.tree.node? path :=
    fun path => FileTree.node?_put _ hne _ path
  have base : ∀ path, path <+: w.base → path ≠ w.filePath tenant type := by
    intro path hp he
    subst he
    exact not_tenantPath_above hp tenant (w.tenantPath_prefix_filePath tenant type)
  refine ⟨⟨h.distinct.put _ _ hne, h.plain, fun path hp => ?_, h.live⟩,
    ⟨rfl, rfl, fun other hother rest => ?_, fun path hp hf => ?_, fun other hother t => ?_⟩,
    ⟨fun rest => ?_, fun _ => ?_⟩⟩
  · rw [node, if_neg (base path hp)]
    exact h.above path hp
  · rw [node, if_neg]
    intro he
    have hp : w.tenantPath other <+: w.filePath tenant type := he ▸ List.prefix_append _ _
    rw [filePath_eq] at hp
    exact hother (eq_of_tenantPath hp)
  · rw [node, if_neg (base path hp), hf]
  · rw [withText]
    split
    · rfl
    · simp [hother]
  · refine (node (w.tenantPath tenant ++ rest)).trans ?_
    have same : w.tenantPath tenant ++ rest = w.filePath tenant type ↔
        rest = ["data", fileName type] := by
      rw [filePath_eq, List.append_cancel_left_eq]
    rw [hw.nodes rest]
    simp only [same]
    match rest with
    | [] => rfl
    | [folder] => rw [if_neg (by simp)]; rfl
    | [folder, name] =>
      by_cases hname : name = fileName type
      · subst hname
        by_cases hf : folder = "data"
        · subst hf
          rw [if_pos rfl, Holding.node?, if_pos rfl, Holding.fileNamed?_fileName,
            Function.update_self]
          rfl
        · rw [if_neg (by simp [hf]), Holding.node?, Holding.node?, if_neg hf, if_neg hf]
      · rw [if_neg (by simp [hname]), Holding.node?, Holding.node?,
          Holding.fileNamed?_update_of_ne texts hname]
    | _ :: _ :: _ :: _ => rw [if_neg (by simp)]; rfl
  · intro above hp habove
    have hb : above <+: w.base := (List.prefix_concat_iff.mp hp).resolve_left habove
    rw [node, if_neg (base above hb)]
    exact hw.reached (by simp) above hp habove

/-- The workspace in which the file of a type is open and has the text that it had before. -/
def withFile (w : Workspace) (tenant : Uuid) (type : RecordType) : Workspace :=
  if w.opened.contains (tenant, type) then w
  else w.withText tenant type (textAt w.tree (w.filePath tenant type))

def withLine (w : Workspace) (tenant : Uuid) (type : RecordType) (line : String) : Workspace :=
  w.withText tenant type (textAt w.tree (w.filePath tenant type) ++ line ++ "\n")

theorem outcome_openFile {texts : RecordType → Option String} (h : w.Sound)
    (hw : w.Holds tenant (.files texts)) (type : RecordType) :
    (openFile tenant type).outcome w = (.ok (), w.withFile tenant type) := by
  have free : w.tree.node? (w.filePath tenant type) ≠ some .folder := by
    rw [hw.node?_file]
    cases texts type <;> simp
  rw [openFile, Act.outcome_bind_ok (Act.outcome_get w), withFile]
  dsimp only
  by_cases isOpen : w.opened.contains (tenant, type) = true
  · rw [if_pos isOpen, if_pos isOpen]
    rfl
  · rw [if_neg isOpen, if_neg isOpen, withText, if_neg isOpen,
      (hw.leadsTo_file type).write (plain_filePath h.plain tenant type) _ free]
    rfl

/-- What is appended to a file that has just been opened comes after what it held. -/
theorem outcome_append_withFile (live : w.lost = []) (type : RecordType) (line : String) :
    (append tenant type (line ++ "\n")).outcome (w.withFile tenant type) =
      (.ok (), w.withLine tenant type line) := by
  have hne := w.filePath_ne_nil tenant type
  have kept : textAt (w.withFile tenant type).tree (w.filePath tenant type) =
      textAt w.tree (w.filePath tenant type) := by
    rw [withFile]
    split
    next => rfl
    next => rw [textAt, withText, FileTree.node?_put_self _ hne]
  have path : (w.withFile tenant type).filePath tenant type = w.filePath tenant type := by
    rw [withFile]
    split <;> rfl
  have unlost : ¬(w.withFile tenant type).lost.contains (tenant, type) = true := by
    rw [withFile]
    split <;> simp [live, withText]
  rw [append, Act.outcome_modify]
  dsimp only
  rw [if_neg unlost, path, kept, withLine, String.append_assoc]
  congr 1
  rw [withFile]
  split
  next isOpen => rw [withText, if_pos isOpen]
  next isOpen => rw [withText, withText, if_neg isOpen, FileTree.put_put _ hne]

theorem outcome_saveLine {texts : RecordType → Option String} (h : w.Sound)
    (hw : w.Holds tenant (.files texts)) (type : RecordType) {line : List CodePoint}
    {text : String} (bytes : Text.encoded line = .ok text) :
    (saveLine tenant type line).outcome w = (.ok (), w.withLine tenant type text) := by
  rw [saveLine, Act.outcome_bind_ok (outcome_openFile h hw type), bytes,
    Act.outcome_bind_ok (Act.outcome_settle _ _), outcome_append_withFile h.live]

/-- A line without bytes leaves its file begun. -/
theorem outcome_saveLine_unencoded {texts : RecordType → Option String} (h : w.Sound)
    (hw : w.Holds tenant (.files texts)) (type : RecordType) {line : List CodePoint}
    {failure : Failure} (refused : Text.encoded line = .error failure) :
    (saveLine tenant type line).outcome w = (.error failure, w.withFile tenant type) := by
  rw [saveLine, Act.outcome_bind_ok (outcome_openFile h hw type), refused]
  exact Act.outcome_bind_error (Act.outcome_settle _ _)

theorem outcome_save {saved : List (RecordType × String)} (h : w.Sound)
    (hw : w.Holds tenant (.lines saved)) {type lineType : RecordType} {record : Value}
    {line : String} (hline : Json.line lineType record = .ok line) :
    (save tenant type lineType record).outcome w = (.ok (), w.withLine tenant type line) := by
  rw [save, hline, Act.outcome_bind_ok (Act.outcome_settle _ _)]
  exact outcome_saveLine h hw type (Text.encoded_codePoints line)

theorem outcome_save_unwritten {lineType : RecordType} {record : Value} {failure : Failure}
    (hline : Json.line lineType record = .error failure) (w : Workspace) (tenant : Uuid)
    (type : RecordType) : (save tenant type lineType record).outcome w = (.error failure, w) := by
  rw [save, hline]
  exact Act.outcome_bind_error (Act.outcome_settle _ _)

theorem withLine_changed {saved : List (RecordType × String)} (h : w.Sound)
    (hw : w.Holds tenant (.lines saved)) (type : RecordType) (line : String) :
    Changed tenant w (w.withLine tenant type line) (.lines (saved ++ [(type, line)])) := by
  rw [withLine, hw.textAt_file, Holding.textsOf_getD, Holding.lines, Holding.textsOf_concat]
  exact withText_changed h hw type _

/-- Whether a record is saved is up to the record. -/
theorem outcome_save_changed {saved : List (RecordType × String)} (h : w.Sound)
    (hw : w.Holds tenant (.lines saved)) (type : RecordType) (record : Value) :
    ∃ w', (save tenant type type record).outcome w =
        ((Json.line type record).map fun _ => (), w') ∧
      Changed tenant w w' (.lines (saved ++ Holding.written [(type, record)])) := by
  cases line : Json.line type record with
  | error failure =>
    have unwritten : Holding.written [(type, record)] = [] := by
      simp [Holding.written, line, Except.toOption]
    rw [unwritten, List.append_nil]
    exact ⟨w, outcome_save_unwritten line w tenant type, h, .refl w tenant, hw⟩
  | ok text =>
    rw [Holding.written_singleton line]
    exact ⟨_, outcome_save h hw line, withLine_changed h hw type text⟩

theorem archivePath_ne_nil (w : Workspace) (tenant : Uuid) : w.archivePath tenant ≠ [] := by
  simp [archivePath]

theorem plain_archivePath (h : w.Sound) (named : NamesFile w.archiveName) (tenant : Uuid) :
    ".." ∉ w.archivePath tenant := by
  intro hm
  rcases List.mem_append.mp hm with hm | hm
  · exact plain_tenantPath h.plain tenant hm
  · have := named.other
    simp [← List.mem_singleton.mp hm] at this

/-- A walk from the root to the archive of a tenant passes through folders when anything is held
for it. -/
theorem Holds.leadsTo_archive (hw : w.Holds tenant held) (hheld : held ≠ .nothing) :
    w.tree.LeadsTo (w.archivePath tenant) := by
  intro above hp hne
  have hp' := (List.prefix_concat_iff.mp hp).resolve_left hne
  by_cases he : above = w.tenantPath tenant
  · subst he
    have := hw.nodes []
    rw [List.append_nil] at this
    rw [this]
    cases held with
    | nothing => contradiction
    | _ => rfl
  · exact hw.reached hheld above hp' he

/-- The workspace after a tenant's lines have been packed into an archive. -/
def withArchive (w : Workspace) (tenant : Uuid) (members : Archive) : Workspace :=
  removed { w.closed tenant with
    tree := (w.tree.put (w.archivePath tenant) (.archive [])).put (w.archivePath tenant)
      (.archive members) } (w.dataPath tenant)

theorem node?_withArchive (w : Workspace) (tenant : Uuid) (members : Archive) (path : Path) :
    (w.withArchive tenant members).tree.node? path =
      if w.dataPath tenant <+: path then none
      else if path = w.archivePath tenant then some (.archive members) else w.tree.node? path := by
  have hne := w.archivePath_ne_nil tenant
  rw [withArchive, removed, FileTree.node?_removeTree _ (w.dataPath_ne_nil tenant),
    FileTree.node?_put _ hne, FileTree.node?_put _ hne]
  by_cases he : path = w.archivePath tenant <;> simp [he]

theorem Holds.membersOf_eq {texts : RecordType → Option String} (h : w.Sound)
    (hw : w.Holds tenant (.files texts)) :
    membersOf (w.tree.put (w.archivePath tenant) (.archive [])) (w.dataPath tenant)
      (w.archivePath tenant) = Holding.packed texts := by
  have apart : ∀ name, w.dataPath tenant ++ [name] ≠ w.archivePath tenant := by
    intro name he
    have := congrArg List.length he
    simp [dataPath, archivePath] at this
  have node : ∀ name, (w.tree.put (w.archivePath tenant) (.archive [])).node?
      (w.dataPath tenant ++ [name]) = (Holding.fileNamed? texts name).map .text := by
    intro name
    rw [FileTree.node?_put_of_ne _ (w.archivePath_ne_nil tenant) _ (apart name), dataPath,
      List.append_assoc, List.singleton_append, hw.nodes, Holding.node?, if_pos rfl]
  have mem : ∀ name, name ∈ (w.tree.put (w.archivePath tenant) (.archive [])).childNames
      (w.dataPath tenant) ↔ ∃ type, (texts type).isSome ∧ fileName type = name := by
    intro name
    rw [FileTree.mem_childNames, node, Option.isSome_map, Holding.fileNamed?_isSome]
  have distinct := (h.distinct.put _ (.archive []) (w.archivePath_ne_nil tenant)).childNames
    (w.dataPath tenant)
  have lines : ((w.tree.put (w.archivePath tenant) (.archive [])).childNames
      (w.dataPath tenant)).filter (fun name => name.endsWith ".jsonl") =
        (w.tree.put (w.archivePath tenant) (.archive [])).childNames (w.dataPath tenant) := by
    refine List.filter_eq_self.mpr fun name hname => ?_
    obtain ⟨type, _, rfl⟩ := (mem name).mp hname
    exact Holding.fileName_endsWith type (Holding.mem_all type)
  rw [membersOf, lines]
  simp only [apart, if_false, List.filterMap_eq_map']
  refine Holding.packed_eq distinct mem fun type written begun => ?_
  rw [textAt, node, Holding.fileNamed?_fileName, begun]
  rfl

theorem Holds.membersOf_lines {saved : List (RecordType × String)} (h : w.Sound)
    (hw : w.Holds tenant (.lines saved)) :
    membersOf (w.tree.put (w.archivePath tenant) (.archive [])) (w.dataPath tenant)
      (w.archivePath tenant) = Holding.archiveOf saved :=
  (hw.membersOf_eq h).trans (Holding.packed_textsOf saved)

/-- An archive takes the place of what has been held for its tenant, be it lines or an archive. -/
theorem Holds.withArchive_changed (h : w.Sound) (named : NamesFile w.archiveName)
    (hw : w.Holds tenant held) (hheld : held ≠ .nothing) (members : Archive) :
    Changed tenant w (w.withArchive tenant members) (.archive members) := by
  have hne := w.archivePath_ne_nil tenant
  have data : ∀ path, path <+: w.base → ¬w.dataPath tenant <+: path := fun path hp hd =>
    not_tenantPath_above hp tenant ((List.prefix_append _ _).trans hd)
  have archive : ∀ path, path <+: w.base → path ≠ w.archivePath tenant := by
    intro path hp he
    subst he
    exact not_tenantPath_above hp tenant (List.prefix_append _ _)
  have base : ∀ path, path <+: w.base →
      (w.withArchive tenant members).tree.node? path = w.tree.node? path := by
    intro path hp
    rw [node?_withArchive, if_neg (data path hp), if_neg (archive path hp)]
  have live := removed_live (closed_live h.live tenant) (w.closed_shut tenant)
    (List.prefix_append (w.tenantPath tenant) ["data"])
  refine ⟨⟨((h.distinct.put _ _ hne).put _ _ hne).removeTree _, h.plain, fun path hp => ?_, live⟩,
    ⟨rfl, rfl, fun other hother rest => ?_, fun path hp hf => ?_,
      fun _ hother type => mem_opened_closed hother type⟩,
    ⟨fun rest => ?_, fun _ above hp habove => ?_⟩⟩
  · rw [base path hp]
    exact h.above path hp
  · rw [node?_withArchive, if_neg, if_neg]
    · intro he
      have hp : w.tenantPath other <+: w.archivePath tenant := he ▸ List.prefix_append _ _
      exact hother (eq_of_tenantPath hp)
    · intro hp
      exact hother (eq_of_tenantPath ((List.prefix_append _ _).trans hp)).symm
  · rw [base path hp, hf]
  · refine (node?_withArchive w tenant members (w.tenantPath tenant ++ rest)).trans ?_
    have below : w.dataPath tenant <+: w.tenantPath tenant ++ rest ↔ ["data"] <+: rest :=
      List.prefix_append_right_inj _
    have same : w.tenantPath tenant ++ rest = w.archivePath tenant ↔ rest = [w.archiveName] := by
      rw [archivePath, List.append_cancel_left_eq]
    rw [hw.nodes rest]
    simp only [below, same]
    exact held.node?_packed hheld (fun hname => named.other (by simp [hname])) members rest
  · have hb : above <+: w.base := (List.prefix_concat_iff.mp hp).resolve_left habove
    rw [base above hb]
    exact hw.reached hheld above hp habove

/-- The archive that is held for a tenant is found under its name. -/
theorem Holds.find_archive {members : Archive} (h : w.Sound) (named : NamesFile w.archiveName)
    (hw : w.Holds tenant (.archive members)) :
    w.tree.find (w.archiveSteps tenant) = .ok (w.archivePath tenant, .archive members) := by
  have node : w.tree.node? (w.archivePath tenant) = some (.archive members) := by
    rw [archivePath, hw.nodes, Holding.node?, if_pos rfl]
  have found := (hw.leadsTo_archive (by simp)).find (plain_archivePath h named tenant)
  rw [node] at found
  rw [archiveSteps_eq named]
  exact found

theorem Holds.outcome_pack (h : w.Sound) (named : NamesFile w.archiveName)
    (hw : w.Holds tenant held) (hheld : held ≠ .nothing) {members : Archive}
    (content : membersOf (w.tree.put (w.archivePath tenant) (.archive [])) (w.dataPath tenant)
      (w.archivePath tenant) = members) :
    (pack tenant).outcome w = (.ok (), w.withArchive tenant members) := by
  have plain := plain_archivePath h named tenant
  have leads := hw.leadsTo_archive hheld
  have hne := w.archivePath_ne_nil tenant
  have steps : (w.closed tenant).archiveSteps tenant = w.archivePath tenant :=
    archiveSteps_eq named tenant
  have free : w.tree.node? (w.archivePath tenant) ≠ some .folder := by
    rw [archivePath, hw.nodes]
    exact held.node?_file (fun hname => named.other (by simp [hname]))
  have begun := leads.write plain (.archive []) free
  have leads' : (w.tree.put (w.archivePath tenant) (.archive [])).LeadsTo
      (w.archivePath tenant) := by
    intro above hp hne'
    rw [FileTree.node?_put_of_ne _ hne _ hne']
    exact leads above hp hne'
  have rewritten := leads'.write plain (.archive members) (by simp [FileTree.node?_put_self _ hne])
  have packed := hw.withArchive_changed h named hheld members
  have same : (w.withArchive tenant members).archiveSteps tenant = w.archivePath tenant :=
    archiveSteps_eq named tenant
  have found := packed.holds.find_archive packed.sound named
  rw [same] at found
  rw [pack, Act.outcome_bind_ok (Act.outcome_modify _ _), Act.outcome_bind_ok (Act.outcome_get _)]
  dsimp only
  rw [steps, show (w.closed tenant).tree = w.tree from rfl, begun]
  dsimp only
  rw [show (w.closed tenant).dataPath tenant = w.dataPath tenant from rfl,
    FileTree.lexical_plain plain, content, rewritten]
  dsimp only
  rw [Act.outcome_bind_ok (Act.outcome_set _ _)]
  have reached : (removed { w.closed tenant with tree := (w.tree.put _ _).put _ _ } _).tree.find
      (w.archivePath tenant) = _ := found
  rw [reached]
  rfl

theorem Holds.archiveAt_eq {members : Archive} (h : w.Sound) (named : NamesFile w.archiveName)
    (hw : w.Holds tenant (.archive members)) : w.archiveAt tenant = .ok members := by
  rw [archiveAt, hw.find_archive h named]
  rfl

theorem outcome_fetch {members : Archive} (h : w.Sound) (named : NamesFile w.archiveName)
    (hw : w.Holds tenant (.archive members)) : (fetch tenant).outcome w = (.ok members, w) := by
  have here : w.tree.exists? (w.archiveSteps tenant) = true := by
    rw [FileTree.exists?, hw.find_archive h named]
  rw [fetch, Act.outcome_bind_ok (Act.outcome_get w), if_pos here, hw.archiveAt_eq h named]
  rfl

theorem fetch_same (w₀ : Workspace) (tenant : Uuid) : Act.Preserves (· = w₀) (fetch tenant) := by
  refine .get_bind fun w h => ?_
  split
  next =>
    cases w.archiveAt tenant with
    | ok members => exact h
    | error fault => exact h
  next => exact h

theorem outcome_fetch_absent (h : w.Sound) (named : NamesFile w.archiveName)
    (hw : w.Holds tenant held) (hheld : ∀ members, held ≠ .archive members) :
    (fetch tenant).outcome w =
      (.error (.archiveNotFound (.uuid tenant) (.str (w.archiveText tenant))), w) := by
  have absent : w.tree.node? (w.archivePath tenant) = none := by
    rw [archivePath, hw.nodes]
    cases held with
    | nothing => rfl
    | files texts =>
      refine if_neg fun hname => ?_
      have := named.other
      simp [hname] at this
    | archive members => exact absurd rfl (hheld members)
  have gone : w.tree.exists? (w.archiveSteps tenant) = false := by
    rw [archiveSteps_eq named]
    exact FileTree.exists?_eq_false (plain_archivePath h named tenant) absent
  rw [fetch, Act.outcome_bind_ok (Act.outcome_get w), gone]
  rfl

def without (w : Workspace) (tenant : Uuid) : Workspace :=
  (w.closed tenant).removed (w.tenantPath tenant)

theorem outcome_cleanUp (w : Workspace) (tenant : Uuid) :
    (cleanUp tenant).outcome w = (.ok (), w.without tenant) := rfl

theorem without_changed (h : w.Sound) (tenant : Uuid) :
    Changed tenant w (w.without tenant) .nothing := by
  have node : ∀ path, (w.without tenant).tree.node? path =
      if w.tenantPath tenant <+: path then none else w.tree.node? path :=
    FileTree.node?_removeTree _ (w.tenantPath_ne_nil tenant)
  have base : ∀ path, path <+: w.base → (w.without tenant).tree.node? path = w.tree.node? path :=
    fun path hp => by rw [node, if_neg (not_tenantPath_above hp tenant)]
  have live := removed_live (closed_live h.live tenant) (w.closed_shut tenant) List.prefix_rfl
  refine ⟨⟨h.distinct.removeTree _, h.plain, fun path hp => ?_, live⟩,
    ⟨rfl, rfl, fun other hother rest => ?_, fun path hp hf => ?_,
      fun _ hother type => mem_opened_closed hother type⟩, ⟨fun rest => ?_, fun hne => ?_⟩⟩
  · rw [base path hp]
    exact h.above path hp
  · rw [node, if_neg fun hp => hother (eq_of_tenantPath hp).symm]
  · rw [base path hp, hf]
  · exact (node (w.tenantPath tenant ++ rest)).trans (if_pos (List.prefix_append _ rest))
  · exact absurd rfl hne

theorem new_sound (archiveName : String) : (new archiveName).Sound where
  distinct := by simp [new, FileTree.withFolder, FileTree.Distinct]
  plain := by simp [new]
  above path hp := by
    rcases path with _ | ⟨first, _ | ⟨second, _ | ⟨third, rest⟩⟩⟩
    · exact Or.inr rfl
    · obtain rfl : first = "<base>" := (List.cons_prefix_cons.mp hp).1
      exact Or.inr rfl
    · have same : [first, second] = ["<base>", "exports"] := hp.eq_of_length rfl
      rw [same]
      exact Or.inl rfl
    · simpa [new] using hp.length_le
  live := rfl

end Workspace

end Handover
