import Mathlib.Logic.Function.Basic
import Handover.Proofs.Chores

namespace Handover

/-- What is kept for a tenant: nothing, an open workspace with the lines of the files that have been
begun, or an archive whose members have lines. -/
inductive Shelf where
  | nothing
  | workspace (lines : RecordType → Option (List String))
  | archive (members : List (String × List String))

/-- What is kept for each tenant. -/
abbrev Shelves := Uuid → Shelf

namespace Shelf

/-- The members of an archive of lines: one for each file that has been begun, sorted by their
names. -/
def membersOf (lines : RecordType → Option (List String)) : List (String × List String) :=
  (RecordType.all.filterMap fun type =>
    (lines type).map fun kept => (Workspace.fileName type, kept)).mergeSort fun a b => a.1 ≤ b.1

/-- Appends a line to the file of its type, if a workspace is open. A line without bytes is refused
once its file has been begun. -/
def saveLine (type : RecordType) (line : List CodePoint) :
    Shelf → Except Failure (Option Archive) × Shelf
  | workspace lines =>
    let before := (lines type).getD []
    match Text.encoded line with
    | .ok text => (.ok none, workspace (Function.update lines type (some (before ++ [text]))))
    | .error failure => (.error failure, workspace (Function.update lines type (some before)))
  | shelf => (.error (.file .noEntry), shelf)

/-- Makes an archive of the lines in an open workspace. A second archive has no members, as there
are no lines left to go into it. -/
def pack : Shelf → Except Failure (Option Archive) × Shelf
  | nothing => (.error (.file .noEntry), nothing)
  | workspace lines => (.ok none, archive (membersOf lines))
  | archive _ => (.ok none, archive [])

def contents? : Shelf → Option Archive
  | archive members => some (members.map fun member => (member.1, Holding.textOf member.2))
  | _ => none

/-- What a chore answers and what it makes of what is kept. `missing` is the failure of a fetch
without an archive. -/
def perform (missing : Failure) (shelf : Shelf) : Chore → Except Failure (Option Archive) × Shelf
  | .prepare => (.ok none, workspace fun _ => none)
  | .save type lineType record =>
    match Json.line lineType record with
    | .ok line => shelf.saveLine type (Text.codePoints line)
    | .error failure => (.error failure, shelf)
  | .saveLine type line _ => shelf.saveLine type line
  | .close => (.ok none, shelf)
  | .pack => shelf.pack
  | .fetch =>
    match shelf.contents? with
    | some content => (.ok (some content), shelf)
    | none => (.error missing, shelf)
  | .cleanUp => (.ok none, nothing)

/-- What a workspace holds for a tenant. -/
def held : Shelf → Holding
  | nothing => .nothing
  | workspace lines => .files (Option.map Holding.textOf ∘ lines)
  | archive members => .archive (members.map fun member => (member.1, Holding.textOf member.2))

/-- Whether no line that is kept holds a line break. -/
def Unbroken : Shelf → Prop
  | nothing => True
  | workspace lines => ∀ type kept, lines type = some kept → ∀ line ∈ kept, '\n' ∉ line.toList
  | archive members => ∀ member ∈ members, ∀ line ∈ member.2, '\n' ∉ line.toList

/-- Whether the file of a type has been begun in an open workspace. -/
def Started (type : RecordType) : Shelf → Prop
  | workspace lines => (lines type).isSome
  | _ => False

end Shelf

namespace Shelves

/-- The answer to a chore, and what is kept after it. -/
def perform (missing : Uuid → Failure) (tenant : Uuid) (chore : Chore) (shelves : Shelves) :
    Except Failure (Option Archive) × Shelves :=
  let (answer, shelf) := (shelves tenant).perform (missing tenant) chore
  (answer, Function.update shelves tenant shelf)

def performed (missing : Uuid → Failure) (shelves : Shelves) (chores : List (Uuid × Chore)) :
    Shelves :=
  chores.foldl (fun shelves next => (shelves.perform missing next.1 next.2).2) shelves

end Shelves

namespace Shelf

/-- The archive of the texts that are held has the members of the map, as texts. -/
theorem packed_held (lines : RecordType → Option (List String)) :
    Holding.packed (Option.map Holding.textOf ∘ lines) =
      (membersOf lines).map fun member => (member.1, Holding.textOf member.2) := by
  have textwise : ∀ members : List (String × List String),
      (members.mergeSort fun a b => a.1 ≤ b.1).map (fun m => (m.1, Holding.textOf m.2)) =
        (members.map fun m => (m.1, Holding.textOf m.2)).mergeSort fun a b => a.1 ≤ b.1 :=
    fun members => List.map_mergeSort fun _ _ _ _ => rfl
  rw [Holding.packed, membersOf, textwise, List.map_filterMap]
  congr 2
  funext type
  cases h : lines type <;> simp [h]

theorem mem_membersOf {lines : RecordType → Option (List String)}
    {member : String × List String} : member ∈ membersOf lines ↔
      ∃ type kept, lines type = some kept ∧ member = (Workspace.fileName type, kept) := by
  rw [membersOf, (List.mergeSort_perm _ _).mem_iff, List.mem_filterMap]
  refine exists_congr fun type => ?_
  rw [and_iff_right (Holding.mem_all type), Option.map_eq_some_iff]
  exact exists_congr fun kept => and_congr_right fun _ => eq_comm

/-- No two members of an archive have the same name, and they are in the order of their names. -/
theorem membersOf_sorted (lines : RecordType → Option (List String)) :
    (membersOf lines).Pairwise fun a b => a.1 < b.1 := by
  have ordered : (membersOf lines).Pairwise fun a b => a.1 ≤ b.1 :=
    Holding.pairwise_mergeSort_key Prod.fst _
  have distinct : (membersOf lines).Pairwise fun a b => a.1 ≠ b.1 := by
    refine (List.mergeSort_perm _ _).symm.pairwise (List.pairwise_filterMap.mpr ?_) fun h => h.symm
    refine Holding.all_nodup.imp fun apart a ha b hb same => apart (Holding.fileName_injective ?_)
    obtain ⟨_, _, rfl⟩ := Option.map_eq_some_iff.mp ha
    obtain ⟨_, _, rfl⟩ := Option.map_eq_some_iff.mp hb
    exact same
  exact ordered.imp₂ (fun _ _ hle hne =>
    String.not_le.mp fun hge => hne (String.le_antisymm hle hge)) distinct

end Shelf

namespace Workspace

/-- Whether a workspace is what shelves say: each tenant has what is kept for it and nothing else,
only files that have been begun are open, and the lines can be read back from their texts. -/
structure Represents (w : Workspace) (shelves : Shelves) : Prop where
  sound : w.Sound
  held : ∀ tenant, w.Holds tenant (shelves tenant).held
  started : ∀ tenant type, (tenant, type) ∈ w.opened → (shelves tenant).Started type
  unbroken : ∀ tenant, (shelves tenant).Unbroken

variable {w w' : Workspace} {shelves : Shelves} {tenant : Uuid}

namespace Represents

/-- A change for one tenant is one of its shelf. -/
theorem changed (h : w.Represents shelves) {shelf : Shelf}
    (change : Changed tenant w w' shelf.held)
    (started : ∀ type, (tenant, type) ∈ w'.opened → shelf.Started type)
    (unbroken : shelf.Unbroken) : w'.Represents (Function.update shelves tenant shelf) where
  sound := change.sound
  held other := by
    by_cases own : other = tenant
    · subst own
      rw [Function.update_self]
      exact change.holds
    · rw [Function.update_of_ne own]
      exact change.beside.holds own (h.held other)
  started other type isOpen := by
    by_cases own : other = tenant
    · subst own
      rw [Function.update_self]
      exact started type isOpen
    · rw [Function.update_of_ne own]
      exact h.started other type ((change.beside.opened other own type).mp isOpen)
  unbroken other := by
    by_cases own : other = tenant
    · subst own
      rw [Function.update_self]
      exact unbroken
    · rw [Function.update_of_ne own]
      exact h.unbroken other

/-- A tenant without an open workspace has no open files. -/
theorem shut (h : w.Represents shelves) (unopened : ∀ lines, shelves tenant ≠ .workspace lines) :
    w.Shut tenant := by
  intro type isOpen
  have started := h.started tenant type isOpen
  cases kept : shelves tenant with
  | workspace lines => exact unopened lines kept
  | nothing => rw [kept] at started; exact started
  | archive members => rw [kept] at started; exact started

end Represents

/-- Closing the files of a tenant without open files changes nothing at all. -/
theorem Shut.closed_eq (h : w.Shut tenant) (live : w.lost = []) : w.closed tenant = w := by
  have opened : w.opened.filter (fun key => key.1 ≠ tenant) = w.opened := by
    refine List.filter_eq_self.mpr fun key hkey => ?_
    have other : key.1 ≠ tenant := by
      rintro rfl
      exact h key.2 hkey
    simpa using other
  obtain ⟨base, archiveName, tree, opened', lost⟩ := w
  simp only at live opened
  subst live
  rw [Workspace.closed, opened]
  rfl

/-- A walk into the folder of a tenant fails where nothing is held, unless a file is in its way. -/
theorem Holds.walk_missing {held : Holding} (h : w.Sound) (hw : w.Holds tenant held)
    {rest : Path} (plain : ".." ∉ rest)
    (clear : ∀ above, above <+: rest → above ≠ rest →
      held.node? w.archiveName above = none ∨ held.node? w.archiveName above = some .folder)
    (gap : Path) (on : gap <+: rest) (before : gap ≠ rest)
    (missing : held.node? w.archiveName gap = none) :
    w.tree.walk [] (w.tenantPath tenant ++ rest) = .error .noEntry := by
  have plain' : ".." ∉ w.tenantPath tenant ++ rest := by
    intro hm
    rcases List.mem_append.mp hm with hm | hm
    · exact plain_tenantPath h.plain tenant hm
    · exact plain hm
  refine FileTree.walk_missing plain' (fun above hp hne => ?_)
    ((List.prefix_append_right_inj _).mpr on) (fun same => before (List.append_cancel_left same))
    ((hw.nodes gap).trans missing)
  by_cases own : w.tenantPath tenant <+: above
  · obtain ⟨inner, rfl⟩ := own
    rw [hw.nodes inner]
    exact clear inner ((List.prefix_append_right_inj _).mp hp) fun same => hne (by rw [same])
  · have shorter : above <+: w.tenantPath tenant :=
      (List.prefix_or_prefix_of_prefix hp (List.prefix_append _ rest)).resolve_right own
    refine h.above above ((List.prefix_concat_iff.mp shorter).resolve_left fun same => own ?_)
    exact same ▸ List.prefix_rfl

theorem outcome_saveLine_missing {held : Holding} (h : w.Sound) (named : NamesFile w.archiveName)
    (hw : w.Holds tenant held) (unopened : ∀ texts, held ≠ .files texts) (shut : w.Shut tenant)
    (type : RecordType) (line : List CodePoint) :
    (saveLine tenant type line).outcome w = (.error (.file .noEntry), w) := by
  have other : w.archiveName ≠ "data" := fun same => named.other (by simp [same])
  have root : held.node? w.archiveName [] = none ∨
      held.node? w.archiveName [] = some .folder := by
    cases held with
    | nothing => exact Or.inl rfl
    | files texts => exact absurd rfl (unopened texts)
    | archive members => exact Or.inr rfl
  have gap : held.node? w.archiveName ["data"] = none := by
    cases held with
    | nothing => rfl
    | files texts => exact absurd rfl (unopened texts)
    | archive members => exact if_neg (Ne.symm other)
  have walked : w.tree.walk [] (w.filePath tenant type) = .error .noEntry := by
    rw [filePath_eq]
    refine hw.walk_missing h ?_ (fun above hp hne => ?_) ["data"] (by simp) (by simp) gap
    · have := Holding.fileName_ne_up type
      simp [Ne.symm this]
    · match above, hp with
      | [], _ => exact root
      | [folder], hp =>
        obtain rfl : folder = "data" := (List.cons_prefix_cons.mp hp).1
        exact Or.inl gap
      | [folder, name], hp => exact absurd (hp.eq_of_length rfl) hne
      | _ :: _ :: _ :: _, hp => simpa using hp.length_le
  have unwritten : ∀ node, w.tree.write (w.filePath tenant type) node = .error .noEntry := by
    intro node
    rw [FileTree.write, walked]
    rfl
  have closed : ¬w.opened.contains (tenant, type) = true := by
    simpa using shut type
  have unopened : (openFile tenant type).outcome w = (.error (.file .noEntry), w) := by
    rw [openFile, Act.outcome_bind_ok (Act.outcome_get w)]
    dsimp only
    rw [if_neg closed, unwritten]
    rfl
  exact Act.outcome_bind_error unopened

theorem outcome_pack_missing (h : w.Sound) (named : NamesFile w.archiveName)
    (hw : w.Holds tenant .nothing) (shut : w.Shut tenant) :
    (pack tenant).outcome w = (.error (.file .noEntry), w) := by
  have walked : w.tree.walk [] (w.archivePath tenant) = .error .noEntry := by
    refine hw.walk_missing h ?_ (fun _ _ _ => Or.inl rfl) [] (by simp) (by simp) rfl
    intro hm
    exact named.other (by simp [← List.mem_singleton.mp hm])
  have unwritten : w.tree.write (w.archivePath tenant) (.archive []) = .error .noEntry := by
    rw [FileTree.write, walked]
    rfl
  rw [pack, Act.outcome_bind_ok (Act.outcome_modify _ _), shut.closed_eq h.live,
    Act.outcome_bind_ok (Act.outcome_get _)]
  dsimp only
  rw [archiveSteps_eq named, unwritten]
  rfl

/-- Under the name of the folder of the files, no archive is made. -/
theorem outcome_pack_folder {texts : RecordType → Option String} (h : w.Sound)
    (hw : w.Holds tenant (.files texts)) (same : w.archiveName = "data") :
    ((pack tenant).outcome w).1 = .error (.file .isDirectory) := by
  have steps : (w.closed tenant).archiveSteps tenant = w.archivePath tenant := by
    rw [archiveSteps, archivePath, show (w.closed tenant).archiveName = "data" from same, same]
    rfl
  have plain : ".." ∉ w.archivePath tenant := by
    rw [archivePath, same, List.mem_append, not_or]
    exact ⟨plain_tenantPath h.plain tenant, by decide⟩
  have folder : w.tree.node? (w.archivePath tenant) = some .folder := by
    rw [archivePath, same, hw.nodes]
    rfl
  have unwritten : w.tree.write (w.archivePath tenant) (.archive []) = .error .isDirectory :=
    (hw.leadsTo_archive (by simp)).write_folder plain _ folder
  rw [pack, Act.outcome_bind_ok (Act.outcome_modify _ _), Act.outcome_bind_ok (Act.outcome_get _)]
  dsimp only
  rw [steps, show (w.closed tenant).tree = w.tree from rfl, unwritten]
  rfl

/-- Once there is an archive, another one has no members. -/
theorem Holds.membersOf_nil {members : Archive} (hw : w.Holds tenant (.archive members)) :
    membersOf (w.tree.put (w.archivePath tenant) (.archive [])) (w.dataPath tenant)
      (w.archivePath tenant) = [] := by
  have absent : ∀ name, name ∉ (w.tree.put (w.archivePath tenant) (.archive [])).childNames
      (w.dataPath tenant) := by
    intro name
    have apart : w.dataPath tenant ++ [name] ≠ w.archivePath tenant := by
      intro he
      have := congrArg List.length he
      simp [dataPath, archivePath] at this
    have gone := hw.nodes ["data", name]
    rw [FileTree.mem_childNames, FileTree.node?_put_of_ne _ (w.archivePath_ne_nil tenant) _ apart,
      dataPath, List.append_assoc, List.singleton_append, gone]
    simp [Holding.node?]
  rw [membersOf, List.eq_nil_iff_forall_not_mem.mpr absent, List.filter_nil, List.mergeSort_nil,
    List.filterMap_nil]

/-- How a fetch fails without an archive. -/
def missing (w : Workspace) (tenant : Uuid) : Failure :=
  .archiveNotFound (.uuid tenant) (.str (w.archiveText tenant))

/-- A chore is done or refused as the map says. What is refused changes nothing, unless it is a
line without bytes. -/
structure Follows (w : Workspace) (shelves : Shelves) (tenant : Uuid) (chore : Chore)
    (w' : Workspace) : Prop where
  run : (perform tenant chore).outcome w =
    (((shelves tenant).perform (w.missing tenant) chore).1, w')
  beside : AgreeBeside tenant w w'
  represents : w'.Represents (Function.update shelves tenant
    ((shelves tenant).perform (w.missing tenant) chore).2)
  kept : ∀ failure, ((shelves tenant).perform (w.missing tenant) chore).1 = .error failure →
    (∀ start surrogates, failure ≠ .notEncodable start surrogates) → w' = w

namespace Represents

/-- A chore that changes nothing follows the map if its answer does. -/
theorem unchanged (h : w.Represents shelves) {chore : Chore}
    (answer : Except Failure (Option Archive))
    (said : (shelves tenant).perform (w.missing tenant) chore = (answer, shelves tenant))
    (run : (perform tenant chore).outcome w = (answer, w)) :
    w.Follows shelves tenant chore w where
  run := by rw [run, said]
  beside := .refl w tenant
  represents := by rwa [said, Function.update_eq_self]
  kept _ _ _ := rfl

/-- A chore that is done follows the map if it leaves the next shelf. -/
theorem done (h : w.Represents shelves) {chore : Chore} {answer : Option Archive} (shelf : Shelf)
    (said : (shelves tenant).perform (w.missing tenant) chore = (.ok answer, shelf))
    (run : (perform tenant chore).outcome w = (.ok answer, w'))
    (change : Changed tenant w w' shelf.held)
    (started : ∀ type, (tenant, type) ∈ w'.opened → shelf.Started type)
    (unbroken : shelf.Unbroken) : w.Follows shelves tenant chore w' where
  run := by rw [run, said]
  beside := change.beside
  represents := by
    rw [said]
    exact h.changed change started unbroken
  kept := by
    rw [said]
    nofun

theorem prepare_follows (h : w.Represents shelves) (tenant : Uuid) :
    w.Follows shelves tenant .prepare (w.prepared tenant) := by
  have change := prepared_changed h.sound tenant
  refine h.done _ rfl ?_ change (fun type isOpen => ?_) nofun
  · rw [perform, Act.outcome_map, outcome_prepare]
    rfl
  · exact absurd isOpen (w.closed_shut tenant type)

/-- A line is refused where no workspace is open. -/
theorem saveLine_refused (h : w.Represents shelves) (named : NamesFile w.archiveName)
    (unopened : ∀ lines, shelves tenant ≠ .workspace lines) (type : RecordType)
    {line : List CodePoint} (whole : CodePoint.char '\n' ∉ line) :
    w.Follows shelves tenant (.saveLine type line whole) w := by
  have unheld : ∀ texts, (shelves tenant).held ≠ .files texts := by
    intro texts
    cases kept : shelves tenant with
    | workspace lines => exact absurd kept (unopened lines)
    | nothing => simp [Shelf.held]
    | archive members => simp [Shelf.held]
  refine h.unchanged (.error (.file .noEntry)) ?_ ?_
  · cases kept : shelves tenant with
    | workspace lines => exact absurd kept (unopened lines)
    | nothing => rfl
    | archive members => rfl
  · rw [perform, Act.outcome_map, outcome_saveLine_missing h.sound named (h.held tenant) unheld
      (h.shut unopened)]
    rfl

/-- The text of an open file is that of the lines that are kept. -/
theorem textAt_eq (h : w.Represents shelves) {lines : RecordType → Option (List String)}
    (kept : shelves tenant = .workspace lines) (type : RecordType) :
    textAt w.tree (w.filePath tenant type) = Holding.textOf ((lines type).getD []) := by
  have held := h.held tenant
  rw [kept] at held
  rw [held.textAt_file, Function.comp_apply]
  cases lines type <;> rfl

theorem withText (h : w.Represents shelves) {lines : RecordType → Option (List String)}
    (kept : shelves tenant = .workspace lines) (type : RecordType) {next : List String}
    (unbroken : ∀ line ∈ next, '\n' ∉ line.toList) :
    (w.withText tenant type (Holding.textOf next)).Represents (Function.update shelves tenant
      (.workspace (Function.update lines type (some next)))) ∧
      AgreeBeside tenant w (w.withText tenant type (Holding.textOf next)) := by
  have held := h.held tenant
  have before := h.unbroken tenant
  rw [kept] at held before
  have change := withText_changed h.sound held type (Holding.textOf next)
  have changed : Changed tenant w (w.withText tenant type (Holding.textOf next))
      (Shelf.workspace (Function.update lines type (some next))).held := by
    rw [Shelf.held, Function.comp_update]
    exact change
  refine ⟨h.changed changed (fun other isOpen => ?_) fun other l hl => ?_, change.beside⟩
  · show (Function.update lines type (some next) other).isSome
    by_cases own : other = type
    · rw [own, Function.update_self]
      rfl
    · have started := h.started tenant other (((mem_opened_withText _).mp isOpen).resolve_right own)
      rw [kept] at started
      rwa [Function.update_of_ne own]
  · by_cases own : other = type
    · subst own
      rw [Function.update_self] at hl
      exact Option.some.inj hl ▸ unbroken
    · rw [Function.update_of_ne own] at hl
      exact before other l hl

theorem unbroken_lines (h : w.Represents shelves) {lines : RecordType → Option (List String)}
    (kept : shelves tenant = .workspace lines) (type : RecordType) :
    ∀ line ∈ (lines type).getD [], '\n' ∉ line.toList := by
  have unbroken := h.unbroken tenant
  rw [kept] at unbroken
  cases begun : lines type with
  | none => nofun
  | some before => exact unbroken type before begun

theorem saveLine_appends (h : w.Represents shelves) {lines : RecordType → Option (List String)}
    (kept : shelves tenant = .workspace lines) (type : RecordType) {line : List CodePoint}
    (whole : CodePoint.char '\n' ∉ line) {text : String} (bytes : Text.encoded line = .ok text) :
    w.Follows shelves tenant (.saveLine type line whole) (w.withLine tenant type text) := by
  have held := h.held tenant
  rw [kept] at held
  have said : (shelves tenant).perform (w.missing tenant) (.saveLine type line whole) =
      (.ok none, .workspace (Function.update lines type
        (some ((lines type).getD [] ++ [text])))) := by
    rw [kept, Shelf.perform, Shelf.saveLine, bytes]
  have next : w.withLine tenant type text =
      w.withText tenant type (Holding.textOf ((lines type).getD [] ++ [text])) := by
    rw [withLine, h.textAt_eq kept, Holding.textOf_concat]
  have unbroken : ∀ l ∈ (lines type).getD [] ++ [text], '\n' ∉ l.toList := by
    intro l hl
    rcases List.mem_append.mp hl with hl | hl
    · exact h.unbroken_lines kept type l hl
    · rw [List.mem_singleton.mp hl]
      intro broken
      exact whole (Text.encoded_eq_ok bytes ▸ List.mem_map_of_mem broken)
  obtain ⟨represents, beside⟩ := h.withText kept type unbroken
  refine ⟨?_, next ▸ beside, by rwa [said, next], fun failure failed => ?_⟩
  · rw [said, perform, Act.outcome_map, outcome_saveLine h.sound held type bytes]
    rfl
  · rw [said] at failed
    cases failed

/-- A line without bytes leaves its file begun, if it is not refused for want of a workspace. -/
theorem saveLine_begins (h : w.Represents shelves) {lines : RecordType → Option (List String)}
    (kept : shelves tenant = .workspace lines) (type : RecordType) {line : List CodePoint}
    (whole : CodePoint.char '\n' ∉ line) {failure : Failure}
    (refused : Text.encoded line = .error failure) :
    w.Follows shelves tenant (.saveLine type line whole) (w.withFile tenant type) := by
  have held := h.held tenant
  rw [kept] at held
  have said : (shelves tenant).perform (w.missing tenant) (.saveLine type line whole) =
      (.error failure, .workspace (Function.update lines type
        (some ((lines type).getD [])))) := by
    rw [kept, Shelf.perform, Shelf.saveLine, refused]
  have begun : (w.withFile tenant type).Represents (Function.update shelves tenant
      (.workspace (Function.update lines type (some ((lines type).getD []))))) ∧
      AgreeBeside tenant w (w.withFile tenant type) := by
    rw [withFile]
    split
    next isOpen =>
      have started := h.started tenant type (by simpa using isOpen)
      rw [kept] at started
      obtain ⟨before, hbefore⟩ := Option.isSome_iff_exists.mp started
      have same : Function.update lines type (some ((lines type).getD [])) = lines := by
        rw [hbefore, Option.getD_some, ← hbefore, Function.update_eq_self]
      rw [same, ← kept, Function.update_eq_self]
      exact ⟨h, .refl w tenant⟩
    next =>
      rw [h.textAt_eq kept]
      exact h.withText kept type (h.unbroken_lines kept type)
  refine ⟨?_, begun.2, by rw [said]; exact begun.1, fun other hother encodable => ?_⟩
  · rw [said, perform, Act.outcome_map, outcome_saveLine_unencoded h.sound held type refused]
    rfl
  · obtain ⟨start, surrogates, hfailure⟩ := Text.encoded_eq_error refused
    rw [said] at hother
    exact absurd (Except.error.inj hother ▸ hfailure) (encodable start surrogates)

theorem saveLine_follows (h : w.Represents shelves) (named : NamesFile w.archiveName)
    (tenant : Uuid) (type : RecordType) {line : List CodePoint}
    (whole : CodePoint.char '\n' ∉ line) :
    ∃ w', w.Follows shelves tenant (.saveLine type line whole) w' := by
  cases kept : shelves tenant with
  | nothing => exact ⟨w, h.saveLine_refused named (by simp [kept]) type whole⟩
  | archive members => exact ⟨w, h.saveLine_refused named (by simp [kept]) type whole⟩
  | workspace lines =>
    cases bytes : Text.encoded line with
    | ok text => exact ⟨_, h.saveLine_appends kept type whole bytes⟩
    | error failure => exact ⟨_, h.saveLine_begins kept type whole bytes⟩

/-- A record that can be written is saved as its line. -/
theorem save_follows (h : w.Represents shelves) (named : NamesFile w.archiveName) (tenant : Uuid)
    (type lineType : RecordType) (record : Value) :
    ∃ w', w.Follows shelves tenant (.save type lineType record) w' := by
  cases written : Json.line lineType record with
  | error failure =>
    refine ⟨w, h.unchanged (.error failure) ?_ ?_⟩
    · rw [Shelf.perform, written]
    · rw [perform, Act.outcome_map, outcome_save_unwritten written]
      rfl
  | ok line =>
    have whole : CodePoint.char '\n' ∉ Text.codePoints line := by
      intro broken
      obtain ⟨c, hc, same⟩ := List.mem_map.mp broken
      exact Json.break_notMem_line written (CodePoint.char.inj same ▸ hc)
    have said : (shelves tenant).perform (w.missing tenant) (.save type lineType record) =
        (shelves tenant).perform (w.missing tenant) (.saveLine type (Text.codePoints line) whole) := by
      rw [Shelf.perform, written, Shelf.perform]
    have run : (perform tenant (.save type lineType record)).outcome w =
        (perform tenant (.saveLine type (Text.codePoints line) whole)).outcome w := by
      rw [perform, perform, Act.outcome_map, Act.outcome_map, save, written,
        Act.outcome_bind_ok (Act.outcome_settle _ _)]
    obtain ⟨w', follows⟩ := h.saveLine_follows named tenant type whole
    exact ⟨w', by rw [run, said, follows.run], follows.beside, by rw [said]; exact follows.represents,
      by rw [said]; exact follows.kept⟩

theorem close_follows (h : w.Represents shelves) (tenant : Uuid) :
    w.Follows shelves tenant .close (w.closed tenant) := by
  have change := closed_changed h.sound (h.held tenant)
  refine h.done _ rfl ?_ change (fun type isOpen => ?_) (h.unbroken tenant)
  · rw [perform, Act.outcome_map, outcome_close]
    rfl
  · exact absurd isOpen (w.closed_shut tenant type)

/-- An archive with members of the map is what a pack leaves. -/
theorem pack_archives (h : w.Represents shelves) (named : NamesFile w.archiveName)
    (opened : (shelves tenant).held ≠ .nothing) {members : List (String × List String)}
    (said : (shelves tenant).pack = (.ok none, .archive members))
    (unbroken : (Shelf.archive members).Unbroken)
    (content : membersOf (w.tree.put (w.archivePath tenant) (.archive [])) (w.dataPath tenant)
      (w.archivePath tenant) = members.map fun member => (member.1, Holding.textOf member.2)) :
    ∃ w', w.Follows shelves tenant .pack w' := by
  have held := h.held tenant
  have change := held.withArchive_changed h.sound named opened
    (members.map fun member => (member.1, Holding.textOf member.2))
  refine ⟨_, h.done (.archive members) said ?_ change (fun type isOpen => ?_) unbroken⟩
  · rw [perform, Act.outcome_map, held.outcome_pack h.sound named opened content]
    rfl
  · exact absurd isOpen (w.closed_shut tenant type)

theorem pack_follows (h : w.Represents shelves) (named : NamesFile w.archiveName)
    (tenant : Uuid) : ∃ w', w.Follows shelves tenant .pack w' := by
  have held := h.held tenant
  have unbroken := h.unbroken tenant
  cases kept : shelves tenant with
  | nothing =>
    rw [kept] at held
    refine ⟨w, h.unchanged (.error (.file .noEntry)) ?_ ?_⟩
    · rw [kept]
      rfl
    · rw [perform, Act.outcome_map,
        outcome_pack_missing h.sound named held (h.shut (by simp [kept]))]
      rfl
  | workspace lines =>
    rw [kept] at held unbroken
    refine h.pack_archives named (by simp [kept, Shelf.held]) (by rw [kept]; rfl)
      (fun member hm line hl => ?_) ((held.membersOf_eq h.sound).trans (Shelf.packed_held lines))
    obtain ⟨type, written, begun, rfl⟩ := Shelf.mem_membersOf.mp hm
    exact unbroken type written begun line hl
  | archive members =>
    rw [kept] at held
    have said : (shelves tenant).pack = (.ok none, .archive []) := by
      rw [kept]
      rfl
    exact h.pack_archives named (by simp [kept, Shelf.held]) said
      (fun _ hm => absurd hm List.not_mem_nil) held.membersOf_nil

theorem fetch_follows (h : w.Represents shelves) (named : NamesFile w.archiveName)
    (tenant : Uuid) : w.Follows shelves tenant .fetch w := by
  have held := h.held tenant
  have refuse (said : (shelves tenant).contents? = none)
      (unheld : ∀ members, (shelves tenant).held ≠ .archive members) :
      w.Follows shelves tenant .fetch w := by
    refine h.unchanged (.error (w.missing tenant)) ?_ ?_
    · rw [Shelf.perform, said]
    · rw [perform, Act.outcome_map, outcome_fetch_absent h.sound named held unheld]
      rfl
  cases kept : shelves tenant with
  | nothing => exact refuse (by rw [kept]; rfl) (by simp [kept, Shelf.held])
  | workspace lines => exact refuse (by rw [kept]; rfl) (by simp [kept, Shelf.held])
  | archive members =>
    rw [kept] at held
    refine h.unchanged _ (by rw [kept]; rfl) ?_
    rw [perform, Act.outcome_map, outcome_fetch h.sound named held]
    rfl

theorem cleanUp_follows (h : w.Represents shelves) (tenant : Uuid) :
    w.Follows shelves tenant .cleanUp (w.without tenant) := by
  have change := without_changed h.sound tenant
  refine h.done .nothing rfl ?_ change (fun type isOpen => ?_) trivial
  · rw [perform, Act.outcome_map, outcome_cleanUp]
    rfl
  · exact absurd isOpen (w.closed_shut tenant type)

theorem follows (h : w.Represents shelves) (named : NamesFile w.archiveName) (tenant : Uuid)
    (chore : Chore) : ∃ w', w.Follows shelves tenant chore w' := by
  cases chore with
  | prepare => exact ⟨_, h.prepare_follows tenant⟩
  | save type lineType record => exact h.save_follows named tenant type lineType record
  | saveLine type line whole => exact h.saveLine_follows named tenant type whole
  | close => exact ⟨_, h.close_follows tenant⟩
  | pack => exact h.pack_follows named tenant
  | fetch => exact ⟨_, h.fetch_follows named tenant⟩
  | cleanUp => exact ⟨_, h.cleanUp_follows tenant⟩

theorem performed (h : w.Represents shelves) (named : NamesFile w.archiveName)
    (chores : List (Uuid × Chore)) :
    (w.performed chores).Represents (shelves.performed w.missing chores) ∧
      (w.performed chores).archiveName = w.archiveName ∧
      (w.performed chores).missing = w.missing := by
  induction chores generalizing w shelves with
  | nil => exact ⟨h, rfl, rfl⟩
  | cons next rest ih =>
    obtain ⟨w', follows⟩ := h.follows named next.1 next.2
    have place : w'.missing = w.missing := by
      funext tenant
      simp only [missing, archiveText, archiveSteps, follows.beside.tenantPath_eq,
        follows.beside.archiveName]
    have after : w.performed (next :: rest) = w'.performed rest := by
      rw [Workspace.performed, List.foldl_cons, follows.run]
      rfl
    obtain ⟨rest', name, missing⟩ :=
      ih follows.represents (follows.beside.archiveName.symm ▸ named)
    rw [place] at rest' missing
    rw [after]
    exact ⟨rest', name.trans follows.beside.archiveName, missing⟩

/-- The lines of an open workspace are read back from the text of their file, where nothing but a
last, empty part stands after them. -/
theorem parts_eq (h : w.Represents shelves) {lines : RecordType → Option (List String)}
    (kept : shelves tenant = .workspace lines) {type : RecordType} {written : List String}
    (begun : lines type = some written) :
    Text.parts '\n' (textAt w.tree (w.filePath tenant type)) = written ++ [""] := by
  have unbroken := h.unbroken_lines kept type
  rw [begun] at unbroken
  rw [h.textAt_eq kept, begun]
  exact Holding.parts_textOf unbroken

end Represents

/-- Nothing is kept for anyone below a new folder. -/
theorem new_represents (archiveName : String) :
    (new archiveName).Represents fun _ => .nothing where
  sound := new_sound archiveName
  held tenant := by
    refine ⟨fun rest => ?_, fun hheld => absurd rfl hheld⟩
    rw [FileTree.node?_of_ne_nil _ (by simp [tenantPath])]
    simp [new, FileTree.withFolder, tenantPath, List.lookup_cons, Shelf.held, Holding.node?]
  started _ _ isOpen := nomatch isOpen
  unbroken _ := trivial

/-- After any chores, the next one is answered as the map says. -/
theorem performed_answer {archiveName : String} (named : NamesFile archiveName)
    (chores : List (Uuid × Chore)) (tenant : Uuid) (chore : Chore) :
    let w := (new archiveName).performed chores
    let missing := (new archiveName).missing
    let shelves := Shelves.performed missing (fun _ => .nothing) chores
    ∃ w', (perform tenant chore).outcome w = ((shelves.perform missing tenant chore).1, w') ∧
      w'.Represents (shelves.perform missing tenant chore).2 ∧ AgreeBeside tenant w w' ∧
      ∀ failure, (shelves.perform missing tenant chore).1 = .error failure →
        (∀ start surrogates, failure ≠ .notEncodable start surrogates) → w' = w := by
  intro w missing shelves
  obtain ⟨represents, name, place⟩ := (new_represents archiveName).performed named chores
  obtain ⟨w', follows⟩ := represents.follows (name.symm ▸ named) tenant chore
  have run := follows.run
  have represented := follows.represents
  have kept := follows.kept
  rw [place] at run represented kept
  exact ⟨w', run, represented, follows.beside, kept⟩

/-- Whatever has been done with it, a workspace represents what the same chores make of a map, in
which nothing is kept at first. The files that have been begun are the members of the archive to
come, sorted by their names, and their lines can be read back. The answer to any next chore is that
of the map, and afterwards the workspace represents the map again; a chore that is refused leaves
everything in it as it is, unless it is a line without bytes. -/
theorem performed_represents {archiveName : String} (named : NamesFile archiveName)
    (chores : List (Uuid × Chore)) :
    let w := (new archiveName).performed chores
    let missing := (new archiveName).missing
    let shelves := Shelves.performed missing (fun _ => .nothing) chores
    w.Represents shelves ∧
      (∀ tenant lines, shelves tenant = .workspace lines →
        (Shelf.membersOf lines).Pairwise (fun a b => a.1 < b.1) ∧
        ∀ type written, lines type = some written →
          (fileName type, written) ∈ Shelf.membersOf lines ∧
          Text.parts '\n' (textAt w.tree (w.filePath tenant type)) = written ++ [""]) ∧
      ∀ tenant chore,
        let done := (perform tenant chore).outcome w
        let next := shelves.perform missing tenant chore
        done.1 = next.1 ∧ done.2.Represents next.2 ∧ AgreeBeside tenant w done.2 ∧
          ∀ failure, done.1 = .error failure →
            (∀ start surrogates, failure ≠ .notEncodable start surrogates) → done.2 = w := by
  intro w missing shelves
  have represents := ((new_represents archiveName).performed named chores).1
  refine ⟨represents, fun tenant lines kept => ⟨Shelf.membersOf_sorted lines,
    fun type written begun => ⟨?_, represents.parts_eq kept begun⟩⟩, fun tenant chore => ?_⟩
  · exact Shelf.mem_membersOf.mpr ⟨type, written, begun, rfl⟩
  · obtain ⟨w', run, represented, beside, kept⟩ := performed_answer named chores tenant chore
    intro done next
    rw [show done = _ from run]
    exact ⟨rfl, represented, beside, kept⟩

/-- Lines that are saved before and after a close, while another tenant's workspace is opened, come
one after the other in the archive. -/
theorem performed_represents_fetched :
    NamesFile "data.tar" ∧ ∃ line, Json.line .device .null = .ok line ∧
      ((perform ⟨7⟩ .fetch).outcome ((new "data.tar").performed
        [(⟨7⟩, .prepare), (⟨7⟩, .save .device .device .null), (⟨8⟩, .prepare), (⟨7⟩, .close),
          (⟨7⟩, .save .device .device .null), (⟨7⟩, .pack), (⟨8⟩, .cleanUp)])).1 =
        .ok (some [("device.jsonl", line ++ "\n" ++ line ++ "\n")]) := by
  have named : NamesFile "data.tar" := by decide +kernel
  obtain ⟨line, written⟩ : ∃ line, Json.line .device .null = .ok line := by
    simp only [Json.line, Value.plain, pure_bind]
    exact ⟨_, rfl⟩
  refine ⟨named, line, written, ?_⟩
  have said := ((performed_represents named
    [(⟨7⟩, .prepare), (⟨7⟩, .save .device .device .null), (⟨8⟩, .prepare), (⟨7⟩, .close),
      (⟨7⟩, .save .device .device .null), (⟨7⟩, .pack), (⟨8⟩, .cleanUp)]).2.2 ⟨7⟩ .fetch).1
  refine said.trans ?_
  have members : Shelf.membersOf (Function.update (fun _ => none) .device (some [line, line])) =
      [("device.jsonl", [line, line])] := by
    rw [Shelf.membersOf]
    exact List.mergeSort_singleton _
  simp [Shelves.performed, Shelves.perform, Shelf.perform, written, Shelf.saveLine, Shelf.pack,
    Shelf.contents?, members, Holding.textOf, String.append_assoc]

/-- A line with a surrogate is refused, but its file has been begun and becomes a member without
lines. Under the name of the folder of the files no archive is made. -/
theorem performed_changed_refused :
    let before := [((⟨7⟩ : Uuid), Chore.prepare)]
    let line := Text.codePoints "\x7b\"data\": \"" ++ .surrogate 0 ::
      Text.codePoints "\", \"type\": \"device\"\x7d"
    ∃ whole : CodePoint.char '\n' ∉ line,
      ((perform ⟨7⟩ (.saveLine .device line whole)).outcome
        ((new "data.tar").performed before)).1 = .error (.notEncodable 10 [0xD800]) ∧
      ((perform ⟨7⟩ .fetch).outcome ((new "data.tar").performed
        (before ++ [(⟨7⟩, .saveLine .device line whole), (⟨7⟩, .pack)]))).1 =
          .ok (some [("device.jsonl", "")]) ∧
      ((perform ⟨7⟩ .fetch).outcome ((new "data.tar").performed
        (before ++ [(⟨7⟩, .pack)]))).1 = .ok (some []) ∧
      ((perform ⟨7⟩ .pack).outcome ((new "data").performed before)).1 =
        .error (.file .isDirectory) := by
  intro before line
  have named : NamesFile "data.tar" := by decide +kernel
  have refused : Text.encoded line = .error (.notEncodable 10 [0xD800]) := rfl
  have begun : Shelf.membersOf (Function.update (fun _ => none) .device (some [])) =
      [("device.jsonl", [])] :=
    List.mergeSort_singleton _
  have unbegun : Shelf.membersOf (fun _ => none) = [] := List.mergeSort_nil
  refine ⟨by decide, rfl, ?_, ?_, ?_⟩
  · obtain ⟨w, answer, _⟩ := performed_answer named
      (before ++ [(⟨7⟩, .saveLine .device line (by decide)), (⟨7⟩, .pack)]) ⟨7⟩ .fetch
    rw [answer]
    simp [before, Shelves.performed, Shelves.perform, Shelf.perform, refused, Shelf.saveLine,
      Shelf.pack, Shelf.contents?, begun, Holding.textOf]
  · obtain ⟨w, answer, _⟩ := performed_answer named (before ++ [(⟨7⟩, .pack)]) ⟨7⟩ .fetch
    rw [answer]
    simp [before, Shelves.performed, Shelves.perform, Shelf.perform, Shelf.pack, Shelf.contents?,
      unbegun]
  · have opened := prepared_changed (new_sound "data") ⟨7⟩
    have taken := outcome_pack_folder opened.sound opened.holds rfl
    have after : (new "data").performed before = (new "data").prepared ⟨7⟩ := rfl
    rw [perform, Act.outcome_map, after]
    dsimp only
    rw [taken]
    rfl

end Workspace

end Handover
