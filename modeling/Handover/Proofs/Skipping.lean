import Mathlib.Data.List.Basic
import Handover.Proofs.Alike
import Handover.Proofs.Confined
import Handover.Proofs.ExportContent
import Handover.Proofs.Interruption

namespace Handover

/-- A record of an export, under its type, with the category of the entity on whose behalf it is
exported if it is related to one. -/
structure Exported where
  owner : Option RecordType
  row : RecordType × Value

namespace Exported

/-- Whether a record stays in an export when types are left out of it. -/
def stays (skipped : List RecordType) (x : Exported) : Bool :=
  !skipped.contains x.row.1 && x.owner.all fun category => !skipped.contains category

/-- What is left of an export when types are left out of it. -/
def without (skipped : List RecordType) (xs : List Exported) : List (RecordType × Value) :=
  (xs.filter (·.stays skipped)).map (·.row)

variable {skipped : List RecordType} {xs ys : List Exported}

theorem without_append : without skipped (xs ++ ys) = without skipped xs ++ without skipped ys := by
  rw [without, List.filter_append, List.map_append]
  rfl

theorem without_flatMap {β : Type} (items : List β) (f : β → List Exported) :
    without skipped (items.flatMap f) = items.flatMap fun item => without skipped (f item) := by
  rw [without, List.filter_flatMap, List.map_flatMap]
  rfl

theorem without_nothing : without [] xs = xs.map (·.row) := by
  have stay : xs.filter (·.stays []) = xs :=
    List.filter_eq_self.mpr fun x _ => by cases h : x.owner <;> simp [stays, h]
  rw [without, stay]

/-- Records that belong to no entity go by their own type. -/
theorem without_unowned (type : RecordType) (rows : List Value) :
    without skipped (rows.map fun row => ⟨none, type, row⟩) = Store.block skipped type rows := by
  have stay : ∀ row, (⟨none, type, row⟩ : Exported).stays skipped = !skipped.contains type :=
    fun row => by rw [stays, Option.all_none, Bool.and_true]
  rw [without, List.filter_map, List.map_map, Store.block]
  by_cases h : type ∈ skipped <;> simp [Function.comp_def, stay, h, List.filter_true]

/-- Records on behalf of an entity go by its category, too. -/
theorem without_owned (category : RecordType) (rows : List (RecordType × Value)) :
    without skipped (rows.map fun row => ⟨some category, row⟩) =
      if skipped.contains category then []
      else rows.filter fun row => !skipped.contains row.1 := by
  have stay : ∀ row, (⟨some category, row⟩ : Exported).stays skipped =
      (!skipped.contains row.1 && !skipped.contains category) := fun _ => rfl
  rw [without, List.filter_map, List.map_map]
  by_cases h : category ∈ skipped <;> simp [Function.comp_def, stay, h]

end Exported

namespace Store

variable (s : Store)

/-- What is exported with an entity of a category when nothing is left out. -/
def exportedWith (owner : Uuid) (now : Int) (category : RecordType) (record : Value) :
    List Exported :=
  ⟨none, category, record⟩ ::
    match record.entityId? with
    | some entity => (s.relatedContent owner now [] entity).map fun row => ⟨some category, row⟩
    | none => []

/-- What is exported of a tenant when nothing is left out. -/
def exported (tenant : Tenant) (now : Int) : List Exported :=
  ⟨none, .tenant, tenant.record⟩ ::
    (RecordType.categories []).flatMap (fun category =>
      (s.entities tenant.id category).flatMap (s.exportedWith tenant.id now category))
    ++ (s.history auditLogTable now (s.auditRows tenant.id)).map fun row => ⟨none, .auditLog, row⟩

variable {s}

theorem block_filter (skipped : List RecordType) (type : RecordType) (rows : List Value) :
    block skipped type rows = (block [] type rows).filter fun row => !skipped.contains row.1 := by
  by_cases h : type ∈ skipped <;>
    simp [block, List.filter_map, Function.comp_def, h, List.filter_true]

theorem relatedContent_filter (owner : Uuid) (now : Int) (skipped : List RecordType)
    (entity : EntityId) :
    s.relatedContent owner now skipped entity =
      (s.relatedContent owner now [] entity).filter fun row => !skipped.contains row.1 := by
  simp only [relatedContent, List.filter_append, ← block_filter]

theorem without_exportedWith (owner : Uuid) (now : Int) (skipped : List RecordType)
    (category : RecordType) (record : Value) :
    Exported.without skipped (s.exportedWith owner now category record) =
      if skipped.contains category then []
      else s.entityContent owner now skipped category record := by
  have split : s.exportedWith owner now category record =
      [record].map (fun row => ⟨none, category, row⟩) ++
        (match record.entityId? with
          | some entity => s.relatedContent owner now [] entity
          | none => []).map fun row => ⟨some category, row⟩ := by
    rw [exportedWith]
    cases record.entityId? <;> rfl
  rw [split, Exported.without_append, Exported.without_unowned, Exported.without_owned, block,
    entityContent]
  by_cases h : skipped.contains category
  · rw [if_pos h, if_pos h, if_pos h, List.append_nil]
  · rw [if_neg h, if_neg h, if_neg h]
    cases record.entityId? with
    | none => rfl
    | some entity =>
      show (category, record) :: (s.relatedContent owner now [] entity).filter _ =
        (category, record) :: s.relatedContent owner now skipped entity
      rw [relatedContent_filter owner now skipped entity]

/-- The content of a tenant without some types is all that is exported of it but for the records of
these types and the records of entities of these categories. -/
theorem content_eq_without (tenant : Tenant) (now : Int) (skipped : List RecordType) :
    s.content tenant now skipped = Exported.without skipped (s.exported tenant now) := by
  have categories : (RecordType.all.filter fun type =>
        !skipped.contains type && !RecordType.nonEntities.contains type) =
      (RecordType.categories []).filter fun type => !skipped.contains type := by
    rw [RecordType.categories, List.filter_filter]
    refine List.filter_congr fun type _ => ?_
    rw [List.contains_nil, Bool.or_false]
  have start : s.exported tenant now =
      [tenant.record].map (fun row => ⟨none, .tenant, row⟩)
        ++ (RecordType.categories []).flatMap (fun category =>
          (s.entities tenant.id category).flatMap (s.exportedWith tenant.id now category))
        ++ (s.history auditLogTable now (s.auditRows tenant.id)).map fun row =>
          ⟨none, .auditLog, row⟩ := rfl
  have left : ∀ category, Exported.without skipped
        ((s.entities tenant.id category).flatMap (s.exportedWith tenant.id now category)) =
      if skipped.contains category then []
      else (s.entities tenant.id category).flatMap
        (s.entityContent tenant.id now skipped category) := by
    intro category
    simp only [Exported.without_flatMap, without_exportedWith]
    split
    · simp
    · rfl
  rw [content, categories, start, Exported.without_append, Exported.without_append,
    Exported.without_unowned, Exported.without_unowned, Exported.without_flatMap]
  congr 2
  induction RecordType.categories [] with
  | nil => rfl
  | cons category rest ih =>
    rw [List.filter_cons, List.flatMap_cons, left, ← ih]
    cases skipped.contains category <;> rfl

end Store

/-- Whether a question is one that a job asks when types are left out: it is about entities that a
catalogue has for a category that is not, or about related records, events or logs of a type that is
not. -/
def Query.Wanted (catalogue : Catalogue) (skipped : List RecordType) : Query → Prop
  | tenant _ => False
  | entities category _ _ =>
    ∃ type ∈ RecordType.categories skipped, catalogue.serving type = .ok category
  | relations .. => .relation ∉ skipped
  | events .. => .event ∉ skipped
  | attributes .. => .attributeKv ∉ skipped
  | latest .. => .latestTsKv ∉ skipped
  | auditLogs .. => .auditLog ∉ skipped
  | partitions table =>
    ((∃ kind : EventType, kind.table = table) ∧ .event ∉ skipped) ∨
      (table = auditLogTable ∧ .auditLog ∉ skipped)

/-- Whether a call is one that a job makes when types are left out. -/
def Call.Wanted (catalogue : Catalogue) (skipped : List RecordType) : Call → Prop
  | serve type => type ∈ RecordType.categories skipped
  | ask q => q.Wanted catalogue skipped
  | await .. => .latestTsKv ∉ skipped
  | now => .event ∉ skipped ∨ .auditLog ∉ skipped
  | keep type _ => type ∉ skipped

/-- Whether a call can be answered so with a catalogue. -/
def Catalogue.Answers (catalogue : Catalogue) : (c : Call) → c.Reply → Prop
  | .serve type, category => catalogue.serving type = .ok category
  | _, _ => True

/-- Taking types out of a catalogue makes no difference to the others. -/
theorem Catalogue.serving_without (catalogue : Catalogue) {type : RecordType}
    {types : List RecordType} (h : type ∉ types) :
    (catalogue.without types).serving type = catalogue.serving type := by
  have found : (catalogue.entries.filter fun entry => !types.contains entry.1).lookup type =
      catalogue.entries.lookup type := by
    induction catalogue.entries with
    | nil => rfl
    | cons entry rest ih =>
      rw [List.filter_cons, List.lookup_cons]
      by_cases own : type = entry.1
      · have kept : (!types.contains entry.1) = true := by simpa [← own] using h
        rw [if_pos kept, List.lookup_cons]
        simp [own]
      · rw [beq_false_of_ne own, ← ih]
        split
        · rw [List.lookup_cons, beq_false_of_ne own]
        · rfl
  rw [serving, serving, without, found]

theorem RecordType.notMem_of_categories {type : RecordType} {skipped : List RecordType}
    (h : type ∈ categories skipped) : type ∉ skipped := by
  have kept := (List.mem_filter.mp h).2
  rw [Bool.not_eq_true', Bool.or_eq_false_iff] at kept
  simpa using kept.2

namespace Job

variable {catalogue : Catalogue} {skipped : List RecordType} {bound : Nat}
variable {owner : Uuid} {entity : EntityId} {plan : JobPlan}

/-- Whether a dialogue makes only calls that are wanted when types are left out. -/
abbrev Sparing {α : Type} (catalogue : Catalogue) (skipped : List RecordType) (d : Dialogue α) :
    Prop :=
  d.Confined (Call.Wanted catalogue skipped) catalogue.Answers

theorem sparing_keep {type : RecordType} (h : type ∉ skipped) (record : Value) :
    Sparing catalogue skipped (.keep type record) :=
  .perform h

theorem sparing_exportRelations (h : .relation ∉ skipped) :
    Sparing catalogue skipped (exportRelations owner entity) :=
  .perform_bind h fun _ _ => .forM fun row _ => sparing_keep h row

theorem sparing_exportEvents (h : .event ∉ skipped) (size : Int) :
    Sparing catalogue skipped (exportEvents bound size owner entity) :=
  .forM fun kind _ => .partition (.perform (.inl ⟨⟨kind, rfl⟩, h⟩)) (.perform (.inl h))
    (fun _ => .perform h) (sparing_keep h) bound size

theorem sparing_exportAttributes (h : .attributeKv ∉ skipped) :
    Sparing catalogue skipped (exportAttributes owner entity) :=
  .forM fun _ _ => .perform_bind h fun _ _ => .forM fun _ _ => sparing_keep h _

theorem sparing_exportLatest (h : .latestTsKv ∉ skipped) (timeout : Value) :
    Sparing catalogue skipped (exportLatest timeout owner entity) :=
  .perform_bind h fun _ _ => .forM fun _ _ => sparing_keep h _

theorem sparing_exportRelated {r : Related} (h : r.recordType ∉ skipped) :
    Sparing catalogue skipped (exportRelated plan bound owner entity r) := by
  cases r with
  | relations => exact sparing_exportRelations h
  | events => exact sparing_exportEvents h plan.eventPageSize
  | attributes => exact sparing_exportAttributes h
  | latest => exact sparing_exportLatest h plan.telemetryTimeout

theorem sparing_exportEntity {type : RecordType} (h : type ∉ skipped) (record : Value) :
    Sparing catalogue skipped (exportEntity plan bound owner skipped type record) := by
  refine .perform_bind h fun _ _ => ?_
  cases record.entityId? with
  | none => exact .pure ()
  | some entity =>
    refine .forM fun r hr => sparing_exportRelated ?_
    simpa using (List.mem_filter.mp hr).2

/-- Entities are asked of what the catalogue has for their category. -/
theorem sparing_exportCategory {type : RecordType} (h : type ∈ RecordType.categories skipped) :
    Sparing catalogue skipped (exportCategory plan bound owner skipped type) :=
  .perform_bind h fun _ served => .forEach (fun _ => .perform ⟨type, h, served⟩)
    (sparing_exportEntity (RecordType.notMem_of_categories h)) bound plan.entityPageSize

theorem sparing_exportAuditLogs (h : .auditLog ∉ skipped) (size : Int) :
    Sparing catalogue skipped (exportAuditLogs bound size owner) :=
  .partition (.perform (.inr ⟨rfl, h⟩)) (.perform (.inr h)) (fun _ => .perform h) (sparing_keep h)
    bound size

/-- A job makes no call that only types would need that are left out. -/
theorem sparing_exportTenant (tenant : Tenant) :
    Sparing catalogue skipped (exportTenant plan bound tenant skipped) := by
  have visited : Sparing catalogue skipped ((RecordType.categories skipped).forM
      (exportCategory plan bound tenant.id skipped)) :=
    .forM fun type h => sparing_exportCategory h
  have traversed : Sparing catalogue skipped (traverse plan bound tenant skipped) :=
    .ite (fun _ => visited) fun h =>
      (sparing_keep (by simpa using h) tenant.record).bind fun _ => visited
  exact traversed.bind fun _ => .ite (fun _ => .pure ()) fun h =>
    sparing_exportAuditLogs (by simpa using h) plan.eventPageSize

end Job

variable {δ : Type}

/-- Whether two environments are the same but for what is not wanted when types are left out:
who serves these categories, whether anyone does, and how the others of their questions are
answered. -/
structure Environment.SameBut (skipped : List RecordType) (env env' : Environment δ) : Prop where
  ask : ∀ q, q.Wanted env.plan.catalogue skipped → env'.ask q = env.ask q
  serving : ∀ type ∈ RecordType.categories skipped,
    env'.plan.catalogue.serving type = env.plan.catalogue.serving type
  now : Call.now.Wanted env.plan.catalogue skipped → env'.now = env.now
  before : env'.before = env.before
  plan : env'.plan = { env.plan with catalogue := env'.plan.catalogue }
  pageBound : env'.pageBound = env.pageBound

namespace Service

variable {env env' : Environment δ} {ticket : Nat} {tenant : Tenant} {skipped : List RecordType}

theorem ports_answers (env : Environment δ) (ticket : Nat) (owner : Uuid) (c : Call)
    (w : World δ) (reply : c.Reply) (w' : World δ)
    (h : ((ports env ticket owner).perform c).outcome w = (.ok reply, w')) :
    env.plan.catalogue.Answers c reply := by
  cases c with
  | serve type =>
    rw [show (ports env ticket owner).perform (.serve type) =
      Act.settle (env.plan.catalogue.serving type) from rfl, Act.outcome_settle] at h
    exact congrArg Prod.fst h
  | _ => trivial

theorem perform_sameBut (same : env.SameBut skipped env') (ticket : Nat) (owner : Uuid) (c : Call)
    (wanted : c.Wanted env.plan.catalogue skipped) :
    (ports env' ticket owner).perform c = (ports env ticket owner).perform c := by
  cases c with
  | serve type => exact congrArg Act.settle (same.serving type wanted)
  | ask q => exact same.ask q wanted
  | await owner' entity timeout =>
    have asked : env'.ask (.latest owner' entity) = env.ask (.latest owner' entity) :=
      same.ask _ wanted
    rw [JobPorts.perform, JobPorts.perform]
    simp only [ports, asked]
  | now => exact same.now wanted
  | keep type record =>
    show keep env' ticket owner type record = keep env ticket owner type record
    rw [keep, keep, useStorage, useStorage, same.before]

theorem content_sameBut (same : env.SameBut skipped env') :
    content env' tenant skipped = content env tenant skipped := by
  rw [content, same.pageBound, same.plan]
  rfl

theorem exchangedBy_wanted (env : Environment δ) (ticket : Nat) (tenant : Tenant)
    (skipped : List RecordType) (w : World δ) :
    ∀ x ∈ exchangedBy env ticket tenant skipped w, x.1.Wanted env.plan.catalogue skipped :=
  (Job.sparing_exportTenant tenant).exchanges (ports_answers env ticket tenant.id) _

theorem content_run_sameBut (same : env.SameBut skipped env') (w : World δ) :
    let d := content env tenant skipped
    let d' := content env' tenant skipped
    (d'.run (ports env' ticket tenant.id)).outcome w =
        (d.run (ports env ticket tenant.id)).outcome w ∧
      d'.exchanges (ports env' ticket tenant.id) w =
        d.exchanges (ports env ticket tenant.id) w := by
  intro d d'
  rw [show d' = d from content_sameBut same]
  exact (Job.sparing_exportTenant tenant).run_eq (ports_answers env ticket tenant.id)
    (perform_sameBut same ticket tenant.id) w

theorem exportTenant_sameBut (same : env.SameBut skipped env') :
    exportTenant env' ticket tenant skipped = exportTenant env ticket tenant skipped := by
  have run : (content env' tenant skipped).run (ports env' ticket tenant.id) =
      (content env tenant skipped).run (ports env ticket tenant.id) :=
    funext fun w => (content_run_sameBut same w).1
  have storing : ∀ {α : Type} (call : StorageCall) (act : Act Storage α),
      useStorage env' call act = useStorage env call act := fun call act => by
    rw [useStorage, useStorage, same.before]
  rw [exportTenant, exportTenant, run, storing, storing, storing]

/-- A job that has started has the data and the storage that it has found. -/
theorem started_finds (w : World δ) (ticket : Nat) :
    (w.started ticket).data = w.data ∧ (w.started ticket).storage = w.storage := by
  have blind : (markResult ticket .running).outcome w = _ :=
    markResult_blind ticket .running w w.data w.storage
  rw [World.started, blind]
  exact ⟨rfl, rfl⟩

/-- Types that are left out are filtered from an export and not asked for. What a job saves of a
store without some types is what it saves of it without leaving anything out, less the records of
these types and the records exported on behalf of entities of these categories. Whatever the data
comes from, no call is made that only those types would need: nobody is looked up or asked for
entities of these categories, for related records or audit logs of these types, or for the
partitions of tables that they alone use. So a job does the same, and ends the same, when these
calls would be answered differently, fail, or have no one to answer them. -/
theorem skipped_filtered_unasked (ticket : Nat) (tenant : Tenant) (skipped : List RecordType) :
    (∀ (entitySize eventSize : Int) (timeout : Value) (now : Int) (allows : Bool) (bound : Nat)
        (w : World Store), 1 ≤ entitySize → 1 ≤ eventSize → w.data.additions.length < bound →
        w.storage.Sound →
        (∀ row ∈ w.data.content tenant now [], ∃ line, Json.line row.1 row.2 = .ok line) →
        let env := Environment.ofStore (.complete entitySize eventSize timeout) now allows bound
        let everything := w.data.exported tenant now
        savedBy env ticket tenant [] w = everything.map (·.row) ∧
          savedBy env ticket tenant skipped w = Exported.without skipped everything) ∧
      ∀ {δ : Type} (env env' : Environment δ),
        (∀ w, ∀ x ∈ exchangedBy env ticket tenant skipped w,
            x.1.Wanted env.plan.catalogue skipped) ∧
          (env.SameBut skipped env' →
            runExport env' ticket tenant skipped = runExport env ticket tenant skipped ∧
              ∀ w, savedBy env' ticket tenant skipped w = savedBy env ticket tenant skipped w) := by
  refine ⟨?_, fun env env' => ⟨exchangedBy_wanted env ticket tenant skipped, fun same => ⟨?_, ?_⟩⟩⟩
  · intro entitySize eventSize timeout now allows bound w entityPositive eventPositive enough sound
      writable env everything
    obtain ⟨data, storage⟩ := started_finds w ticket
    have saves : ∀ left : List RecordType,
        (∀ row ∈ w.data.content tenant now left, ∃ line, Json.line row.1 row.2 = .ok line) →
        savedBy env ticket tenant left w = Exported.without left everything := by
      intro left writable
      rw [← data] at enough writable
      have saved : (content env tenant left).saved (ports env ticket tenant.id)
          ((w.started ticket).begun tenant.id) = (w.started ticket).data.content tenant now left :=
        (content_saved rfl entityPositive eventPositive enough (storage ▸ sound) writable).1
      rw [savedBy, saved, data, Store.content_eq_without]
    have all : w.data.content tenant now [] = everything.map (·.row) := by
      rw [Store.content_eq_without, Exported.without_nothing]
    refine ⟨(saves [] writable).trans Exported.without_nothing, saves skipped fun row hrow => ?_⟩
    refine writable row ?_
    rw [Store.content_eq_without] at hrow
    obtain ⟨x, hx, rfl⟩ := List.mem_map.mp hrow
    rw [all]
    exact List.mem_map_of_mem (List.mem_filter.mp hx).1
  · rw [runExport, runExport, finishExport, finishExport, exportTenant_sameBut same]
  · intro w
    rw [savedBy_eq, savedBy_eq, exchangedBy, exchangedBy,
      (content_run_sameBut same ((w.started ticket).begun tenant.id)).2]

/-- An entity that has nothing but an identity can be written. -/
theorem line_identified (type : RecordType) (entity : EntityId) :
    ∃ line, Json.line type (.record .entity [entity.toValue]) = .ok line := by
  have plain : Value.plain (.record .entity [entity.toValue]) = .ok (.dict [(.str "id",
      .dict [(.str "entity_type", .str entity.entityType), (.str "id", .str entity.id.text)])]) := by
    rw [Value.plain]
    split
    next failure h => cases h
    next items h =>
      cases h
      simp only [Value.plainItems, Value.plain, Value.plainEntries, Value.fieldEntries,
        Shape.fieldNames, List.zipWith]
      rfl
  rw [Json.line, plain]
  exact ⟨_, rfl⟩

/-- Without devices the relation of the device is missing, too, and it makes no difference that
nobody serves devices and that looking for them fails. -/
theorem skipped_filtered_unasked_devices :
    let device : Value := .record .entity [(EntityId.mk "DEVICE" ⟨1⟩).toValue]
    let asset : Value := .record .entity [(EntityId.mk "ASSET" ⟨2⟩).toValue]
    let tenant : Tenant := ⟨⟨7⟩, .str "acme"⟩
    let skipped : List RecordType := [.device, .event, .auditLog]
    let store : Store := ⟨[.entity ⟨7⟩ .device device, .entity ⟨7⟩ .asset asset,
      .relation ⟨"DEVICE", ⟨1⟩⟩ (.int 1), .relation ⟨"ASSET", ⟨2⟩⟩ (.int 2)]⟩
    let w : World Store := ⟨store, [.submitted ⟨7⟩ ⟨0⟩], ⟨1, true, .idle, []⟩, 0, ⟨1, true, []⟩,
      .here (.new "data.tar"), ⟨1⟩, []⟩
    let env := Environment.ofStore (.complete 2 1 .null) 0 false 9
    let env' : Environment Store := { env with
      ask := fun
        | .entities .device _ _ => throw .endlessPages
        | q => env.ask q
      plan := { env.plan with catalogue := env.plan.catalogue.without [.device] } }
    savedBy env 0 tenant skipped w =
        [(.tenant, .str "acme"), (.asset, asset), (.relation, .int 2)] ∧
      runExport env' 0 tenant skipped = runExport env 0 tenant skipped := by
  intro device asset tenant skipped store w env env'
  have unpartitioned : ∀ table rows, store.history table 0 rows = [] := by
    intro table rows
    have none : store.partitions table = [] := rfl
    simp [Store.history, none, Partition.covers, Store.inTimeOrder]
  have everything : w.data.content tenant 0 [] = [(.tenant, .str "acme"), (.device, device),
      (.relation, .int 1), (.asset, asset), (.relation, .int 2)] := by
    show store.content tenant 0 [] = _
    unfold Store.content Store.entityContent Store.relatedContent
    simp only [unpartitioned]
    rfl
  have writable : ∀ row ∈ w.data.content tenant 0 [],
      ∃ line, Json.line row.1 row.2 = .ok line := by
    have simple : ∀ type (n : Int), ∃ line, Json.line type (.int n) = .ok line := by
      intro type n
      simp only [Json.line, Value.plain, pure_bind]
      exact ⟨_, rfl⟩
    have named : ∃ line, Json.line .tenant tenant.record = .ok line := by
      simp only [Json.line, tenant, Value.plain, pure_bind]
      exact ⟨_, rfl⟩
    rw [everything]
    simp only [List.forall_mem_cons]
    exact ⟨named, line_identified _ _, simple _ _, line_identified _ _, simple _ _, by simp⟩
  have unserved : ∀ type ∈ RecordType.categories skipped, type ≠ .device := by decide
  have same : env.SameBut skipped env' :=
    { ask := by
        rintro (_ | ⟨category, _, _⟩ | _ | _ | _ | _ | _ | _) wanted <;> try rfl
        obtain ⟨type, hmem, served⟩ := wanted
        cases (Catalogue.standard_serving hmem).symm.trans served
        cases category <;> first | rfl | exact absurd rfl (unserved _ hmem)
      serving := fun type hmem =>
        Catalogue.serving_without _ (by simpa using unserved type hmem)
      now := fun _ => rfl
      before := rfl
      plan := rfl
      pageBound := rfl }
  have main := skipped_filtered_unasked 0 tenant skipped
  have saved := (main.1 2 1 .null 0 false 9 w (by decide) (by decide) (by decide)
    (Storage.here_sound (by decide)) writable).2
  rw [← Store.content_eq_without] at saved
  exact ⟨saved, ((main.2 env env').2 same).1⟩

end Service

end Handover
