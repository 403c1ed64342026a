import Handover.Job
import Handover.Proofs.Answered
import Handover.Proofs.History

namespace Handover

/-- The plan of a job that exports every kind of related record, in which each category serves
itself. -/
def JobPlan.complete (entityPageSize eventPageSize : Int) (timeout : Value) : JobPlan :=
  ⟨.standard, entityPageSize, eventPageSize, timeout, Related.all⟩

namespace Store

/-- The answers that a store gives ahead of a job; only keeping a record is left open. -/
def replies (s : Store) (catalogue : Catalogue) (now : Int) :
    (c : Call) → Option (Except Failure c.Reply)
  | .serve type => some (catalogue.serving type)
  | .ask q => some (s.answer q)
  | .await _ entity _ => some (.ok (s.latest entity))
  | .now => some (.ok now)
  | .keep .. => none

def eventRows (s : Store) (owner of : Uuid) (kind : EventType) : List (Int × Value) :=
  s.additions.filterMap fun
    | .event tenant entity type time record =>
      if tenant = owner ∧ entity = of ∧ type = kind then some (time, record) else none
    | _ => none

def auditRows (s : Store) (owner : Uuid) : List (Int × Value) :=
  s.additions.filterMap fun
    | .auditLog tenant time record => if tenant = owner then some (time, record) else none
    | _ => none

/-- The rows of a table that its partitions cover, in order of time. -/
def history (s : Store) (table : String) (now : Int) (rows : List (Int × Value)) : List Value :=
  inTimeOrder (rows.filter fun row => Partition.covers (s.partitions table) now row.1)

def block (skipped : List RecordType) (type : RecordType) (rows : List Value) :
    List (RecordType × Value) :=
  if skipped.contains type then [] else rows.map fun row => (type, row)

/-- The records related to an entity of a tenant. -/
def relatedContent (s : Store) (owner : Uuid) (now : Int) (skipped : List RecordType)
    (entity : EntityId) : List (RecordType × Value) :=
  block skipped .relation (s.relations entity)
    ++ block skipped .event (EventType.all.flatMap fun kind =>
      s.history kind.table now (s.eventRows owner entity.id kind))
    ++ block skipped .attributeKv (AttributeScope.all.flatMap fun scope =>
      (s.attributes entity scope).map fun row =>
        .record .attributeKv [entity.toValue, .member (.scope scope), row])
    ++ block skipped .latestTsKv ((s.latest entity).map fun row =>
      .record .latestTsKv [entity.toValue, row])

/-- An entity of a tenant and, when it carries an identity, the records related to it. -/
def entityContent (s : Store) (owner : Uuid) (now : Int) (skipped : List RecordType)
    (type : RecordType) (record : Value) : List (RecordType × Value) :=
  (type, record) ::
    match record.entityId? with
    | some entity => s.relatedContent owner now skipped entity
    | none => []

/-- Everything that is exported of a tenant. -/
def content (s : Store) (tenant : Tenant) (now : Int) (skipped : List RecordType) :
    List (RecordType × Value) :=
  block skipped .tenant [tenant.record]
    ++ (RecordType.all.filter fun type =>
        !skipped.contains type && !RecordType.nonEntities.contains type).flatMap (fun type =>
      (s.entities tenant.id type).flatMap (s.entityContent tenant.id now skipped type))
    ++ block skipped .auditLog (s.history auditLogTable now (s.auditRows tenant.id))

theorem events_eq (s : Store) (owner of : Uuid) (kind : EventType) (window : TimePageLink) :
    s.events owner of kind window =
      inTimeOrder ((s.eventRows owner of kind).filter fun row => window.covers row.1) := by
  rw [events, eventRows, List.filter_filterMap]
  congr 2
  funext addition
  cases addition with
  | event tenant entity type time record =>
    by_cases h : tenant = owner ∧ entity = of ∧ type = kind
    · obtain ⟨rfl, rfl, rfl⟩ := h
      simp [Option.filter]
    · have h' : ¬(tenant = owner ∧ entity = of ∧ type = kind ∧ window.covers time = true) :=
        fun hw => h ⟨hw.1, hw.2.1, hw.2.2.1⟩
      simp only [if_neg h, if_neg h', Option.filter_none]
  | _ => rfl

theorem auditLogs_eq (s : Store) (owner : Uuid) (window : TimePageLink) :
    s.auditLogs owner window =
      inTimeOrder ((s.auditRows owner).filter fun row => window.covers row.1) := by
  rw [auditLogs, auditRows, List.filter_filterMap]
  congr 2
  funext addition
  cases addition with
  | auditLog tenant time record =>
    by_cases h : tenant = owner
    · subst h
      simp [Option.filter]
    · simp [h]
  | _ => rfl

theorem length_inTimeOrder_filter (rows : List (Int × Value)) (p : Int × Value → Bool) :
    (inTimeOrder (rows.filter p)).length ≤ rows.length := by
  rw [inTimeOrder, List.length_map, List.length_mergeSort]
  exact List.length_filter_le _ _

theorem length_eventRows (s : Store) (owner of : Uuid) (kind : EventType) :
    (s.eventRows owner of kind).length ≤ s.additions.length :=
  List.length_filterMap_le _ _

theorem length_auditRows (s : Store) (owner : Uuid) :
    (s.auditRows owner).length ≤ s.additions.length :=
  List.length_filterMap_le _ _

theorem length_entities (s : Store) (owner : Uuid) (category : RecordType) :
    (s.entities owner category).length ≤ s.additions.length :=
  List.length_filterMap_le _ _

end Store

theorem Catalogue.lookup_self {type : RecordType} {types : List RecordType} (h : type ∈ types) :
    (types.map fun t => (t, t)).lookup type = some type := by
  induction types with
  | nil => simp at h
  | cons t rest ih =>
    rw [List.map_cons, List.lookup_cons]
    by_cases ht : type = t
    · simp [ht]
    · rw [beq_false_of_ne ht]
      exact ih ((List.mem_cons.mp h).resolve_left ht)

theorem Catalogue.standard_serving {type : RecordType} {skipped : List RecordType}
    (h : type ∈ RecordType.categories skipped) : Catalogue.standard.serving type = .ok type := by
  have hmem : type ∈ RecordType.categories [] := by
    obtain ⟨hall, hfilter⟩ := List.mem_filter.mp h
    refine List.mem_filter.mpr ⟨hall, ?_⟩
    simp only [Bool.not_eq_true', Bool.or_eq_false_iff] at hfilter ⊢
    exact ⟨hfilter.1, rfl⟩
  rw [serving, standard, lookup_self hmem]

namespace Job

open Dialogue (keepAll)

variable {s : Store} {now : Int}

theorem keepAll_map {β : Type} (rows : List β) (f : β → RecordType × Value) :
    keepAll (rows.map f) = rows.forM fun row => .keep (f row).1 (f row).2 := by
  induction rows with
  | nil => rfl
  | cons row rest ih =>
    show (Dialogue.keep (f row).1 (f row).2 >>= fun _ => keepAll (rest.map f)) = _
    rw [ih]
    rfl

theorem answered_keep (type : RecordType) (record : Value) :
    (Dialogue.keep type record).answered (s.replies .standard now) = .keep type record :=
  Dialogue.answered_perform_none rfl

theorem answered_exportRelations (owner : Uuid) (entity : EntityId) :
    (exportRelations owner entity).answered (s.replies .standard now) =
      keepAll ((s.relations entity).map fun row => (.relation, row)) := by
  have asked : (Dialogue.ask (.relations owner entity)).answered (s.replies .standard now) =
      pure (s.relations entity) := Dialogue.answered_perform_ok rfl
  rw [exportRelations, Dialogue.answered_bind, asked, pure_bind, Dialogue.answered_forM,
    keepAll_map]
  simp only [answered_keep]

/-- The rows of a partitioned table are kept in order of time, whatever its windows and pages. -/
theorem answered_table {rows : List (Int × Value)} {size : Int} (positive : 0 < size) {bound : Nat}
    (enough : rows.length < bound) (table : String) {fetch : TimePageLink → Dialogue (Page Value)}
    (type : RecordType)
    (fetches : ∀ window page,
      Page.cut (Store.inTimeOrder (rows.filter fun row => window.covers row.1)) window.link =
        .ok page → (fetch window).answered (s.replies .standard now) = pure page) :
    (Partition.forEach bound size (.ask (.partitions table)) (.perform .now) fetch
        (.keep type)).answered (s.replies .standard now) =
      keepAll ((s.history table now rows).map fun row => (type, row)) := by
  have starts : (Dialogue.ask (.partitions table)).answered (s.replies .standard now) =
      pure (s.partitions table) := Dialogue.answered_perform_ok rfl
  have time : (Dialogue.perform .now).answered (s.replies .standard now) = pure now :=
    Dialogue.answered_perform_ok rfl
  have few : ∀ w : Window,
      (Store.inTimeOrder (rows.filter fun row => w.holds row.1)).length < bound :=
    fun w => Nat.lt_of_le_of_lt (Store.length_inTimeOrder_filter rows _) enough
  rw [Dialogue.answered_partition, starts, time, Partition.forEach_cut positive few _
    (fun w link page h => fetches ⟨link, w.start, w.stop⟩ page h), Partition.plan_inTimeOrder,
    keepAll_map]
  simp only [answered_keep]
  rfl

theorem answered_exportEvents (owner : Uuid) (entity : EntityId) {size : Int} (positive : 0 < size)
    {bound : Nat} (enough : s.additions.length < bound) :
    (exportEvents bound size owner entity).answered (s.replies .standard now) =
      keepAll ((EventType.all.flatMap fun kind =>
        s.history kind.table now (s.eventRows owner entity.id kind)).map fun row =>
          (.event, row)) := by
  rw [exportEvents, Dialogue.answered_forM, List.map_flatMap, Dialogue.keepAll_flatMap]
  congr 1
  funext kind
  refine answered_table positive
    (Nat.lt_of_le_of_lt (s.length_eventRows owner entity.id kind) enough) kind.table .event ?_
  intro window page h
  rw [← Store.events_eq] at h
  exact Dialogue.answered_perform_ok (congrArg some h)

theorem answered_exportAuditLogs (owner : Uuid) {size : Int} (positive : 0 < size)
    {bound : Nat} (enough : s.additions.length < bound) :
    (exportAuditLogs bound size owner).answered (s.replies .standard now) =
      keepAll ((s.history auditLogTable now (s.auditRows owner)).map fun row =>
        (.auditLog, row)) := by
  refine answered_table positive (Nat.lt_of_le_of_lt (s.length_auditRows owner) enough)
    auditLogTable .auditLog ?_
  intro window page h
  rw [← Store.auditLogs_eq] at h
  exact Dialogue.answered_perform_ok (congrArg some h)

theorem answered_exportAttributes (owner : Uuid) (entity : EntityId) :
    (exportAttributes owner entity).answered (s.replies .standard now) =
      keepAll ((AttributeScope.all.flatMap fun scope => (s.attributes entity scope).map fun row =>
        (.record .attributeKv [entity.toValue, .member (.scope scope), row] : Value)).map fun row =>
          (.attributeKv, row)) := by
  rw [exportAttributes, Dialogue.answered_forM, List.map_flatMap, Dialogue.keepAll_flatMap]
  congr 1
  funext scope
  have asked : (Dialogue.ask (.attributes owner entity scope)).answered
      (s.replies .standard now) = pure (s.attributes entity scope) :=
    Dialogue.answered_perform_ok rfl
  rw [Dialogue.answered_bind, asked, pure_bind, Dialogue.answered_forM, List.map_map, keepAll_map]
  simp only [answered_keep, Function.comp_apply]

theorem answered_exportLatest (timeout : Value) (owner : Uuid) (entity : EntityId) :
    (exportLatest timeout owner entity).answered (s.replies .standard now) =
      keepAll (((s.latest entity).map fun row =>
        (.record .latestTsKv [entity.toValue, row] : Value)).map fun row =>
          (.latestTsKv, row)) := by
  have awaited : (Dialogue.perform (.await owner entity timeout)).answered
      (s.replies .standard now) = pure (s.latest entity) := Dialogue.answered_perform_ok rfl
  rw [exportLatest, Dialogue.answered_bind, awaited, pure_bind, Dialogue.answered_forM,
    List.map_map, keepAll_map]
  simp only [answered_keep, Function.comp_apply]

theorem keepAll_block (skipped : List RecordType) (type : RecordType) (rows : List Value) :
    keepAll (Store.block skipped type rows) =
      if skipped.contains type then pure () else keepAll (rows.map fun row => (type, row)) := by
  rw [Store.block]
  split <;> rfl

def relatedRows (s : Store) (owner : Uuid) (now : Int) (entity : EntityId) : Related → List Value
  | .relations => s.relations entity
  | .events => EventType.all.flatMap fun kind =>
    s.history kind.table now (s.eventRows owner entity.id kind)
  | .attributes => AttributeScope.all.flatMap fun scope =>
    (s.attributes entity scope).map fun row =>
      .record .attributeKv [entity.toValue, .member (.scope scope), row]
  | .latest => (s.latest entity).map fun row => .record .latestTsKv [entity.toValue, row]

theorem keepAll_relatedContent (owner : Uuid) (skipped : List RecordType) (entity : EntityId) :
    keepAll (s.relatedContent owner now skipped entity) =
      (Related.all.filter fun r => !skipped.contains r.recordType).forM fun r =>
        keepAll ((relatedRows s owner now entity r).map fun row => (r.recordType, row)) := by
  have blocks : s.relatedContent owner now skipped entity =
      (Related.all.filter fun r => !skipped.contains r.recordType).flatMap fun r =>
        (relatedRows s owner now entity r).map fun row => (r.recordType, row) := by
    simp only [Store.relatedContent, Store.block, Related.all, List.filter_cons, List.filter_nil,
      Related.recordType]
    cases skipped.contains .relation <;> cases skipped.contains .event <;>
      cases skipped.contains .attributeKv <;> cases skipped.contains .latestTsKv <;>
      simp [relatedRows]
  rw [blocks, Dialogue.keepAll_flatMap]

theorem answered_exportRelated {entitySize eventSize : Int} (timeout : Value) (owner : Uuid)
    (entity : EntityId) (positive : 0 < eventSize) {bound : Nat}
    (enough : s.additions.length < bound) (r : Related) :
    (exportRelated (.complete entitySize eventSize timeout) bound owner entity r).answered
        (s.replies .standard now) =
      keepAll ((relatedRows s owner now entity r).map fun row => (r.recordType, row)) := by
  cases r with
  | relations => exact answered_exportRelations owner entity
  | events => exact answered_exportEvents owner entity positive enough
  | attributes => exact answered_exportAttributes owner entity
  | latest => exact answered_exportLatest timeout owner entity

theorem answered_exportEntity {entitySize eventSize : Int} (timeout : Value) (owner : Uuid)
    (positive : 0 < eventSize) {bound : Nat} (enough : s.additions.length < bound)
    (skipped : List RecordType) (type : RecordType) (record : Value) :
    (exportEntity (.complete entitySize eventSize timeout) bound owner skipped type
        record).answered (s.replies .standard now) =
      keepAll (s.entityContent owner now skipped type record) := by
  have kept : ∀ rows, keepAll ((type, record) :: rows) =
      (do Dialogue.keep type record; keepAll rows) := fun _ => rfl
  rw [exportEntity, Dialogue.answered_bind, answered_keep, Store.entityContent, kept]
  congr 1
  funext _
  cases record.entityId? with
  | none => rfl
  | some entity =>
    show ((Related.all.filter fun r : Related => !skipped.contains r.recordType).forM
      (exportRelated _ bound owner entity)).answered _ = _
    rw [Dialogue.answered_forM, keepAll_relatedContent]
    congr 1
    funext r
    exact answered_exportRelated timeout owner entity positive enough r

theorem answered_exportCategory {entitySize eventSize : Int} (timeout : Value) (owner : Uuid)
    (entityPositive : 0 < entitySize) (eventPositive : 0 < eventSize) {bound : Nat}
    (enough : s.additions.length < bound) (skipped : List RecordType) {type : RecordType}
    (h : type ∈ RecordType.categories skipped) :
    (exportCategory (.complete entitySize eventSize timeout) bound owner skipped type).answered
        (s.replies .standard now) =
      keepAll ((s.entities owner type).flatMap (s.entityContent owner now skipped type)) := by
  have served : (Dialogue.perform (.serve type)).answered (s.replies .standard now) =
      pure type := Dialogue.answered_perform_ok (congrArg some (Catalogue.standard_serving h))
  rw [exportCategory, Dialogue.answered_bind, served, pure_bind, Dialogue.answered_forEach]
  show Pager.forEach bound entitySize _ _ = _
  rw [Pager.forEach_cut entityPositive (Nat.lt_of_le_of_lt (s.length_entities owner type) enough) _
      (fun link page h => Dialogue.answered_perform_ok (congrArg some h)),
    Dialogue.keepAll_flatMap]
  congr 1
  funext record
  exact answered_exportEntity timeout owner eventPositive enough skipped type record

theorem forM_congr {β : Type} {rows : List β} {f g : β → Dialogue Unit}
    (h : ∀ row ∈ rows, f row = g row) : rows.forM f = rows.forM g := by
  induction rows with
  | nil => rfl
  | cons row rest ih =>
    show (f row >>= fun _ => rest.forM f) = (g row >>= fun _ => rest.forM g)
    rw [h row (by simp), ih fun r hr => h r (by simp [hr])]

theorem answered_traverse {entitySize eventSize : Int} (timeout : Value) (tenant : Tenant)
    (entityPositive : 0 < entitySize) (eventPositive : 0 < eventSize) {bound : Nat}
    (enough : s.additions.length < bound) (skipped : List RecordType) :
    (traverse (.complete entitySize eventSize timeout) bound tenant skipped).answered
        (s.replies .standard now) =
      (do
        keepAll (Store.block skipped .tenant [tenant.record])
        keepAll ((RecordType.categories skipped).flatMap fun type =>
          (s.entities tenant.id type).flatMap (s.entityContent tenant.id now skipped type))) := by
  have categories : ((RecordType.categories skipped).forM (exportCategory
        (.complete entitySize eventSize timeout) bound tenant.id skipped)).answered
          (s.replies .standard now) =
      keepAll ((RecordType.categories skipped).flatMap fun type =>
        (s.entities tenant.id type).flatMap (s.entityContent tenant.id now skipped type)) := by
    rw [Dialogue.answered_forM, Dialogue.keepAll_flatMap]
    exact forM_congr fun type h =>
      answered_exportCategory timeout tenant.id entityPositive eventPositive enough skipped h
  rw [traverse, keepAll_block, ← categories]
  cases skipped.contains .tenant with
  | true => rfl
  | false =>
    show (Dialogue.keep .tenant tenant.record >>= fun _ => _).answered _ = _
    rw [Dialogue.answered_bind, answered_keep]
    rfl

/-- The dialogue of a job whose questions a store answers is the one in which the content of the
tenant is kept. -/
theorem answered_exportTenant {entitySize eventSize : Int} (timeout : Value) (tenant : Tenant)
    (entityPositive : 0 < entitySize) (eventPositive : 0 < eventSize) {bound : Nat}
    (enough : s.additions.length < bound) (skipped : List RecordType) :
    (exportTenant (.complete entitySize eventSize timeout) bound tenant skipped).answered
        (s.replies .standard now) = keepAll (s.content tenant now skipped) := by
  have audited : (if skipped.contains .auditLog then pure () else
        keepAll ((s.history auditLogTable now (s.auditRows tenant.id)).map fun row =>
          (.auditLog, row))) =
      keepAll (Store.block skipped .auditLog (s.history auditLogTable now
        (s.auditRows tenant.id))) := (keepAll_block _ _ _).symm
  have categories : (RecordType.all.filter fun type =>
        !skipped.contains type && !RecordType.nonEntities.contains type) =
      RecordType.categories skipped := by
    refine List.filter_congr fun type _ => ?_
    rw [Bool.not_or, Bool.and_comm]
  rw [exportTenant, Dialogue.answered_bind, answered_traverse timeout tenant entityPositive
    eventPositive enough, Dialogue.answered_ite, Dialogue.answered_pure]
  rw [show (JobPlan.complete entitySize eventSize timeout).eventPageSize = eventSize from rfl,
    answered_exportAuditLogs tenant.id eventPositive enough, audited, bind_assoc, Store.content,
    Dialogue.keepAll_append, Dialogue.keepAll_append, categories, bind_assoc]

end Job

end Handover
