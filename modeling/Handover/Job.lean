import Handover.Catalogue
import Handover.Dialogue
import Handover.Partition

namespace Handover

/-- The kinds of records that are exported with an entity. -/
inductive Related where
  | relations
  | events
  | attributes
  | latest
  deriving DecidableEq, Repr

namespace Related

/-- The order in which the records related to an entity are exported. -/
def all : List Related :=
  [relations, events, attributes, latest]

def recordType : Related → RecordType
  | relations => .relation
  | events => .event
  | attributes => .attributeKv
  | latest => .latestTsKv

def ofRecordType? (type : RecordType) : Option Related :=
  all.find? fun r => r.recordType = type

end Related

/-- How a job reads. -/
structure JobPlan where
  catalogue : Catalogue
  entityPageSize : Int
  eventPageSize : Int
  telemetryTimeout : Value
  related : List Related
  deriving Repr

namespace Job

/-- Exports the relations that start at an entity. -/
def exportRelations (tenant : Uuid) (entity : EntityId) : Dialogue Unit := do
  let rows : List Value ← .ask (.relations tenant entity)
  rows.forM (.keep .relation)

/-- Exports the events of an entity of one type after the other. `bound` is the greatest number of
pages of one reading. -/
def exportEvents (bound : Nat) (pageSize : Int) (tenant : Uuid) (entity : EntityId) :
    Dialogue Unit :=
  EventType.all.forM fun type =>
    Partition.forEach bound pageSize (.ask (.partitions type.table)) (.perform .now)
      (fun link => .ask (.events tenant entity.id type link)) (.keep .event)

def exportAttributes (tenant : Uuid) (entity : EntityId) : Dialogue Unit :=
  AttributeScope.all.forM fun scope => do
    let rows : List Value ← .ask (.attributes tenant entity scope)
    rows.forM fun row =>
      .keep .attributeKv (.record .attributeKv [entity.toValue, .member (.scope scope), row])

def exportLatest (timeout : Value) (tenant : Uuid) (entity : EntityId) : Dialogue Unit := do
  let rows : List Value ← .perform (.await tenant entity timeout)
  rows.forM fun row => .keep .latestTsKv (.record .latestTsKv [entity.toValue, row])

def exportRelated (plan : JobPlan) (bound : Nat) (tenant : Uuid) (entity : EntityId) :
    Related → Dialogue Unit
  | .relations => exportRelations tenant entity
  | .events => exportEvents bound plan.eventPageSize tenant entity
  | .attributes => exportAttributes tenant entity
  | .latest => exportLatest plan.telemetryTimeout tenant entity

/-- Exports an entity of a category and, if it carries an identity, what is related to it. -/
def exportEntity (plan : JobPlan) (bound : Nat) (tenant : Uuid) (skipped : List RecordType)
    (type : RecordType) (record : Value) : Dialogue Unit := do
  .keep type record
  match record.entityId? with
  | some entity =>
    (plan.related.filter fun r => !skipped.contains r.recordType).forM
      (exportRelated plan bound tenant entity)
  | none => pure ()

def exportCategory (plan : JobPlan) (bound : Nat) (tenant : Uuid) (skipped : List RecordType)
    (type : RecordType) : Dialogue Unit := do
  let category ← .perform (.serve type)
  Pager.forEach bound plan.entityPageSize (fun link => .ask (.entities category tenant link))
    (exportEntity plan bound tenant skipped type)

def traverse (plan : JobPlan) (bound : Nat) (tenant : Tenant) (skipped : List RecordType) :
    Dialogue Unit := do
  if skipped.contains .tenant then pure () else .keep .tenant tenant.record
  (RecordType.categories skipped).forM (exportCategory plan bound tenant.id skipped)

def exportAuditLogs (bound : Nat) (pageSize : Int) (tenant : Uuid) : Dialogue Unit :=
  Partition.forEach bound pageSize (.ask (.partitions auditLogTable)) (.perform .now)
    (fun link => .ask (.auditLogs tenant link)) (.keep .auditLog)

def exportTenant (plan : JobPlan) (bound : Nat) (tenant : Tenant) (skipped : List RecordType) :
    Dialogue Unit := do
  traverse plan bound tenant skipped
  if skipped.contains .auditLog then pure ()
  else exportAuditLogs bound plan.eventPageSize tenant.id

end Job

end Handover
