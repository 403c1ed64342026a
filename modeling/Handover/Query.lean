import Handover.Act
import Handover.Entity
import Handover.Page

namespace Handover

/-- A tenant as it is recorded. -/
structure Tenant where
  id : Uuid
  record : Value
  deriving Repr

/-- The answer about the latest telemetry of an entity, which is given later: the values are there,
the search has failed, or nothing came in time. -/
inductive Telemetry where
  | ready (rows : List Value)
  | failed (failure : Failure)
  | late
  deriving Repr

/-- The questions of an export. -/
inductive Query where
  | tenant (id : Uuid)
  | entities (category : RecordType) (tenant : Uuid) (link : PageLink)
  | relations (tenant : Uuid) (source : EntityId)
  | events (tenant entity : Uuid) (type : EventType) (link : TimePageLink)
  | attributes (tenant : Uuid) (entity : EntityId) (scope : AttributeScope)
  | latest (tenant : Uuid) (entity : EntityId)
  | auditLogs (tenant : Uuid) (link : TimePageLink)
  | partitions (table : String)
  deriving DecidableEq, Repr

namespace Query

/-- The type of the answer to a question. -/
@[reducible] def Reply : Query → Type
  | tenant _ => Option Tenant
  | entities .. => Page Value
  | relations .. => List Value
  | events .. => Page Value
  | attributes .. => List Value
  | latest .. => Telemetry
  | auditLogs .. => Page Value
  | partitions _ => List Int

def label : Query → String
  | tenant _ => "tenant"
  | entities category _ _ => category.text
  | relations .. => "relations"
  | events .. => "events"
  | attributes .. => "attributes"
  | latest .. => "latest"
  | auditLogs .. => "audit_logs"
  | partitions _ => "partitions"

def linkArgument (link : PageLink) : Value :=
  .list [.int link.page, .int link.size]

def timeLinkArgument (window : TimePageLink) : Value :=
  .list [.int window.start, .int window.stop, .int window.link.page, .int window.link.size]

def arguments : Query → List Value
  | tenant id => [.str id.text]
  | entities _ owner link => [.str owner.text, linkArgument link]
  | relations owner source => [.str owner.text, .str source.label]
  | events owner entity type link =>
    [.str owner.text, .str entity.text, .str type.text, timeLinkArgument link]
  | attributes owner entity scope => [.str owner.text, .str entity.label, .str scope.text]
  | latest owner entity => [.str owner.text, .str entity.label]
  | auditLogs owner link => [.str owner.text, timeLinkArgument link]
  | partitions table => [.str table]

end Query

abbrev Source (σ : Type) := (q : Query) → Act σ q.Reply

end Handover
