import Handover.Query

namespace Handover

/-- Something that is added to a store. -/
inductive Addition where
  | tenant (tenant : Tenant)
  | entity (tenant : Uuid) (type : RecordType) (record : Value)
  | relation (source : EntityId) (record : Value)
  | attributeEntry (entity : EntityId) (scope : AttributeScope) (record : Value)
  | latestEntry (entity : EntityId) (record : Value)
  | event (tenant entity : Uuid) (type : EventType) (time : Int) (record : Value)
  | auditLog (tenant : Uuid) (time : Int) (record : Value)
  | partition (table : String) (start : Int)
  deriving Repr

namespace Addition

/-- A tenant record with the identifier that it carries. -/
def ofTenant? (record : Value) : Option Tenant :=
  match record with
  | .record .tenant (.uuid id :: _) => some ⟨id, record⟩
  | _ => none

def ofNamed? (name : String) (arguments : List Value) : Option Addition :=
  match name, arguments with
  | "add_tenant", [record] => (ofTenant? record).map tenant
  | "add_entity", [.uuid owner, .member (.recordType type), record] =>
    some (entity owner type record)
  | "add_relation", [record] => do
    let source ← EntityId.ofValue? (← record.field? "from_id")
    pure (relation source record)
  | "add_attribute", [owner, .member (.scope scope), record] => do
    pure (attributeEntry (← EntityId.ofValue? owner) scope record)
  | "add_latest", [owner, record] => do
    pure (latestEntry (← EntityId.ofValue? owner) record)
  | "add_event", [record] =>
    match record with
    | .record .event
        (_ :: .uuid owner :: .uuid of :: .member (.eventType type) :: .int time :: _) =>
      some (event owner of type time record)
    | _ => none
  | "add_audit_log", [record] =>
    match record with
    | .record .auditLog (_ :: .uuid owner :: .int time :: _) => some (auditLog owner time record)
    | _ => none
  | "add_partition", [.str table, .int start] => some (partition table start)
  | _, _ => none

def added : Addition → Value
  | tenant t => t.record
  | entity _ _ record => record
  | relation _ record => record
  | attributeEntry _ _ record => record
  | latestEntry _ record => record
  | event _ _ _ _ record => record
  | auditLog _ _ record => record
  | partition _ _ => .null

end Addition

/-- A store is what was added to it, in order. -/
structure Store where
  additions : List Addition
  deriving Repr

namespace Store

def empty : Store :=
  ⟨[]⟩

def add (s : Store) (a : Addition) : Store :=
  ⟨s.additions ++ [a]⟩

/-- The tenant with an identifier; of several that were added, the last. -/
def tenant? (s : Store) (id : Uuid) : Option Tenant :=
  (s.additions.filterMap fun
    | .tenant t => if t.id = id then some t else none
    | _ => none).getLast?

def entities (s : Store) (owner : Uuid) (category : RecordType) : List Value :=
  s.additions.filterMap fun
    | .entity tenant type record =>
      if tenant = owner ∧ type = category then some record else none
    | _ => none

def relations (s : Store) (entity : EntityId) : List Value :=
  s.additions.filterMap fun
    | .relation source record => if source = entity then some record else none
    | _ => none

def attributes (s : Store) (owner : EntityId) (within : AttributeScope) : List Value :=
  s.additions.filterMap fun
    | .attributeEntry entity scope record =>
      if entity = owner ∧ scope = within then some record else none
    | _ => none

def latest (s : Store) (owner : EntityId) : List Value :=
  s.additions.filterMap fun
    | .latestEntry entity record => if entity = owner then some record else none
    | _ => none

/-- Rows of a history in order of time; those of one time keep their order. -/
def inTimeOrder (rows : List (Int × Value)) : List Value :=
  (rows.mergeSort fun a b => a.1 ≤ b.1).map (·.2)

def events (s : Store) (owner of : Uuid) (kind : EventType) (window : TimePageLink) :
    List Value :=
  inTimeOrder <| s.additions.filterMap fun
    | .event tenant entity type time record =>
      if tenant = owner ∧ entity = of ∧ type = kind ∧ window.covers time then some (time, record)
      else none
    | _ => none

def auditLogs (s : Store) (owner : Uuid) (window : TimePageLink) : List Value :=
  inTimeOrder <| s.additions.filterMap fun
    | .auditLog tenant time record =>
      if tenant = owner ∧ window.covers time then some (time, record) else none
    | _ => none

def partitions (s : Store) (of : String) : List Int :=
  s.additions.filterMap fun
    | .partition table start => if table = of then some start else none
    | _ => none

def answer (s : Store) : (q : Query) → Except Failure q.Reply
  | .tenant id => .ok (s.tenant? id)
  | .entities category owner link => Page.cut (s.entities owner category) link
  | .relations _ source => .ok (s.relations source)
  | .events owner of type window => Page.cut (s.events owner of type window) window.link
  | .attributes _ owner scope => .ok (s.attributes owner scope)
  | .latest _ owner => .ok (.ready (s.latest owner))
  | .auditLogs owner window => Page.cut (s.auditLogs owner window) window.link
  | .partitions table => .ok (s.partitions table)

def source {σ : Type} (s : Store) : Source σ :=
  fun q => Act.settle (s.answer q)

end Store

end Handover
