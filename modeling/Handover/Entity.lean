import Handover.Value

namespace Handover

/-- The identity of an entity. -/
structure EntityId where
  entityType : String
  id : Uuid
  deriving DecidableEq, Repr

namespace EntityId

def toValue (e : EntityId) : Value :=
  .record .entityId [.str e.entityType, .uuid e.id]

def ofValue? : Value → Option EntityId
  | .record .entityId [.str entityType, .uuid id] => some ⟨entityType, id⟩
  | _ => none

/-- The identity as it stands in a journal: type and identifier. -/
def label (e : EntityId) : String :=
  e.entityType ++ ":" ++ e.id.text

end EntityId

namespace Value

def identity? (v : Value) : Option Value :=
  match v.field? "id" with
  | some (.record .entityId fields) => some (.record .entityId fields)
  | _ => none

/-- The identity of the entity that a value describes, if it carries one. -/
def entityId? (v : Value) : Option EntityId :=
  v.identity?.bind EntityId.ofValue?

end Value

end Handover
