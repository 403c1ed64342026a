import Handover.Binary64
import Handover.Kind
import Handover.Timestamp
import Handover.Uuid

namespace Handover

/-- The record structures of the export. -/
inductive Shape where
  | entityId
  | tenant
  | entity
  | entityRelation
  | attributeKvEntry
  | attributeKv
  | tsKvEntry
  | latestTsKv
  | event
  | auditLog
  | dataWrapper
  | exportConfig
  | pageLink
  | timePageLink
  | pageData
  deriving DecidableEq, Repr

namespace Shape

def all : List Shape :=
  [entityId, tenant, entity, entityRelation, attributeKvEntry, attributeKv, tsKvEntry, latestTsKv,
    event, auditLog, dataWrapper, exportConfig, pageLink, timePageLink, pageData]

/-- The name of a structure. -/
def name : Shape → String
  | entityId => "EntityId"
  | tenant => "Tenant"
  | entity => "Entity"
  | entityRelation => "EntityRelation"
  | attributeKvEntry => "AttributeKvEntry"
  | attributeKv => "AttributeKv"
  | tsKvEntry => "TsKvEntry"
  | latestTsKv => "LatestTsKv"
  | event => "Event"
  | auditLog => "AuditLog"
  | dataWrapper => "DataWrapper"
  | exportConfig => "ExportConfig"
  | pageLink => "PageLink"
  | timePageLink => "TimePageLink"
  | pageData => "PageData"

def fieldNames : Shape → List String
  | entityId => ["entity_type", "id"]
  | tenant => ["id", "title", "created_time", "region", "additional_info"]
  | entity => ["id", "tenant_id", "name", "created_time", "fields"]
  | entityRelation => ["from_id", "to_id", "type", "type_group", "additional_info"]
  | attributeKvEntry => ["key", "value", "last_update_ts", "version"]
  | attributeKv => ["entity_id", "scope", "entry"]
  | tsKvEntry => ["ts", "key", "value", "version"]
  | latestTsKv => ["entity_id", "entry"]
  | event => ["id", "tenant_id", "entity_id", "type", "ts", "service_id", "body"]
  | auditLog =>
    ["id", "tenant_id", "created_time", "entity_id", "entity_name", "user_name", "action_type",
      "action_status", "action_data"]
  | dataWrapper => ["type", "data"]
  | exportConfig => ["tenant_id", "skipped"]
  | pageLink => ["page_size", "page"]
  | timePageLink => ["page_link", "start_time", "end_time"]
  | pageData => ["data", "has_next", "total_elements", "total_pages"]

/-- Whether records of a structure never change and can serve as keys. -/
def isFrozen : Shape → Bool
  | entityId | dataWrapper | exportConfig | pageLink | timePageLink => true
  | _ => false

end Shape

/-- A value of a type the export does not know: the name of its type and the texts it has for
people and as a literal. -/
structure Foreign where
  typeName : String
  display : String
  literal : String
  deriving DecidableEq, Repr

/-- A value of which nothing but the type is told. -/
instance : Coe String Foreign where
  coe typeName := ⟨typeName, "<" ++ typeName ++ ">", "<" ++ typeName ++ ">"⟩

/-- A value. `made` is a member of a vocabulary of the caller's own, of which only the value
behind it is known; `foreign` is a value of a type the export does not know; `model` is an object
that gives its content as another value. A set lists its members in the order in which it gives
them. -/
inductive Value where
  | null
  | bool (b : Bool)
  | int (n : Int)
  | float (x : Binary64)
  | str (s : String)
  | bytes (bytes : List UInt8)
  | uuid (u : Uuid)
  | time (t : Timestamp)
  | member (m : Member)
  | made (v : Value)
  | foreign (object : Foreign)
  | model (content : Value)
  | list (items : List Value)
  | tuple (items : List Value)
  | set (items : List Value)
  | frozenSet (items : List Value)
  | dict (entries : List (Value × Value))
  | record (shape : Shape) (fields : List Value)
  deriving Repr, Inhabited

namespace Value

/-- The name of the type of a value. -/
def typeName : Value → String
  | null => "NoneType"
  | bool _ => "bool"
  | int _ => "int"
  | float _ => "float"
  | str _ => "str"
  | bytes _ => "bytes"
  | uuid _ => "UUID"
  | time _ => "datetime"
  | member m => m.vocabulary
  | made _ => "Made"
  | foreign object => object.typeName
  | model _ => "Model"
  | list _ => "list"
  | tuple _ => "tuple"
  | set _ => "set"
  | frozenSet _ => "frozenset"
  | dict _ => "dict"
  | record shape _ => shape.name

/-- The name of the type of a value, with the module of a type that belongs to one. -/
def qualifiedTypeName : Value → String
  | time _ => "datetime.datetime"
  | foreign ⟨"date", _, _⟩ => "datetime.date"
  | foreign ⟨"timedelta", _, _⟩ => "datetime.timedelta"
  | foreign ⟨"Decimal", _, _⟩ => "decimal.Decimal"
  | v => v.typeName

def field? (v : Value) (name : String) : Option Value :=
  match v with
  | record shape fields => (shape.fieldNames.zip fields).lookup name
  | _ => none

/-- The values that a field takes when a record is built without it; none where it is required. -/
def defaults : Shape → List (Option Value)
  | .entityId => [none, none]
  | .tenant => [none, none, some (int 0), some null, some (dict [])]
  | .entity => [none, none, some null, some (int 0), some (dict [])]
  | .entityRelation => [none, none, none, some (str "COMMON"), some (dict [])]
  | .attributeKvEntry => [none, none, none, some null]
  | .attributeKv => [none, none, none]
  | .tsKvEntry => [none, none, none, some null]
  | .latestTsKv => [none, none]
  | .event => [none, none, none, none, none, some null, some (dict [])]
  | .auditLog =>
    [none, none, none, some null, some null, some null, some (str ""), some (str "SUCCESS"),
      some (dict [])]
  | .dataWrapper => [none, none]
  | .exportConfig => [none, some (frozenSet [])]
  | .pageLink => [none, some (int 0)]
  | .timePageLink => [none, none, none]
  | .pageData => [none, some (bool false), some null, some null]

def ofNamed? (shape : Shape) (given : List (String × Value)) : Option Value := do
  let fields ← (shape.fieldNames.zip (defaults shape)).mapM fun (name, default) =>
    (given.lookup name) <|> default
  pure (record shape fields)

def ofPositional? (shape : Shape) (given : List Value) : Option Value :=
  if given.length ≤ shape.fieldNames.length then
    ofNamed? shape (shape.fieldNames.zip given)
  else none

end Value

end Handover
