namespace Handover

/-- The types of exported records. Categories of entities are visited in this order. -/
inductive RecordType where
  | tenant
  | customer
  | queue
  | rpc
  | ruleChain
  | otaPackage
  | resource
  | event
  | ruleNode
  | entityView
  | widgetsBundle
  | widgetType
  | dashboard
  | deviceProfile
  | device
  | deviceCredentials
  | assetProfile
  | asset
  | edge
  | notificationTarget
  | notificationTemplate
  | notificationRule
  | alarm
  | user
  | attributeKv
  | latestTsKv
  | relation
  | auditLog
  deriving DecidableEq, Repr

namespace RecordType

def all : List RecordType :=
  [tenant, customer, queue, rpc, ruleChain, otaPackage, resource, event, ruleNode, entityView,
    widgetsBundle, widgetType, dashboard, deviceProfile, device, deviceCredentials, assetProfile,
    asset, edge, notificationTarget, notificationTemplate, notificationRule, alarm, user,
    attributeKv, latestTsKv, relation, auditLog]

/-- The name under which records of a type are written. -/
def text : RecordType → String
  | tenant => "tenant"
  | customer => "customer"
  | queue => "queue"
  | rpc => "rpc"
  | ruleChain => "rule_chain"
  | otaPackage => "ota_package"
  | resource => "resource"
  | event => "event"
  | ruleNode => "rule_node"
  | entityView => "entity_view"
  | widgetsBundle => "widgets_bundle"
  | widgetType => "widget_type"
  | dashboard => "dashboard"
  | deviceProfile => "device_profile"
  | device => "device"
  | deviceCredentials => "device_credentials"
  | assetProfile => "asset_profile"
  | asset => "asset"
  | edge => "edge"
  | notificationTarget => "notification_target"
  | notificationTemplate => "notification_template"
  | notificationRule => "notification_rule"
  | alarm => "alarm"
  | user => "user"
  | attributeKv => "attribute_kv"
  | latestTsKv => "latest_ts_kv"
  | relation => "relation"
  | auditLog => "audit_log"

/-- Records of these types are no entities of a category: they belong to the tenant as a whole or
to the entity they are exported with. -/
def nonEntities : List RecordType :=
  [tenant, relation, event, attributeKv, latestTsKv, auditLog]

/-- The categories of entities to visit when the types of a list are left out. -/
def categories (skipped : List RecordType) : List RecordType :=
  all.filter fun type => !(nonEntities.contains type || skipped.contains type)

end RecordType

/-- The scopes in which an entity has attributes. -/
inductive AttributeScope where
  | client
  | server
  | shared
  deriving DecidableEq, Repr

namespace AttributeScope

def all : List AttributeScope :=
  [client, server, shared]

def text : AttributeScope → String
  | client => "client_scope"
  | server => "server_scope"
  | shared => "shared_scope"

end AttributeScope

/-- The types of events of an entity. -/
inductive EventType where
  | error
  | lifecycle
  | stats
  | debugRuleNode
  | debugRuleChain
  deriving DecidableEq, Repr

namespace EventType

def all : List EventType :=
  [error, lifecycle, stats, debugRuleNode, debugRuleChain]

def text : EventType → String
  | error => "error"
  | lifecycle => "lc_event"
  | stats => "stats"
  | debugRuleNode => "debug_rule_node"
  | debugRuleChain => "debug_rule_chain"

/-- The partitioned table that holds the events of a type. -/
def table : EventType → String
  | error => "error_event"
  | lifecycle => "lc_event"
  | stats => "stats_event"
  | debugRuleNode => "rule_node_debug_event"
  | debugRuleChain => "rule_chain_debug_event"

end EventType

def auditLogTable : String := "audit_log"

/-- The states of an export job. -/
inductive JobStatus where
  | submitted
  | running
  | succeeded
  | failed
  deriving DecidableEq, Repr

namespace JobStatus

def all : List JobStatus :=
  [submitted, running, succeeded, failed]

def text : JobStatus → String
  | submitted => "submitted"
  | running => "running"
  | succeeded => "succeeded"
  | failed => "failed"

/-- Whether a job in this state has ended. -/
def isTerminal : JobStatus → Bool
  | succeeded => true
  | failed => true
  | _ => false

end JobStatus

/-- A member of one of the vocabularies. -/
inductive Member where
  | recordType (t : RecordType)
  | scope (s : AttributeScope)
  | eventType (e : EventType)
  | status (s : JobStatus)
  deriving DecidableEq, Repr

namespace Member

/-- The text that a member stands for. -/
def text : Member → String
  | recordType t => t.text
  | scope s => s.text
  | eventType e => e.text
  | status s => s.text

def vocabulary : Member → String
  | recordType _ => "ObjectType"
  | scope _ => "AttributeScope"
  | eventType _ => "EventType"
  | status _ => "ExportStatus"

def name (m : Member) : String :=
  m.text.toUpper

def ofVocabulary (vocabulary : String) : List Member :=
  if vocabulary = "ObjectType" then RecordType.all.map .recordType
  else if vocabulary = "AttributeScope" then AttributeScope.all.map .scope
  else if vocabulary = "EventType" then EventType.all.map .eventType
  else if vocabulary = "ExportStatus" then JobStatus.all.map .status
  else []

def index (m : Member) : Nat :=
  (ofVocabulary m.vocabulary).idxOf m

def table? : Member → Option String
  | eventType e => some e.table
  | _ => none

def ofText? (vocabulary text : String) : Option Member :=
  (ofVocabulary vocabulary).find? fun m => m.text == text

end Member

end Handover
