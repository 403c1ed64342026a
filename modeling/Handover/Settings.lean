import Handover.Binary64.Text
import Handover.Checked
import Handover.Failure
import Handover.Storage.Backend
import Handover.Text.Digits

namespace Handover

/-- The settings of the service. -/
structure Settings where
  appName : String
  apiPath : String
  debug : Bool
  logLevel : String
  baseFolder : String
  backend : String
  archiveName : String
  endpoint : Option String
  accessKey : Option String
  secretKey : Option String
  bucket : String
  region : Option String
  remoteFolder : String
  expiryHours : Int
  entityPageSize : Int
  eventPageSize : Int
  maxQueuedJobs : Int
  telemetryTimeout : Binary64
  sweepSeconds : Int
  allowsResubmission : Bool
  waitsOnShutdown : Bool
  deriving Repr

namespace Settings

/-- A fault of a setting: its name and the kind of the fault. -/
abbrev Fault := String × String

/-- Where settings come from: arguments by name, and variables by name in any case. -/
structure Sources where
  arguments : List (String × Value)
  ambient : List (String × String)

/-- What is given for a setting. -/
def Sources.given? (s : Sources) (name : String) : Option Value :=
  match s.arguments.lookup name with
  | some v => some v
  | none =>
    let matching := s.ambient.filter fun entry => entry.1.toLower = name.toLower
    matching.getLast?.map fun entry => .str entry.2

def trimmed (s : String) : List Char :=
  Text.stripped Text.isBlank s.toList

/-- The integer that a text denotes: a sign, digits, and zeros after a point. -/
def integerOf? (s : String) : Option Int := do
  let (negative, body) := Binary64.takeSign (trimmed s)
  let whole := body.takeWhile (· ≠ '.')
  let fraction := (body.dropWhile (· ≠ '.')).drop 1
  if fraction.all (· = '0') && whole.head?.any Char.isDigit then
    let n ← Binary64.digitsValue? (← Text.ungrouped? Char.isDigit whole)
    pure (if negative then -(n : Int) else n)
  else none

def integer : Value → Except String Int
  | .int n => .ok n
  | .bool b => .ok (if b then 1 else 0)
  | .float x =>
    if x.isIntegral then
      match x.truncate? with
      | some n => if n.natAbs < Binary64.twoTo 63 then .ok n else .error "int_parsing_size"
      | none => .error "finite_number"
    else match x.toRat? with
      | some _ => .error "int_from_float"
      | none => .error "finite_number"
  | .str s =>
    match integerOf? s with
    | some n => .ok n
    | none => .error "int_parsing"
  | _ => .error "int_type"

def positiveInteger (v : Value) : Except String Int := do
  let n ← integer v
  if 0 < n then pure n else .error "greater_than"

def real : Value → Except String Binary64
  | .float x => .ok x
  | .int n => .ok (Binary64.round (n < 0) n.natAbs 1)
  | .bool b => .ok (Binary64.round false (if b then 1 else 0) 1)
  | .str s =>
    match Binary64.ofText? (String.ofList (trimmed s)) with
    | some x => .ok x
    | none => .error "float_parsing"
  | _ => .error "float_type"

def positiveReal (v : Value) : Except String Binary64 := do
  let x ← real v
  match x with
  | .infinite false => pure x
  | .finite false significand _ => if 0 < significand then pure x else .error "greater_than"
  | _ => .error "greater_than"

def trueTexts : List String :=
  ["1", "on", "t", "true", "y", "yes"]

def falseTexts : List String :=
  ["0", "off", "f", "false", "n", "no"]

def truthOf (n : Int) : Except String Bool :=
  if n = 0 then .ok false else if n = 1 then .ok true else .error "bool_parsing"

def truth : Value → Except String Bool
  | .bool b => .ok b
  | .int n => truthOf n
  | .float x =>
    match x.truncate? with
    | some n => if x.isIntegral then truthOf n else .error "bool_type"
    | none => .error "bool_type"
  | .str s =>
    if trueTexts.contains s.toLower then .ok true
    else if falseTexts.contains s.toLower then .ok false
    else .error "bool_parsing"
  | _ => .error "bool_type"

def textual : Value → Except String String
  | .str s => .ok s
  | .member m => .ok m.text
  | _ => .error "string_type"

def optionalText : Value → Except String (Option String)
  | .null => .ok none
  | v => some <$> textual v

def field {α : Type} (s : Sources) (name : String) (read : Value → Except String α) (default : α) :
    Checked Fault α :=
  match s.given? name with
  | none => .valid default
  | some v =>
    match read v with
    | .ok a => .valid a
    | .error kind => .invalid [(name, kind)]

def checked (s : Sources) : Checked Fault Settings :=
  Settings.mk
    <$> field s "APP_NAME" textual "Tenant Export Service"
    <*> field s "API_V1_PREFIX" textual "/api/v1"
    <*> field s "DEBUG" truth false
    <*> field s "LOG_LEVEL" textual "INFO"
    <*> field s "EXPORT_BASE_DIR" textual "./exports"
    <*> field s "EXPORT_STORAGE_BACKEND" textual "local"
    <*> field s "EXPORT_ARCHIVE_FILENAME" textual "data.tar"
    <*> field s "S3_ENDPOINT_URL" optionalText none
    <*> field s "AWS_ACCESS_KEY_ID" optionalText none
    <*> field s "AWS_SECRET_ACCESS_KEY" optionalText none
    <*> field s "S3_BUCKET_NAME" textual "tenant-exports"
    <*> field s "S3_REGION_NAME" optionalText none
    <*> field s "EXPORT_S3_PREFIX" textual "exports"
    <*> field s "EXPORT_EXPIRY_HOURS" positiveInteger 24
    <*> field s "EXPORT_ENTITY_PAGE_SIZE" positiveInteger 100
    <*> field s "EXPORT_EVENT_PAGE_SIZE" positiveInteger 512
    <*> field s "EXPORT_MAX_QUEUED_JOBS" positiveInteger 16
    <*> field s "EXPORT_LATEST_TELEMETRY_TIMEOUT_SECONDS" positiveReal (Binary64.round false 60 1)
    <*> field s "EXPORT_REGISTRY_SWEEP_INTERVAL_SECONDS" positiveInteger 300
    <*> field s "EXPORT_ALLOW_RESUBMIT_WHILE_RUNNING" truth false
    <*> field s "EXPORT_SHUTDOWN_WAIT" truth false

def sortedFaults (faults : List Fault) : List Fault :=
  faults.mergeSort fun a b => a.1 < b.1 || (a.1 = b.1 && a.2 ≤ b.2)

def ofSources (s : Sources) : Except Failure Settings :=
  match checked s with
  | .valid settings => .ok settings
  | .invalid faults => .error (.invalidSettings (sortedFaults faults))

def standard : Settings :=
  ⟨"Tenant Export Service", "/api/v1", false, "INFO", "./exports", "local", "data.tar", none, none,
    none, "tenant-exports", none, "exports", 24, 100, 512, 16, Binary64.round false 60 1, 300,
    false, false⟩

def fields (s : Settings) : List (String × Value) :=
  let optional (o : Option String) : Value := o.elim .null .str
  [("APP_NAME", .str s.appName), ("API_V1_PREFIX", .str s.apiPath), ("DEBUG", .bool s.debug),
    ("LOG_LEVEL", .str s.logLevel), ("EXPORT_BASE_DIR", .str s.baseFolder),
    ("EXPORT_STORAGE_BACKEND", .str s.backend), ("EXPORT_ARCHIVE_FILENAME", .str s.archiveName),
    ("S3_ENDPOINT_URL", optional s.endpoint), ("AWS_ACCESS_KEY_ID", optional s.accessKey),
    ("AWS_SECRET_ACCESS_KEY", optional s.secretKey), ("S3_BUCKET_NAME", .str s.bucket),
    ("S3_REGION_NAME", optional s.region), ("EXPORT_S3_PREFIX", .str s.remoteFolder),
    ("EXPORT_EXPIRY_HOURS", .int s.expiryHours),
    ("EXPORT_ENTITY_PAGE_SIZE", .int s.entityPageSize),
    ("EXPORT_EVENT_PAGE_SIZE", .int s.eventPageSize),
    ("EXPORT_MAX_QUEUED_JOBS", .int s.maxQueuedJobs),
    ("EXPORT_LATEST_TELEMETRY_TIMEOUT_SECONDS", .float s.telemetryTimeout),
    ("EXPORT_REGISTRY_SWEEP_INTERVAL_SECONDS", .int s.sweepSeconds),
    ("EXPORT_ALLOW_RESUBMIT_WHILE_RUNNING", .bool s.allowsResubmission),
    ("EXPORT_SHUTDOWN_WAIT", .bool s.waitsOnShutdown)]

def retention (s : Settings) : Except Failure Binary64 :=
  match Binary64.ofInt? s.expiryHours with
  | some hours => .ok (hours.scale 3600)
  | none => .error .numberTooLarge

def resolvedBase? (s : Settings) : Option String :=
  if s.baseFolder.startsWith "/" then
    some ("/" ++ "/".intercalate (FileTree.lexical (Workspace.stepsOf s.baseFolder)))
  else none

def remote (s : Settings) : RemoteSettings :=
  ⟨s.endpoint, s.accessKey, s.secretKey, s.bucket, s.region, s.remoteFolder, 3, 300⟩

def storage (s : Settings) : Except Failure Storage :=
  let workspace := Workspace.new s.archiveName
  let backend := s.backend.toLower
  if backend = "local" then .ok (.here workspace)
  else if backend = "s3" then .remote <$> RemoteStorage.new s.remote workspace
  else .error (.unsupportedBackend s.backend)

end Settings

end Handover
