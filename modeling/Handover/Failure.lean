import Handover.Value.Literal

namespace Handover

/-- Why a path cannot be opened. -/
inductive FileFault where
  | noEntry
  | notDirectory
  | isDirectory
  deriving DecidableEq, Repr

namespace FileFault

/-- The number of the fault. -/
def number : FileFault → Nat
  | noEntry => 2
  | notDirectory => 20
  | isDirectory => 21

def kind : FileFault → String
  | noEntry => "FileNotFoundError"
  | notDirectory => "NotADirectoryError"
  | isDirectory => "IsADirectoryError"

end FileFault

/-- The operations of an object store. -/
inductive ObjectOperation where
  | put
  | get
  | delete
  deriving DecidableEq, Repr

namespace ObjectOperation

def name : ObjectOperation → String
  | put => "PutObject"
  | get => "GetObject"
  | delete => "DeleteObject"

def verb : ObjectOperation → String
  | put => "uploading"
  | get => "downloading"
  | delete => "deleting"

end ObjectOperation

/-- The answer with which an object store refuses an operation. -/
structure Refusal where
  code : Option String
  message : Option String
  deriving DecidableEq, Repr

namespace Refusal

/-- The code of a refusal; a refusal without one is unknown. -/
def codeText (r : Refusal) : String :=
  r.code.getD "Unknown"

def text (r : Refusal) (operation : ObjectOperation) : String :=
  "An error occurred (" ++ r.codeText ++ ") when calling the " ++ operation.name
    ++ " operation: " ++ r.message.getD "Unknown"

end Refusal

/-- The kind of a failure that a collaborator reports: the name of its class, and whether it counts
as running out of time. The export's own kinds of timeout are none of these. -/
structure ReportedKind where
  name : String
  isTimeout : Bool := false
  simple : ':' ∉ name.toList := by decide
  outside : isTimeout = true → name ≠ "LatestTelemetryTimeoutError" := by decide
  deriving DecidableEq, Repr

namespace ReportedKind

def runtime : ReportedKind := { name := "RuntimeError" }

def value : ReportedKind := { name := "ValueError" }

def key : ReportedKind := { name := "KeyError" }

def os : ReportedKind := { name := "OSError" }

def timeout : ReportedKind := { name := "TimeoutError", isTimeout := true }

def cancelled : ReportedKind := { name := "CancelledError" }

def lookup : ReportedKind := { name := "LookupError" }

def exporting : ReportedKind := { name := "TenantExportError" }

def state : ReportedKind := { name := "ExportStateError" }

def objectStore : ReportedKind := { name := "S3ServiceError" }

def workerShutdown : ReportedKind := { name := "ExportWorkerShutdownError" }

/-- The kinds that are known by their names. -/
def all : List ReportedKind :=
  [runtime, value, key, os, timeout, cancelled, lookup, exporting, state, objectStore,
    workerShutdown]

end ReportedKind

/-- A failure by its cause. -/
inductive Failure where
  -- the export service
  | tenantNotFound (tenant : Value)
  | resultNotFound (key : Value)
  | notReady (tenant : Value)
  | exportFailed (tenant error : Value)
  | alreadyRunning (tenant : Value)
  | queueFull (capacity : Value)
  | telemetryTimeout (entity seconds : Value)
  | unsupportedType (type : Value)
  | archiveNotFound (tenant location : Value)
  | workerShutdown
  | cannotStart (tenant : Value) (status : JobStatus)
  | alreadyFinished (tenant : Value) (status : JobStatus)
  -- arguments
  | pageSizeNotPositive
  | retentionNotPositive
  | capacityNotPositive
  | badUuid (fault : Uuid.Fault)
  | notAMember (value : Value) (vocabulary : String)
  | unsupportedBackend (backend : String)
  | invalidSettings (faults : List (String × String))
  -- values
  | notSerializable (typeName : String)
  | unhashable (typeName : String)
  | notCopyable (typeName : String)
  | notOrdered (left right : String)
  | mixedOffsets
  | keyNotAllowed (typeName : String)
  | noAttribute (typeName name : String)
  | notIterable (typeName : String)
  | divisionByZero
  | notANumeral (typeName : String)
  | notANumber
  | infiniteNumber
  | numberTooLarge
  -- storage
  | file (fault : FileFault)
  | notEncodable (start : Nat) (surrogates : List Nat)
  | badApiPath (isStart : Bool)
  | bucketRequired
  | negativeRetries
  | timeoutNotPositive
  | refused (operation : ObjectOperation) (key : String) (refusal : Refusal)
  | uploadCredentials (incomplete : Bool)
  | credentials (incomplete : Bool)
  -- collaborators
  | cleanerStopped
  | endlessPages
  | reported (kind : ReportedKind) (args : List Value)
  deriving Repr

namespace Failure

/-- A failure of a kind with an optional message. -/
def ofReport (kind : ReportedKind) (message : Option String) : Failure :=
  .reported kind (message.toList.map .str)

def credentialsText (incomplete : Bool) : String :=
  if incomplete then "Partial credentials found in env, missing: AWS_SECRET_ACCESS_KEY"
  else "Unable to locate credentials"

def kind : Failure → String
  | tenantNotFound _ => "TenantNotFoundError"
  | resultNotFound _ => "ExportResultNotFoundError"
  | notReady _ => "ExportNotReadyError"
  | exportFailed .. => "ExportFailedError"
  | alreadyRunning _ => "ExportAlreadyRunningError"
  | queueFull _ => "ExportQueueFullError"
  | telemetryTimeout .. => "LatestTelemetryTimeoutError"
  | unsupportedType _ => "UnsupportedObjectTypeError"
  | archiveNotFound .. => "ExportArtifactNotFoundError"
  | workerShutdown => "ExportWorkerShutdownError"
  | cannotStart .. => "ExportStateError"
  | alreadyFinished .. => "ExportStateError"
  | pageSizeNotPositive => "ValueError"
  | retentionNotPositive => "ValueError"
  | capacityNotPositive => "ValueError"
  | badUuid _ => "ValueError"
  | notAMember .. => "ValueError"
  | unsupportedBackend _ => "ValueError"
  | invalidSettings _ => "ValidationError"
  | notSerializable _ => "TypeError"
  | unhashable _ => "TypeError"
  | notCopyable _ => "TypeError"
  | notOrdered .. => "TypeError"
  | mixedOffsets => "TypeError"
  | keyNotAllowed _ => "TypeError"
  | noAttribute .. => "AttributeError"
  | notIterable _ => "TypeError"
  | divisionByZero => "ZeroDivisionError"
  | notANumeral _ => "TypeError"
  | notANumber => "ValueError"
  | infiniteNumber => "OverflowError"
  | numberTooLarge => "OverflowError"
  | file fault => fault.kind
  | notEncodable .. => "UnicodeEncodeError"
  | badApiPath _ => "AssertionError"
  | bucketRequired => "S3ServiceError"
  | negativeRetries => "S3ServiceError"
  | timeoutNotPositive => "S3ServiceError"
  | refused .. => "S3ServiceError"
  | uploadCredentials _ => "S3ServiceError"
  | credentials incomplete =>
    if incomplete then "PartialCredentialsError" else "NoCredentialsError"
  | cleanerStopped => "RuntimeError"
  | endlessPages => "RuntimeError"
  | reported kind _ => kind.name

/-- The message of a failure reported with some arguments: none, the only one, or all of them. A
missing key is shown as a literal. -/
def reportedMessage (kind : ReportedKind) : List Value → String
  | [] => ""
  | [arg] => if kind = .key then arg.literal else arg.display
  | args => (Value.tuple args).literal

/-- What cannot be encoded: one surrogate, or several in a row. -/
def unencoded (start : Nat) : List Nat → String
  | [code] =>
    "character '\\u" ++ String.ofList (Text.hexDigits 4 code) ++ "' in position " ++ toString start
  | codes =>
    "characters in position " ++ toString start ++ "-" ++ toString (start + codes.length - 1)

def message : Failure → String
  | tenantNotFound tenant => "Tenant with id " ++ tenant.display ++ " not found"
  | resultNotFound key => "Export result for tenant id " ++ key.display ++ " not found"
  | notReady tenant => "Export for tenant id " ++ tenant.display ++ " is not ready yet"
  | exportFailed _ error => "Tenant export failed: " ++ error.display
  | alreadyRunning tenant => "Export for tenant id " ++ tenant.display ++ " is already in progress"
  | queueFull capacity => "Export queue is full (" ++ capacity.display ++ " jobs pending)"
  | telemetryTimeout entity seconds =>
    "Timed out after " ++ seconds.display ++ "s waiting for latest telemetry of " ++ entity.display
  | unsupportedType type =>
    "No tenant entity DAO registered for object type "
      ++ (match type with
        | .member m => m.text
        | .made v => v.display
        | v => v.display)
  | archiveNotFound tenant location =>
    "Export archive for tenant id " ++ tenant.display ++ " not found at " ++ location.display
  | workerShutdown => "Export worker is shut down"
  | cannotStart tenant status =>
    "Cannot start export for tenant " ++ tenant.display ++ " in " ++ status.text ++ " state"
  | alreadyFinished tenant status =>
    "Export for tenant " ++ tenant.display ++ " already finished with status " ++ status.text
  | pageSizeNotPositive => "Page size must be positive"
  | retentionNotPositive => "ttl_seconds must be positive"
  | capacityNotPositive => "max_queued_jobs must be positive"
  | badUuid .badlyFormed => "badly formed hexadecimal UUID string"
  | badUuid (.badDigits digits) =>
    "invalid literal for int() with base 16: " ++ Text.quoted digits
  | notAMember value vocabulary => value.literal ++ " is not a valid " ++ vocabulary
  | unsupportedBackend backend => "Unsupported export storage backend: " ++ backend
  | invalidSettings faults =>
    "; ".intercalate (faults.map fun fault => fault.1 ++ " " ++ fault.2)
  | notSerializable typeName => "Object of type " ++ typeName ++ " is not JSON serializable"
  | unhashable typeName => "unhashable type: '" ++ typeName ++ "'"
  | notCopyable typeName => "cannot pickle '" ++ typeName ++ "' object"
  | notOrdered left right =>
    "'<' not supported between instances of '" ++ left ++ "' and '" ++ right ++ "'"
  | mixedOffsets => "can't compare offset-naive and offset-aware datetimes"
  | keyNotAllowed typeName =>
    "keys must be str, int, float, bool or None, not " ++ typeName
  | noAttribute typeName name =>
    "'" ++ typeName ++ "' object has no attribute '" ++ name ++ "'"
  | notIterable typeName => "'" ++ typeName ++ "' object is not iterable"
  | divisionByZero => "integer division or modulo by zero"
  | notANumeral typeName =>
    "int() argument must be a string, a bytes-like object or a real number, not '" ++ typeName
      ++ "'"
  | notANumber => "cannot convert float NaN to integer"
  | infiniteNumber => "cannot convert float infinity to integer"
  | numberTooLarge => "int too large to convert to float"
  | file fault => "errno " ++ toString fault.number
  | notEncodable start surrogates => "'utf-8' codec can't encode " ++ unencoded start surrogates
      ++ ": surrogates not allowed"
  | badApiPath isStart =>
    if isStart then "A path prefix must start with '/'"
    else "A path prefix must not end with '/', as the routes will start with '/'"
  | bucketRequired => "S3 bucket name is required"
  | negativeRetries => "Max retries must be non-negative"
  | timeoutNotPositive => "Timeout must be positive"
  | refused operation key refusal =>
    "S3 ClientError [" ++ refusal.codeText ++ "] " ++ operation.verb ++ " " ++ key ++ ": "
      ++ refusal.text operation
  | uploadCredentials incomplete => "S3 Credentials Error: " ++ credentialsText incomplete
  | credentials incomplete => credentialsText incomplete
  | cleanerStopped => "cannot schedule new futures after shutdown"
  | endlessPages => "the source has more pages than it declared"
  | reported kind args => reportedMessage kind args

/-- The trace that a failed job keeps of its failure: the kind, and the message if there is one, as in
the last line of a traceback. What stands above that line goes by the code that the failure has come
through, which is another one for each backend, and is left out. -/
def trace (f : Failure) : String :=
  "<trace> " ++ f.kind ++ (if f.message.isEmpty then "" else ": " ++ f.message)

def isTimeout : Failure → Bool
  | reported kind _ => kind.isTimeout
  | _ => false

def isObjectStore : Failure → Bool
  | bucketRequired | negativeRetries | timeoutNotPositive => true
  | refused .. => true
  | uploadCredentials _ => true
  | reported kind _ => kind = .objectStore
  | _ => false

def lineage (f : Failure) : List String :=
  let root := ["Exception", "BaseException", "object"]
  let name := f.kind
  if name = "TenantExportError" ∨ name = "S3ServiceError" then name :: root
  else if name = "TenantNotFoundError" then name :: "TenantExportError" :: "ValueError" :: root
  else if name = "ExportWorkerShutdownError" then
    name :: "TenantExportError" :: "RuntimeError" :: root
  else name :: "TenantExportError" :: root

def attributes : Failure → List (String × Value)
  | tenantNotFound tenant => [("tenant_id", tenant)]
  | resultNotFound key => [("tenant_id", key)]
  | notReady tenant => [("tenant_id", tenant)]
  | exportFailed tenant error => [("tenant_id", tenant), ("error", error)]
  | alreadyRunning tenant => [("tenant_id", tenant)]
  | queueFull capacity => [("max_queued_jobs", capacity)]
  | telemetryTimeout entity seconds => [("entity_id", entity), ("timeout_seconds", seconds)]
  | unsupportedType type => [("object_type", type)]
  | archiveNotFound tenant location => [("tenant_id", tenant), ("location", location)]
  | _ => []

/-- A failure of the export of a kind given by name, from what it says about its cause. A type
that no category can have is itself a failure. -/
def ofNamed? (name : String) (args : List Value) : Option (Except Failure Failure) :=
  match name, args with
  | "TenantNotFoundError", [tenant] => some (.ok (tenantNotFound tenant))
  | "ExportResultNotFoundError", [key] => some (.ok (resultNotFound key))
  | "ExportNotReadyError", [tenant] => some (.ok (notReady tenant))
  | "ExportFailedError", [tenant, error] => some (.ok (exportFailed tenant error))
  | "ExportAlreadyRunningError", [tenant] => some (.ok (alreadyRunning tenant))
  | "ExportQueueFullError", [capacity] => some (.ok (queueFull capacity))
  | "LatestTelemetryTimeoutError", [entity, seconds] =>
    some (.ok (telemetryTimeout entity seconds))
  | "UnsupportedObjectTypeError", [type] =>
    some (match type with
      | .member _ | .made _ => .ok (unsupportedType type)
      | v => .error (noAttribute v.qualifiedTypeName "value"))
  | "ExportArtifactNotFoundError", [tenant, location] =>
    some (.ok (archiveNotFound tenant location))
  | "TenantExportError", args => some (.ok (reported .exporting args))
  | "ExportStateError", args => some (.ok (reported .state args))
  | "ExportWorkerShutdownError", args => some (.ok (reported .workerShutdown args))
  | "S3ServiceError", args => some (.ok (reported .objectStore args))
  | _, _ => none

end Failure

theorem ok_of_bind {α β : Type} {x : Except Failure α} {f : α → Except Failure β} {b : β}
    (h : x >>= f = .ok b) : ∃ a, x = .ok a ∧ f a = .ok b := by
  cases x with
  | error failure => cases h
  | ok a => exact ⟨a, rfl, h⟩

theorem ok_of_map {α β : Type} {x : Except Failure α} {g : α → β} {b : β} (h : g <$> x = .ok b) :
    ∃ a, x = .ok a ∧ g a = b := by
  cases x with
  | error failure => cases h
  | ok a =>
    cases h
    exact ⟨a, rfl, rfl⟩

end Handover
