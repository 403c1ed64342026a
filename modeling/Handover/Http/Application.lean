import Handover.Http.Payload
import Handover.Http.Routes
import Handover.Http.Target
import Handover.Service
import Handover.Settings

namespace Handover.Http

/-- The body of a response. -/
inductive Body where
  | value (v : Value)
  | archive (members : Archive)
  | text (s : String)
  deriving Repr

structure Response where
  status : Nat
  headers : List (String × String)
  body : Body
  deriving Repr

/-- A request as it is received. -/
structure Request where
  method : String
  target : String
  body : RequestBody
  deriving Repr

/-- The application around a service. A part that is gone is done without: requests for exports are
refused without the service, and without the settings those of the defaults hold. -/
structure Application (δ : Type) where
  env : Environment δ
  settings : Settings
  timestamp : Value
  hasService : Bool
  hasSettings : Bool

/-- The version of the service. -/
def version : String := "0.1.0"

def answered (status : Nat) (v : Value) : Response :=
  ⟨status, [], .value v⟩

def refused (status : Nat) (detail : String) : Response :=
  answered status (Value.ofTexts [("detail", .str detail)])

def unprocessable (faults : List PayloadFault) : Response :=
  answered 422 (.list (faults.map .list))

def internalError : Response :=
  ⟨500, [], .text "Internal Server Error"⟩

def unavailable : Response :=
  refused 503 "Export service not available."

def submitFailure : Failure → Response
  | f@(.tenantNotFound _) => refused 400 f.message
  | f@(.alreadyRunning _) => refused 409 f.message
  | f@(.queueFull _) => refused 429 f.message
  | .workerShutdown => refused 503 Failure.workerShutdown.message
  | f@(.reported kind _) =>
    if kind = .workerShutdown then refused 503 f.message else internalError
  | _ => internalError

def downloadFailure (f : Failure) : Response :=
  match f with
  | .resultNotFound _ => refused 404 f.message
  | .archiveNotFound .. => refused 404 f.message
  | .notReady _ => refused 409 "Not ready yet"
  | .exportFailed .. => refused 500 f.message
  | f => if f.isObjectStore then refused 502 f.message else internalError

def statusFailure : Failure → Response
  | f@(.resultNotFound _) => refused 404 f.message
  | _ => internalError

def deleteFailure : Failure → Response
  | f@(.resultNotFound _) => refused 404 f.message
  | f@(.alreadyRunning _) => refused 409 f.message
  | _ => internalError

def exportPath (settings : Settings) (tenant : Uuid) (last : String) : String :=
  settings.apiPath ++ "/export/tenants/" ++ tenant.text ++ "/" ++ last

def moment : Option Instant → Value
  | none => .null
  | some i => .str i.zuluText

def submitted (settings offered : Settings) (tenant : Uuid) (r : JobResult) : Response :=
  answered 202 (Value.ofTexts [
    ("job_id", .str tenant.text), ("status", .str r.status.text),
    ("submitted_at", moment (some r.submittedAt)),
    ("expires_in_hours", .int offered.expiryHours),
    ("status_url", .str (exportPath settings tenant "status"))])

def described (settings : Settings) (tenant : Uuid) (r : JobResult) : Response :=
  answered 200 (Value.ofTexts [
    ("job_id", .str r.tenant.text), ("status", .str r.status.text), ("done", .bool r.isDone),
    ("success", .bool r.isSuccess), ("error", r.error.elim .null .str),
    ("stats", Value.ofTexts (r.stats.map fun entry => (entry.1.text, .int entry.2))),
    ("submitted_at", moment (some r.submittedAt)), ("started_at", moment r.startedAt),
    ("completed_at", moment r.completedAt),
    ("download_url",
      if r.isSuccess then .str (exportPath settings tenant "download") else .null)])

def delivered (offered : Settings) (members : Archive) : Response :=
  let name := offered.archiveName
  if name.toList.all fun c => c.toNat < 256 then
    ⟨200, [("content-disposition", "attachment;filename=" ++ name),
      ("content-type", "application/x-tar"), ("x-filename", name)], .archive members⟩
  else internalError

variable {δ : Type}

namespace Application

def offered (app : Application δ) : Settings :=
  if app.hasSettings then app.settings else Settings.standard

def respond {α : Type} (act : Act (World δ) α) (failed : Failure → Response) (ok : α → Response) :
    Act (World δ) Response := do
  match ← act.attempt with
  | .ok a => pure (ok a)
  | .error failure => pure (failed failure)

def forTenant (app : Application δ) (text : String) (act : Uuid → Act (World δ) Response) :
    Act (World δ) Response :=
  if app.hasService then
    match pathTenant text with
    | .valid tenant => act tenant
    | .invalid faults => pure (unprocessable faults)
  else pure unavailable

def submit (app : Application δ) (body : RequestBody) : Act (World δ) Response :=
  match body.read with
  | .invalid faults => pure (unprocessable faults)
  | .valid content =>
    if app.hasService then
      match exportRequest content with
      | .invalid faults => pure (unprocessable faults)
      | .valid request => do
        match ← (Service.submit app.env request.tenant request.skipped).attempt with
        | .error failure => pure (submitFailure failure)
        | .ok tenant =>
          respond (Service.getResult app.env tenant) (fun _ => internalError)
            (submitted app.settings app.offered tenant)
    else pure unavailable

def health (app : Application δ) : Act (World δ) Response := do
  let w ← get
  let head (status : String) : List (String × Value) :=
    [("status", .str status), ("version", .str version), ("timestamp", app.timestamp),
      ("export_service_loaded", .bool app.hasService)]
  if app.hasService then
    pure (answered 200 (Value.ofTexts (head "healthy" ++ [
      ("registered_results", .int w.registry.size), ("queue_depth", .int w.worker.depth),
      ("max_queued_jobs", .int w.worker.capacity)])))
  else pure (answered 200 (Value.ofTexts (head "degraded")))

def queue (app : Application δ) : Act (World δ) Response := do
  let w ← get
  if app.hasService then
    pure (answered 200 (Value.ofTexts [("queue_depth", .int w.worker.depth),
      ("max_queued_jobs", .int w.worker.capacity)]))
  else pure unavailable

def serve (app : Application δ) (tenant : String) (body : RequestBody) :
    Endpoint → Act (World δ) Response
  | .submit => app.submit body
  | .status => app.forTenant tenant fun id =>
    respond (Service.getResult app.env id) statusFailure (described app.settings id)
  | .download => app.forTenant tenant fun id =>
    respond (Service.download app.env id) downloadFailure (delivered app.offered)
  | .delete => app.forTenant tenant fun id =>
    respond (Service.delete app.env id) deleteFailure fun _ =>
      answered 200 (Value.ofTexts [("message", .str "Export deleted successfully")])
  | .queue => app.queue
  | .health => app.health
  | .welcome => pure (answered 200 (Value.ofTexts [
      ("message", .str ("Welcome to " ++ app.settings.appName ++ " - Version " ++ version))]))

def handle (app : Application δ) (request : Request) : Act (World δ) Response :=
  match destination (routes app.settings.apiPath) request.method (pathOf request.target) with
  | .found endpoint tenant => app.serve tenant request.body endpoint
  | .otherMethod => pure (refused 405 "Method Not Allowed")
  | .otherPath => pure ⟨307, [], .text ""⟩
  | .nowhere => pure (refused 404 "Not Found")

end Application

end Handover.Http
