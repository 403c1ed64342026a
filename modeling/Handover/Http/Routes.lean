import Handover.Text.Digits

namespace Handover.Http

/-- What can be asked for. -/
inductive Endpoint where
  | submit
  | status
  | download
  | delete
  | queue
  | health
  | welcome
  deriving DecidableEq, Repr

/-- A part of the path of a route: a certain text, or the identifier of a tenant. -/
inductive Part where
  | fixed (text : String)
  | tenant
  deriving DecidableEq, Repr

structure Route where
  method : String
  parts : List Part
  endpoint : Endpoint
  deriving Repr

/-- The parts of a fixed path. -/
def fixedParts (path : String) : List Part :=
  (Text.parts '/' path).map .fixed

def routes (apiPath : String) : List Route :=
  let exports := fixedParts (apiPath ++ "/export/tenants")
  [⟨"POST", exports, .submit⟩,
    ⟨"GET", exports ++ [.tenant, .fixed "status"], .status⟩,
    ⟨"GET", exports ++ [.tenant, .fixed "download"], .download⟩,
    ⟨"DELETE", exports ++ [.tenant], .delete⟩,
    ⟨"GET", fixedParts (apiPath ++ "/export/queue"), .queue⟩,
    ⟨"GET", fixedParts "/health", .health⟩,
    ⟨"GET", fixedParts "/", .welcome⟩]

/-- The identifier in a path that fits some parts, empty where they have none; nothing when the path
does not fit. -/
def fit? : List Part → List String → Option String
  | [], [] => some ""
  | .fixed text :: parts, part :: rest => if part = text then fit? parts rest else none
  | .tenant :: parts, part :: rest =>
    if part.isEmpty then none else (fit? parts rest).map fun _ => part
  | _, _ => none

/-- Where a request leads. -/
inductive Destination where
  | found (endpoint : Endpoint) (tenant : String)
  | otherMethod
  | otherPath
  | nowhere
  deriving DecidableEq, Repr

/-- The routes that a path fits, with the identifier in it. -/
def fitting (routes : List Route) (path : String) : List (Route × String) :=
  let parts := Text.parts '/' path
  routes.filterMap fun route => (fit? route.parts parts).map fun tenant => (route, tenant)

def otherSlash (path : String) : String :=
  if path.endsWith "/" then String.ofList (path.toList.reverse.dropWhile (· = '/')).reverse
  else path ++ "/"

/-- Finds the route of a request. A path that fits only with another slash at its end is
redirected. -/
def destination (routes : List Route) (method path : String) : Destination :=
  match fitting routes path with
  | [] =>
    if path ≠ "/" && !(fitting routes (otherSlash path)).isEmpty then .otherPath else .nowhere
  | fits =>
    match fits.find? fun fit => fit.1.method = method with
    | some (route, tenant) => .found route.endpoint tenant
    | none => .otherMethod

end Handover.Http
