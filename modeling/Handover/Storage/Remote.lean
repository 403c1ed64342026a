import Handover.Storage.ObjectStore
import Handover.Storage.Workspace
import Handover.Text.Digits

namespace Handover

/-- How the object store is reached and where archives lie in it. -/
structure RemoteSettings where
  endpoint : Option String
  accessKey : Option String
  secretKey : Option String
  bucket : String
  region : Option String
  folder : String
  retries : Int
  timeout : Int
  deriving DecidableEq, Repr

namespace RemoteSettings

/-- What keeps the settings from being used. -/
def fault? (s : RemoteSettings) : Option Failure :=
  if s.bucket.isEmpty then some .bucketRequired
  else if s.retries < 0 then some .negativeRetries
  else if s.timeout ≤ 0 then some .timeoutNotPositive
  else none

def fields (s : RemoteSettings) : List (String × Value) :=
  let optional (o : Option String) : Value := o.elim .null .str
  [("endpoint_url", optional s.endpoint), ("access_key_id", optional s.accessKey),
    ("secret_access_key", optional s.secretKey), ("bucket_name", .str s.bucket),
    ("region_name", optional s.region), ("prefix", .str s.folder),
    ("max_retries", .int s.retries), ("timeout_seconds", .int s.timeout)]

end RemoteSettings

/-- Storage in an object store with a workspace for staging. The client of the store is made when
it is first needed. -/
structure RemoteStorage where
  settings : RemoteSettings
  staging : Workspace
  store : ObjectStore
  isConnected : Bool
  deriving Repr

namespace RemoteStorage

/-- Storage with settings that can be used. -/
def new (settings : RemoteSettings) (staging : Workspace) : Except Failure RemoteStorage :=
  match settings.fault? with
  | some failure => .error failure
  | none => .ok ⟨settings, staging, .empty, false⟩

def withoutSlashes (s : String) : String :=
  String.ofList (Text.stripped (· = '/') s.toList)

def archiveKey (s : RemoteStorage) (tenant : Uuid) : String :=
  let name := tenant.text ++ "/" ++ s.staging.archiveName
  let folder := withoutSlashes s.settings.folder
  if folder.isEmpty then name else folder ++ "/" ++ name

def archivePlace (s : RemoteStorage) (tenant : Uuid) : String :=
  s.settings.bucket ++ "/" ++ s.archiveKey tenant

def staged {α : Type} (act : Act Workspace α) : Act RemoteStorage α :=
  act.onPart (·.staging) fun s staging => { s with staging }

def call {α : Type} (operation : ObjectStore → Except ObjectFault α × ObjectStore) :
    Act RemoteStorage (Except ObjectFault α) :=
  Act.ofOutcome fun s =>
    let (result, store) := operation s.store
    (.ok result, { s with store, isConnected := true })

def pack (tenant : Uuid) : Act RemoteStorage Unit := do
  staged (Workspace.pack tenant)
  let s ← get
  let content ← Act.settle ((s.staging.archiveAt tenant).mapError .file)
  match ← call (·.put (s.archivePlace tenant) content) with
  | .ok () => staged (Workspace.cleanUp tenant)
  | .error (.refused refusal) => throw (.refused .put (s.archiveKey tenant) refusal)
  | .error (.credentials incomplete) => throw (.uploadCredentials incomplete)
  | .error (.other failure) => throw failure

def saysAbsent (refusal : Refusal) : Bool :=
  refusal.codeText = "NoSuchKey" || refusal.codeText = "404"

def fetch (tenant : Uuid) : Act RemoteStorage Archive := do
  let s ← get
  match ← call (·.get (s.archivePlace tenant)) with
  | .ok content => pure content
  | .error (.refused refusal) =>
    if saysAbsent refusal then
      throw (.archiveNotFound (.uuid tenant) (.str ("s3://" ++ s.archivePlace tenant)))
    else throw (.refused .get (s.archiveKey tenant) refusal)
  | .error (.credentials incomplete) => throw (.credentials incomplete)
  | .error (.other failure) => throw failure

def deleteArchive (tenant : Uuid) : Act RemoteStorage Unit := do
  let s ← get
  match ← call (·.delete (s.archivePlace tenant)) with
  | .ok () => pure ()
  | .error (.refused refusal) => throw (.refused .delete (s.archiveKey tenant) refusal)
  | .error (.credentials incomplete) => throw (.credentials incomplete)
  | .error (.other failure) => throw failure

/-- Deletes the archive of a tenant and, even if that fails, everything staged for it. -/
def cleanUp (tenant : Uuid) : Act RemoteStorage Unit :=
  (deleteArchive tenant).followedBy (staged (Workspace.cleanUp tenant))

end RemoteStorage

end Handover
