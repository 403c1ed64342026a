import Handover.Storage.Remote

namespace Handover

/-- The storage of an export. -/
inductive Storage where
  | here (workspace : Workspace)
  | remote (storage : RemoteStorage)
  deriving Repr

/-- The things an export does with its storage. -/
inductive StorageCall where
  | prepare
  | save
  | close
  | pack
  | fetch
  | cleanUp
  deriving DecidableEq, Repr

namespace StorageCall

/-- The name of a call in a journal. -/
def label : StorageCall → String
  | prepare => "storage.init"
  | save => "storage.save"
  | close => "storage.close_export_data"
  | pack => "storage.archive_export_data"
  | fetch => "storage.download_export_data"
  | cleanUp => "storage.clean_up_export_data"

end StorageCall

namespace Storage

def workspace : Storage → Workspace
  | here w => w
  | remote s => s.staging

def withWorkspace (s : Storage) (w : Workspace) : Storage :=
  match s with
  | here _ => here w
  | remote s => remote { s with staging := w }

def staged {α : Type} (act : Act Workspace α) : Act Storage α :=
  act.onPart workspace withWorkspace

/-- Does one thing to a workspace alone, or another one to a workspace with an object store. -/
def either {α : Type} (alone : Act Workspace α) (both : Act RemoteStorage α) : Act Storage α :=
  Act.ofOutcome fun
    | .here w =>
      let (result, w') := alone.outcome w
      (result, .here w')
    | .remote s =>
      let (result, s') := both.outcome s
      (result, .remote s')

def prepare (tenant : Uuid) : Act Storage Unit :=
  staged (Workspace.prepare tenant)

def save (tenant : Uuid) (type : RecordType) (record : Value) : Act Storage Unit :=
  staged (Workspace.save tenant type type record)

def close (tenant : Uuid) : Act Storage Unit :=
  staged (Workspace.close tenant)

def pack (tenant : Uuid) : Act Storage Unit :=
  either (Workspace.pack tenant) (RemoteStorage.pack tenant)

def fetch (tenant : Uuid) : Act Storage Archive :=
  either (Workspace.fetch tenant) (RemoteStorage.fetch tenant)

def cleanUp (tenant : Uuid) : Act Storage Unit :=
  either (Workspace.cleanUp tenant) (RemoteStorage.cleanUp tenant)

def objects? : Storage → Option ObjectStore
  | here _ => none
  | remote s => some s.store

def mapObjects (f : ObjectStore → ObjectStore) : Storage → Storage
  | here w => here w
  | remote s => remote { s with store := f s.store }

end Storage

end Handover
