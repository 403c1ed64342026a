import Handover.Proofs.Storage

namespace Handover

/-- A thing to do with what is stored for a tenant. A record may be labelled with another type than
the one under which it is saved; of a record whose texts hold surrogates there is only the line. -/
inductive Chore where
  | prepare
  | save (type lineType : RecordType) (record : Value)
  | saveLine (type : RecordType) (line : List CodePoint) (whole : CodePoint.char '\n' ∉ line)
  | close
  | pack
  | fetch
  | cleanUp

namespace Workspace

/-- Does a chore; only a fetch has more to answer than that it is done. -/
def perform (tenant : Uuid) : Chore → Act Workspace (Option Archive)
  | .prepare => (fun _ => none) <$> prepare tenant
  | .save type lineType record => (fun _ => none) <$> save tenant type lineType record
  | .saveLine type line _ => (fun _ => none) <$> saveLine tenant type line
  | .close => (fun _ => none) <$> close tenant
  | .pack => (fun _ => none) <$> pack tenant
  | .fetch => some <$> fetch tenant
  | .cleanUp => (fun _ => none) <$> cleanUp tenant

def performed (w : Workspace) (chores : List (Uuid × Chore)) : Workspace :=
  chores.foldl (fun w next => ((perform next.1 next.2).outcome w).2) w

end Workspace

namespace Storage

def perform (tenant : Uuid) : Chore → Act Storage (Option Archive)
  | .prepare => (fun _ => none) <$> prepare tenant
  | .save type lineType record =>
    (fun _ => none) <$> staged (Workspace.save tenant type lineType record)
  | .saveLine type line _ => (fun _ => none) <$> staged (Workspace.saveLine tenant type line)
  | .close => (fun _ => none) <$> close tenant
  | .pack => (fun _ => none) <$> pack tenant
  | .fetch => some <$> fetch tenant
  | .cleanUp => (fun _ => none) <$> cleanUp tenant

end Storage

end Handover
