import Handover.Job
import Handover.JobResult
import Handover.Json.Line
import Handover.Rehearsal.Script

namespace Handover

/-- A record that was saved, as a line. -/
structure SavedLine where
  tenant : Uuid
  type : RecordType
  line : String
  deriving Repr

/-- The state of a rehearsed traversal. Of the saves, the one with a certain number may fail. -/
structure Traversal where
  store : Store
  script : Script Unit
  saves : Nat
  failingSave : Option Nat
  saved : List SavedLine
  stats : List (RecordType × Nat)
  deriving Repr

namespace Traversal

/-- Answers a question as the script has it. -/
def ask : Source Traversal := fun q => do
  let t ← get
  let (reaction, script) := (t.script.note q).call q.label
  set { t with script }
  match reaction with
  | some (.fails failure) => throw failure
  | some (.answers v) => Act.settle (q.replyOf v)
  | some (.promises telemetry) => Act.settle (q.promised telemetry)
  | _ => Act.settle (t.store.answer q)

def keep (tenant : Uuid) (type : RecordType) (record : Value) : Act Traversal Unit := do
  let t ← get
  let number := t.saves + 1
  set { t with saves := number }
  if t.failingSave = some number then throw (.ofReport .os (some "disk full"))
  let line ← Act.settle (Json.line type record)
  modify fun t => { t with
    saved := t.saved ++ [⟨tenant, type, line⟩]
    stats := JobResult.increment type t.stats }

def ports (catalogue : Catalogue) (tenant : Uuid) (now : Int) : JobPorts Traversal where
  serve type := Act.settle (catalogue.serving type)
  ask := ask
  now := pure now
  keep := keep tenant

/-- Traverses the data of a tenant and, if wanted, its audit logs. -/
def run (plan : JobPlan) (tenant : Tenant) (skipped : List RecordType) (now : Int) (audits : Bool)
    (pageBound : Nat) : Act Traversal Unit := do
  let p := ports plan.catalogue tenant.id now
  (Job.traverse plan pageBound tenant skipped).run p
  if audits then (Job.exportAuditLogs pageBound plan.eventPageSize tenant.id).run p

end Traversal

end Handover
