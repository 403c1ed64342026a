import Handover.Http.Application
import Handover.Millis
import Handover.Rehearsal.Script

namespace Handover

/-- The steps of a rehearsal. Tenants are named by texts. -/
inductive Step where
  | submit (tenant : String) (skipped : List RecordType)
  | run (count : Option Nat)
  | fill (count : Nat)
  | inspect (tenant : String)
  | peek (tenant : String)
  | download (tenant : String)
  | leftovers (tenant : String)
  | delete (tenant : String)
  | purge
  | advance (seconds : Rat)
  | drain
  | mark (tenant : String) (mark : Mark)
  | add (addition : Addition)
  | rescript (entries : List (Scripted Step))
  | breakObjects (operation : ObjectOperation) (fault : Option ObjectFault)
  | shutdownWorker
  | shutdown
  | request (request : Http.Request)
  | forgetService
  | forgetSettings

mutual

/-- What a step answers. -/
inductive StepReply where
  | done
  | handle (tenant : Uuid)
  | flag (b : Bool)
  | count (n : Nat)
  | result (r : Option JobResult)
  | archive (members : Archive)
  | files (files : List (String × List String))
  | runs (reports : List RunReport)
  | response (r : Http.Response)

/-- The report of a job that was run: the failure that has left it, and the answers to the steps
performed during it. -/
inductive RunReport where
  | mk (raised : Option Failure) (during : List StepAnswer)

/-- The outcome of a step, and then the depth of the queue, the number of registered results, the
files, and the places of the object store if there is one. -/
inductive StepAnswer where
  | mk (outcome : Except Failure StepReply) (depth registered : Nat) (files : List String)
    (objects : Option (List String))

end

/-- What is rehearsed with: the data, the script, the answers to the steps of scripted calls, and
the parts of the application that are gone. -/
structure Rehearsal where
  store : Store
  script : Script Step
  during : List StepAnswer
  hasService : Bool
  hasSettings : Bool

/-- How a rehearsal is set up. The time is that of the source of times, in seconds. -/
structure Stage where
  settings : Settings
  catalogue : Catalogue
  time : Value
  pageBound : Nat
  jobBound : Nat

namespace Stage

abbrev Scene := World Rehearsal

/-- How jobs read. -/
def plan (stage : Stage) : JobPlan :=
  ⟨stage.catalogue, stage.settings.entityPageSize, stage.settings.eventPageSize,
    .float stage.settings.telemetryTimeout, Related.all⟩

/-- The retention of results as an exact number; one that is not finite lies beyond all others. -/
def retentionOf (seconds : Binary64) : Rat :=
  seconds.toRat?.getD (Binary64.twoTo 1024 : Nat)

def pathFault? (stage : Stage) : Option Failure :=
  let path := stage.settings.apiPath
  if path.isEmpty then none
  else if !path.startsWith "/" then some (.badApiPath true)
  else if path.endsWith "/" then some (.badApiPath false)
  else none

def opening (stage : Stage) (store : Store) (entries : List (Scripted Step))
    (isApplication : Bool) : Except Failure Scene := do
  let storage ← stage.settings.storage
  let registry ← Registry.new (retentionOf (← stage.settings.retention)) true .idle
  let worker ← Worker.new stage.settings.maxQueuedJobs
  match stage.pathFault? with
  | some failure => if isApplication then throw failure
  | none => pure ()
  pure ⟨⟨store, .new entries, [], true, true⟩, [], registry, 1000, worker, storage, ⟨0⟩, []⟩

def reaction (label : String) : Act Scene (Option (Reaction Step)) := do
  let w ← get
  let (found, script) := w.data.script.call label
  set { w with data := { w.data with script } }
  pure found

/-- Answers a question as the script has it; `ahead` performs a step. -/
def ask (ahead : Step → Act Scene Unit) : Source Scene := fun q => do
  match ← reaction q.label with
  | some (.fails failure) => throw failure
  | some (.answers v) => Act.settle (q.replyOf v)
  | some (.promises telemetry) => Act.settle (q.promised telemetry)
  | some (.first steps) => do
    steps.forM ahead
    Act.settle ((← get).data.store.answer q)
  | none => Act.settle ((← get).data.store.answer q)

def before (ahead : Step → Act Scene Unit) (call : StorageCall) : Act Scene Unit := do
  match ← reaction call.label with
  | some (.fails failure) => throw failure
  | some (.first steps) => steps.forM ahead
  | _ => pure ()

def environment (stage : Stage) (ahead : Step → Act Scene Unit) : Environment Rehearsal where
  ask := ask ahead
  before := before ahead
  now := Act.settle (millisOf stage.time)
  plan := stage.plan
  pageBound := stage.pageBound
  allowsResubmission := stage.settings.allowsResubmission
  keepsUp := true

def tenantOf (text : String) : Act Scene Uuid :=
  Act.settle ((Uuid.ofLooseText text).mapError .badUuid)

def runJobs (env : Environment Rehearsal) : Nat → Act Scene (List RunReport)
  | 0 => pure []
  | n + 1 => do
    modify fun w => { w with data := { w.data with during := [] } }
    match ← Service.runNext env with
    | none => pure []
    | some outcome =>
      let raised := match outcome with
        | .ok () => none
        | .error failure => some failure
      let report := RunReport.mk raised (← get).data.during
      return report :: (← runJobs env n)

def fill : Nat → Act Scene Unit
  | 0 => pure ()
  | n + 1 => do
    Service.enqueue .filler
    fill n

def act (stage : Stage) (env : Environment Rehearsal) : Step → Act Scene StepReply
  | .submit text skipped => do
    let tenant ← tenantOf text
    return .handle (← Service.submit env tenant skipped)
  | .run count => return .runs (← runJobs env (count.getD stage.jobBound))
  | .fill count => do
    fill count
    pure .done
  | .inspect text => return .result (some (← Service.getResult env (← tenantOf text)))
  | .peek text => return .result (← Service.peekResult (← tenantOf text))
  | .download text => return .archive (← Service.download env (← tenantOf text))
  | .leftovers text => do
    let tenant ← tenantOf text
    return .files ((← get).storage.workspace.leftovers tenant)
  | .delete text => do
    Service.delete env (← tenantOf text)
    pure .done
  | .purge => return .count (← Service.purge env)
  | .advance seconds => do
    Service.advance seconds
    pure .done
  | .drain => return .flag (← get).worker.isDrained
  | .mark text mark => do
    Service.markResult (← Service.ticketOf env (← tenantOf text)) mark
    pure .done
  | .add addition => do
    modify fun w => { w with data := { w.data with store := w.data.store.add addition } }
    pure .done
  | .rescript entries => do
    modify fun w => { w with data := { w.data with script := .new entries } }
    pure .done
  | .breakObjects operation fault => do
    modify fun w => { w with storage := w.storage.mapObjects (·.setFault operation fault) }
    pure .done
  | .shutdownWorker => do
    Service.shutdownWorker
    pure .done
  | .shutdown => do
    Service.shutdown env
    pure .done
  | .request request => do
    let data := (← get).data
    let app : Http.Application Rehearsal :=
      ⟨env, stage.settings, stage.time, data.hasService, data.hasSettings⟩
    return .response (← app.handle request)
  | .forgetService => do
    modify fun w => { w with data := { w.data with hasService := false } }
    pure .done
  | .forgetSettings => do
    modify fun w => { w with data := { w.data with hasSettings := false } }
    pure .done

def observed (act : Act Scene StepReply) : Act Scene StepAnswer := do
  let outcome ← act.attempt
  let w ← get
  pure (.mk outcome w.worker.depth w.registry.size w.storage.workspace.files
    (w.storage.objects?.map ObjectStore.places))

/-- Performs a step. Scripted calls may perform steps of their own, nested at most `depth` deep. -/
def perform (stage : Stage) : Nat → Step → Act Scene StepAnswer
  | 0, step => observed (act stage (stage.environment fun _ => pure ()) step)
  | depth + 1, step =>
    let ahead (inner : Step) : Act Scene Unit := do
      let answer ← perform stage depth inner
      modify fun w => { w with data := { w.data with during := w.data.during ++ [answer] } }
    observed (act stage (stage.environment ahead) step)

def performAll (stage : Stage) (depth : Nat) (steps : List Step) : Act Scene (List StepAnswer) :=
  steps.mapM (stage.perform depth)

end Stage

end Handover
