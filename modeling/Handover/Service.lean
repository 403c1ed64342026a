import Handover.Job
import Handover.JobResult
import Handover.Registry
import Handover.Storage.Backend
import Handover.Store
import Handover.Worker

namespace Handover

/-- A job of the worker: an export with the number of its result, or a filler that does nothing. -/
inductive Task where
  | filler
  | job (ticket : Nat) (tenant : Tenant) (skipped : List RecordType)
  deriving Repr

/-- The state of the service and everything around it: the data it exports, every result it ever
made, the registry of the results that can be asked for and the time it counts by, the worker, the
storage, the clock that dates results, and the tenants for which a clean-up waits. -/
structure World (δ : Type) where
  data : δ
  results : List JobResult
  registry : Registry Uuid Nat
  time : Rat
  worker : Worker Task
  storage : Storage
  clock : WallClock
  due : List Uuid

/-- How the service is set up. `before` happens ahead of every use of the storage. The cleaner of
the registry works on its own; it may keep up with the notices or come to them later. -/
structure Environment (δ : Type) where
  ask : Source (World δ)
  before : StorageCall → Act (World δ) Unit
  now : Act (World δ) Int
  plan : JobPlan
  pageBound : Nat
  allowsResubmission : Bool
  keepsUp : Bool

namespace World

variable {δ : Type}

/-- The result with a number. -/
def result? (w : World δ) (ticket : Nat) : Option JobResult :=
  w.results[ticket]?

def isEvictable (w : World δ) (ticket : Nat) : Bool :=
  (w.result? ticket).any JobResult.isDone

def setResult (w : World δ) (ticket : Nat) (r : JobResult) : World δ :=
  { w with results := w.results.set ticket r }

def report (w : World δ) (ticket : Nat) (type : RecordType) : World δ :=
  { w with results := w.results.modify ticket fun r => r.report type }

end World

/-- The environment that answers from a store and lets every use of the storage happen. Its cleaner
keeps up. -/
def Environment.ofStore (plan : JobPlan) (now : Int) (allowsResubmission : Bool)
    (pageBound : Nat) : Environment Store where
  ask q := do Act.settle ((← get).data.answer q)
  before _ := pure ()
  now := pure now
  plan := plan
  pageBound := pageBound
  allowsResubmission := allowsResubmission
  keepsUp := true

namespace Service

variable {δ : Type}

def useStorage {α : Type} (env : Environment δ) (call : StorageCall) (act : Act Storage α) :
    Act (World δ) α := do
  env.before call
  act.onPart (·.storage) fun w storage => { w with storage }

def cleanUp (env : Environment δ) (tenant : Uuid) : Act (World δ) Unit :=
  useStorage env .cleanUp (Storage.cleanUp tenant)

/-- Removes what is stored for tenants, one after the other, as far as that works. -/
def cleanUpAll (env : Environment δ) (tenants : List Uuid) : Act (World δ) Unit :=
  tenants.forM fun tenant => (cleanUp env tenant).ignoringFailure

/-- Follows the notices of the registry: what is stored for a tenant that has left is to be removed,
at once or when the cleaner comes to it. -/
def heed (env : Environment δ) (notices : List (Notice Uuid Nat)) : Act (World δ) Unit :=
  if env.keepsUp then cleanUpAll env (notices.map (·.key))
  else modify fun w => { w with due := w.due ++ notices.map (·.key) }

/-- The cleaner comes to the clean-ups that have waited longest. By then their tenants may have new
results. -/
def tend (env : Environment δ) (count : Nat) : Act (World δ) Unit := do
  let w ← get
  set { w with due := w.due.drop count }
  cleanUpAll env (w.due.take count)

def tendAll (env : Environment δ) : Act (World δ) Unit := do
  tend env (← get).due.length

/-- Does something to the registry that may remove entries. -/
def withRegistry {α : Type} (env : Environment δ) (operation : World δ → Removal Uuid Nat α) :
    Act (World δ) α := do
  let w ← get
  let removal := operation w
  set { w with registry := removal.registry }
  heed env removal.notices
  Act.settle removal.answer

def onRegistry {α : Type} (operation : World δ → α × Registry Uuid Nat) : Act (World δ) α := do
  let w ← get
  let (answer, registry) := operation w
  set { w with registry }
  pure answer

/-- The number of the live result of a tenant, whose time starts anew. -/
def ticketOf (env : Environment δ) (tenant : Uuid) : Act (World δ) Nat :=
  withRegistry env fun w =>
    w.registry.get w.isEvictable w.time tenant (.resultNotFound (.uuid tenant))

def resultOf (ticket : Nat) : Act (World δ) JobResult := do
  match (← get).result? ticket with
  | some r => pure r
  | none => throw (.resultNotFound .null)

def getResult (env : Environment δ) (tenant : Uuid) : Act (World δ) JobResult := do
  resultOf (← ticketOf env tenant)

def peekResult (tenant : Uuid) : Act (World δ) (Option JobResult) := do
  let ticket ← onRegistry fun w => w.registry.peek w.isEvictable w.time tenant
  return ticket.bind (← get).result?

def markResult (ticket : Nat) (mark : Mark) : Act (World δ) Unit := do
  let w ← get
  match w.result? ticket with
  | none => pure ()
  | some r =>
    let (answer, r', clock) := r.mark mark w.clock
    set { w.setResult ticket r' with clock }
    Act.settle answer

def keep (env : Environment δ) (ticket : Nat) (tenant : Uuid) (type : RecordType) (record : Value) :
    Act (World δ) Unit := do
  useStorage env .save (Storage.save tenant type record)
  modify fun w => w.report ticket type

def ports (env : Environment δ) (ticket : Nat) (tenant : Uuid) : JobPorts (World δ) where
  serve type := Act.settle (env.plan.catalogue.serving type)
  ask := env.ask
  now := env.now
  keep := keep env ticket tenant

def content (env : Environment δ) (tenant : Tenant) (skipped : List RecordType) : Dialogue Unit :=
  Job.exportTenant env.plan env.pageBound tenant skipped

/-- Exports everything of a tenant into an archive. The files are closed even when the job fails,
and then stay where they are. -/
def exportTenant (env : Environment δ) (ticket : Nat) (tenant : Tenant)
    (skipped : List RecordType) : Act (World δ) Unit := do
  useStorage env .prepare (Storage.prepare tenant.id)
  ((content env tenant skipped).run (ports env ticket tenant.id)).followedBy
    (useStorage env .close (Storage.close tenant.id))
  useStorage env .pack (Storage.pack tenant.id)

/-- Restarts the time of the result of a tenant if it is still the one with a number. -/
def touch (tenant : Uuid) (ticket : Nat) : Act (World δ) Unit :=
  discard <| onRegistry fun w => w.registry.touch w.time tenant ticket

/-- Exports everything of a tenant and ends its result; no failure of the export is left over. -/
def finishExport (env : Environment δ) (ticket : Nat) (tenant : Tenant)
    (skipped : List RecordType) : Act (World δ) Unit := do
  let outcome ← (exportTenant env ticket tenant skipped).attempt
  markResult ticket (.ofOutcome outcome)

def runExport (env : Environment δ) (ticket : Nat) (tenant : Tenant) (skipped : List RecordType) :
    Act (World δ) Unit := do
  markResult ticket .running
  (finishExport env ticket tenant skipped).followedBy (touch tenant.id ticket)

def runTask (env : Environment δ) : Task → Act (World δ) Unit
  | .filler => pure ()
  | .job ticket tenant skipped => runExport env ticket tenant skipped

/-- Runs the oldest job that waits; gives the failure that has left it, if any, and nothing when no
job waits. -/
def runNext (env : Environment δ) : Act (World δ) (Option (Except Failure Unit)) := do
  let w ← get
  match w.worker.start? with
  | none => pure none
  | some (place, task, worker) =>
    set { w with worker }
    let outcome ← (runTask env task).attempt
    modify fun w => { w with worker := w.worker.setPhase place .finished }
    pure (some outcome)

def runJobs (env : Environment δ) : Nat → Act (World δ) (List (Except Failure Unit))
  | 0 => pure []
  | n + 1 => do
    match ← runNext env with
    | none => pure []
    | some outcome => return outcome :: (← runJobs env n)

/-- Makes a result for a tenant and puts it into the registry; gives its number and that of the
result it replaces. -/
def register (tenant : Uuid) : Act (World δ) (Nat × Option Nat) := do
  let w ← get
  let ticket := w.results.length
  let (replaced, registry) := w.registry.put w.time tenant ticket
  set { w with
    registry
    results := w.results ++ [JobResult.submitted tenant w.clock.now]
    clock := w.clock.tick }
  pure (ticket, replaced)

def enqueue (task : Task) : Act (World δ) Unit := do
  let w ← get
  let worker ← Act.settle (w.worker.submit task)
  set { w with worker }

/-- Whether an export may be submitted beside the previous one of its tenant. -/
def verdict (env : Environment δ) (worker : Worker Task) (id : Uuid)
    (previous : Option JobResult) : Except Failure Unit :=
  if previous.any (fun r => !r.isDone) && !env.allowsResubmission then
    .error (.alreadyRunning (.uuid id))
  else if worker.isFull then .error (.queueFull (.int worker.capacity))
  else .ok ()

def approve (env : Environment δ) (id : Uuid) : Act (World δ) Tenant := do
  let found : Option Tenant ← env.ask (.tenant id)
  match found with
  | none => throw (.tenantNotFound (.uuid id))
  | some tenant =>
    let previous ← peekResult id
    let w ← get
    Act.settle (verdict env w.worker id previous)
    pure tenant

/-- Puts the job of an export into the queue; an export whose job is refused is not registered any
longer. -/
def handIn (id : Uuid) (ticket : Nat) (task : Task) : Act (World δ) Unit := do
  match ← (enqueue task).attempt with
  | .ok () => pure ()
  | .error failure =>
    discard <| onRegistry fun w => w.registry.discard id ticket
    throw failure

/-- Removes what is stored for a tenant if the result that is replaced was finished. -/
def cleanReplaced (env : Environment δ) (w : World δ) (id : Uuid) (replaced : Option Nat) :
    Act (World δ) Unit :=
  if replaced.any w.isEvictable then cleanUp env id else pure ()

/-- Registers an export and puts its job into the queue. A finished result that is replaced takes
its stored data with it. -/
def enter (env : Environment δ) (id : Uuid) (tenant : Tenant) (skipped : List RecordType) :
    Act (World δ) Unit := do
  let w ← get
  let (ticket, replaced) ← register id
  cleanReplaced env w id replaced
  handIn id ticket (.job ticket tenant skipped)

def submit (env : Environment δ) (id : Uuid) (skipped : List RecordType) :
    Act (World δ) Uuid := do
  let tenant ← approve env id
  enter env id tenant skipped
  pure id

def download (env : Environment δ) (tenant : Uuid) : Act (World δ) Archive := do
  let r ← getResult env tenant
  if !r.isDone then throw (.notReady (.uuid tenant))
  if !r.isSuccess then
    throw (.exportFailed (.uuid tenant) (r.error.elim .null .str))
  useStorage env .fetch (Storage.fetch tenant)

def delete (env : Environment δ) (tenant : Uuid) : Act (World δ) Unit := do
  let r ← getResult env tenant
  if !r.isDone then throw (.alreadyRunning (.uuid tenant))
  discard (withRegistry env fun w => w.registry.remove tenant)

def purge (env : Environment δ) : Act (World δ) Nat :=
  withRegistry env fun w => w.registry.purge w.isEvictable w.time

def advance (seconds : Rat) : Act (World δ) Unit :=
  modify fun w => { w with time := w.time + seconds }

def shutdownWorker : Act (World δ) Unit :=
  modify fun w => { w with worker := w.worker.shutdown }

/-- Shuts the service down: no job is started any more and every result is removed. The cleaner ends
when nothing waits. -/
def shutdown (env : Environment δ) : Act (World δ) Unit := do
  shutdownWorker
  (withRegistry env fun w => w.registry.close).followedBy (tendAll env)

def queueDepth (w : World δ) : Nat :=
  w.worker.depth

end Service

end Handover
