import Handover.Failure

namespace Handover

/-- The state of a job of the worker. -/
inductive Phase where
  | queued
  | running
  | finished
  | cancelled
  deriving DecidableEq, Repr

namespace Phase

/-- Whether a job in this state still counts. -/
def isPending : Phase → Bool
  | queued => true
  | running => true
  | _ => false

end Phase

/-- An accepted job and its state. -/
structure WorkerJob (τ : Type) where
  job : τ
  phase : Phase
  deriving Repr

/-- A worker; it keeps every job that it ever accepted, in order. -/
structure Worker (τ : Type) where
  capacity : Int
  isOpen : Bool
  jobs : List (WorkerJob τ)
  deriving Repr

namespace Worker

variable {τ : Type}

/-- A worker for a positive number of pending jobs. -/
def new (capacity : Int) : Except Failure (Worker τ) :=
  if capacity ≤ 0 then .error .capacityNotPositive else .ok ⟨capacity, true, []⟩

def depth (w : Worker τ) : Nat :=
  (w.jobs.filter fun j => j.phase.isPending).length

def isFull (w : Worker τ) : Bool :=
  w.capacity ≤ w.depth

def hasStarted (w : Worker τ) : Bool :=
  !w.jobs.isEmpty

def submit (w : Worker τ) (job : τ) : Except Failure (Worker τ) :=
  if !w.isOpen then .error .workerShutdown
  else if w.isFull then .error (.queueFull (.int w.capacity))
  else .ok { w with jobs := w.jobs ++ [⟨job, .queued⟩] }

def next? (w : Worker τ) : Option Nat :=
  w.jobs.findIdx? fun j => j.phase = .queued

def setPhase (w : Worker τ) (place : Nat) (phase : Phase) : Worker τ :=
  { w with jobs := w.jobs.modify place fun j => { j with phase } }

/-- Starts the oldest job that waits; gives its place and the job. -/
def start? (w : Worker τ) : Option (Nat × τ × Worker τ) := do
  let place ← w.next?
  let job ← w.jobs[place]?
  pure (place, job.job, w.setPhase place .running)

def runNext (w : Worker τ) : Option (τ × Worker τ) := do
  let (place, job, started) ← w.start?
  pure (job, started.setPhase place .finished)

def runSome (w : Worker τ) : Nat → List τ × Worker τ
  | 0 => ([], w)
  | n + 1 =>
    match w.runNext with
    | none => ([], w)
    | some (job, w') =>
      let (jobs, w'') := w'.runSome n
      (job :: jobs, w'')

def runAll (w : Worker τ) : List τ × Worker τ :=
  w.runSome w.depth

/-- Cancels the job at a place if it has not been started; tells whether it is cancelled. -/
def cancel (w : Worker τ) (place : Nat) : Bool × Worker τ :=
  match w.jobs[place]? with
  | some ⟨_, .queued⟩ => (true, w.setPhase place .cancelled)
  | some ⟨_, .cancelled⟩ => (true, w)
  | _ => (false, w)

def phase? (w : Worker τ) (place : Nat) : Option Phase :=
  w.jobs[place]?.map (·.phase)

/-- The places of the jobs in some phases, in the order of their submission. -/
def places (w : Worker τ) (is : Phase → Bool) : List Nat :=
  (w.jobs.zipIdx.filter fun x => is x.1.phase).map (·.2)

/-- The places of the jobs that a drain waits for: those that are pending when it is asked. -/
def awaited (w : Worker τ) : List Nat :=
  w.places Phase.isPending

/-- Whether none of the jobs at some places is pending any more. -/
def haveEnded (w : Worker τ) (places : List Nat) : Bool :=
  places.all fun place => (w.phase? place).all fun phase => !phase.isPending

/-- What a drain tells that gives up at once: whether the jobs have ended that it would wait for. -/
def isDrained (w : Worker τ) : Bool :=
  w.haveEnded w.awaited

def shutdown (w : Worker τ) : Worker τ :=
  { w with
    isOpen := false
    jobs := w.jobs.map fun j => if j.phase = .queued then { j with phase := .cancelled } else j }

end Worker

end Handover
