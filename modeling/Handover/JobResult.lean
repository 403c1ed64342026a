import Handover.Failure

namespace Handover

/-- The clock that dates results: it has been read `readings` times and gains a second with every
reading. -/
structure WallClock where
  readings : Nat
  deriving DecidableEq, Repr

namespace WallClock

/-- The moment that the next reading gives. -/
def now (c : WallClock) : Instant :=
  ⟨c.readings⟩

def tick (c : WallClock) : WallClock :=
  ⟨c.readings + 1⟩

end WallClock

/-- The result of a job of a tenant, dated with moments of any kind. Types are counted in the order
of their first records. -/
structure JobResult (τ : Type := Instant) where
  tenant : Uuid
  status : JobStatus
  error : Option String
  stats : List (RecordType × Nat)
  submittedAt : τ
  startedAt : Option τ
  completedAt : Option τ
  deriving Repr

namespace JobResult

variable {τ : Type}

/-- The result of a job that is submitted now. -/
def submitted (tenant : Uuid) (now : τ) : JobResult τ :=
  ⟨tenant, .submitted, none, [], now, none, none⟩

def isDone (r : JobResult τ) : Bool :=
  r.status.isTerminal

def isSuccess (r : JobResult τ) : Bool :=
  r.status = .succeeded

def increment (type : RecordType) : List (RecordType × Nat) → List (RecordType × Nat)
  | [] => [(type, 1)]
  | (t, n) :: rest => if t = type then (t, n + 1) :: rest else (t, n) :: increment type rest

def count (r : JobResult τ) (type : RecordType) : Nat :=
  (r.stats.lookup type).getD 0

def report (r : JobResult τ) (type : RecordType) : JobResult τ :=
  { r with stats := increment type r.stats }

def markRunning (r : JobResult τ) (now : τ) : Except Failure (JobResult τ) :=
  if r.status = .submitted then .ok { r with status := .running, startedAt := some now }
  else .error (.cannotStart (.uuid r.tenant) r.status)

def finish (r : JobResult τ) (status : JobStatus) (error : Option String) (now : τ) :
    Except Failure (JobResult τ) :=
  if r.isDone then .error (.alreadyFinished (.uuid r.tenant) r.status)
  else .ok { r with status, error, completedAt := some now }

def markSucceeded (r : JobResult τ) (now : τ) : Except Failure (JobResult τ) :=
  r.finish .succeeded none now

def markFailed (r : JobResult τ) (error : Option String) (now : τ) :
    Except Failure (JobResult τ) :=
  r.finish .failed error now

def summary (r : JobResult τ) : String :=
  "ExportResult(tenant_id=" ++ r.tenant.text ++ ", status=" ++ r.status.text ++ ")"

def statsText (stats : List (RecordType × Nat)) : String :=
  if stats.isEmpty then "nothing exported"
  else ", ".intercalate (stats.map fun entry => entry.1.text ++ "=" ++ toString entry.2)

end JobResult

/-- A change of a result that a clock dates. -/
inductive Mark where
  | running
  | succeeded
  | failed (error : Option String)
  deriving DecidableEq, Repr

namespace Mark

/-- The mark with which a job ends that had an outcome. -/
def ofOutcome : Except Failure Unit → Mark
  | .ok () => succeeded
  | .error failure => failed (some failure.trace)

def apply {τ : Type} (mark : Mark) (r : JobResult τ) (now : τ) : Except Failure (JobResult τ) :=
  match mark with
  | running => r.markRunning now
  | succeeded => r.markSucceeded now
  | failed error => r.markFailed error now

end Mark

/-- Applies a mark to a result. The clock is read only when the mark is accepted, and a refused
mark changes nothing. -/
def JobResult.mark (r : JobResult) (mark : Mark) (clock : WallClock) :
    Except Failure Unit × JobResult × WallClock :=
  match mark.apply r clock.now with
  | .ok r' => (.ok (), r', clock.tick)
  | .error failure => (.error failure, r, clock)

end Handover
