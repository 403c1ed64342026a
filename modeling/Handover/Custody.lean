import Handover.Act
import Handover.JobResult

namespace Handover

/-- Where a table of counts lies: with the result that counts in it, or among the copies that have
been made of that, in their order. -/
inductive Place where
  | own
  | copy (number : Nat)
  deriving DecidableEq, Repr

/-- A result and what its callers have of it: how often its clock has been read, the copies of its
counts, and the places of the tables that were handed out. -/
structure Custody (τ : Type) where
  result : JobResult τ
  readings : Nat
  copies : List (List (RecordType × Nat))
  handed : List Place

namespace Custody

variable {τ : Type} (moments : Nat → τ)

/-- A result that is submitted now, dated with the first reading of a clock. The clock is known by
the moments that its readings give. -/
def opened (tenant : Uuid) : Custody τ :=
  ⟨.submitted tenant (moments 0), 1, [], []⟩

def readClock : Act (Custody τ) τ := do
  let c ← get
  set { c with readings := c.readings + 1 }
  pure (moments c.readings)

def amend (change : JobResult τ → JobResult τ) : Act (Custody τ) Unit :=
  modify fun c => { c with result := change c.result }

def start : Act (Custody τ) Unit := do
  let r := (← get).result
  if r.status ≠ .submitted then throw (.cannotStart (.uuid r.tenant) r.status)
  amend fun r => { r with status := .running }
  let now ← readClock moments
  amend fun r => { r with startedAt := some now }

def finish (status : JobStatus) (error : Option String) : Act (Custody τ) Unit := do
  let r := (← get).result
  if r.isDone then throw (.alreadyFinished (.uuid r.tenant) r.status)
  amend fun r => { r with status }
  amend fun r => { r with error }
  let now ← readClock moments
  amend fun r => { r with completedAt := some now }

def mark : Mark → Act (Custody τ) Unit
  | .running => start moments
  | .succeeded => finish moments .succeeded none
  | .failed error => finish moments .failed error

def report (type : RecordType) : Act (Custody τ) Unit :=
  amend fun r => r.report type

def count (type : RecordType) : Act (Custody τ) Nat := do
  return (← get).result.count type

/-- Hands out a copy of the counts; gives what is in it. -/
def stats : Act (Custody τ) (List (RecordType × Nat)) := do
  let c ← get
  set { c with
    copies := c.copies ++ [c.result.stats]
    handed := c.handed ++ [Place.copy c.copies.length] }
  pure c.result.stats

/-- Changes the table at a place. -/
def write (place : Place) (change : List (RecordType × Nat) → List (RecordType × Nat))
    (c : Custody τ) : Custody τ :=
  match place with
  | .own => { c with result := { c.result with stats := change c.result.stats } }
  | .copy number => { c with copies := c.copies.modify number change }

/-- What somebody does who changes one of the tables that were handed out. -/
def edit (number : Nat) (change : List (RecordType × Nat) → List (RecordType × Nat)) :
    Act (Custody τ) Unit :=
  modify fun c => c.handed[number]?.elim c fun place => c.write place change

end Custody

end Handover
