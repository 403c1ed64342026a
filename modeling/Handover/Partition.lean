import Handover.Pager

namespace Handover

/-- A closed window of time in milliseconds. -/
structure Window where
  start : Int
  stop : Int
  deriving DecidableEq, Repr

namespace Partition

/-- Puts a start into its place among ascending ones, unless it is there. -/
def insertStart (start : Int) : List Int → List Int
  | [] => [start]
  | s :: rest =>
    if start < s then start :: s :: rest
    else if start = s then s :: rest
    else s :: insertStart start rest

def distinctStarts (starts : List Int) : List Int :=
  starts.foldr insertStart []

def windowsFrom (now : Int) : List Int → List Window
  | [] => []
  | [start] => [⟨start, now⟩]
  | start :: following :: rest => ⟨start, following - 1⟩ :: windowsFrom now (following :: rest)

/-- The windows of a table whose partitions start at `starts`, in ascending order. -/
def plan (starts : List Int) (now : Int) : List Window :=
  windowsFrom now (distinctStarts starts)

variable {m : Type → Type} [Monad m] {α : Type}

def windows (starts : m (List Int)) (now : m Int) : m (List Window) := do
  let found ← starts
  if found.isEmpty then pure [] else return plan found (← now)

variable [Fallible m]

/-- Visits the rows of one window after another, until no more are wanted. -/
def visitWindows (bound : Nat) (size : Int) (fetch : TimePageLink → m (Page α))
    (visit : α → m Bool) : List Window → m Bool
  | [] => pure true
  | window :: rest => do
    let fetchIn := fun link => fetch ⟨link, window.start, window.stop⟩
    if ← Pager.visitPages bound size fetchIn visit then
      visitWindows bound size fetch visit rest
    else pure false

def forEach (bound : Nat) (size : Int) (starts : m (List Int)) (now : m Int)
    (fetch : TimePageLink → m (Page α)) (visit : α → m Unit) : m Unit := do
  let found ← windows starts now
  discard (visitWindows bound size fetch (fun row => do visit row; pure true) found)

end Partition

end Handover
