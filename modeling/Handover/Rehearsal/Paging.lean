import Handover.Partition

namespace Handover

/-- What a reading has done so far: the links it has asked for and the rows it has visited. -/
structure Reading (κ α : Type) where
  asked : List κ
  rows : List α
  deriving Repr

namespace Reading

variable {κ α : Type}

/-- A reading that has not begun. -/
def new : Reading κ α :=
  ⟨[], []⟩

def fetching (pages : κ → Except Failure (Page α)) (link : κ) : Act (Reading κ α) (Page α) := do
  modify fun r => { r with asked := r.asked ++ [link] }
  Act.settle (pages link)

def visiting (limit : Option Nat) (row : α) : Act (Reading κ α) Bool := do
  modify fun r => { r with rows := r.rows ++ [row] }
  let count := (← get).rows.length
  pure (limit.all fun n => count < n)

def paged (pages : PageLink → Except Failure (Page α)) (bound : Nat) (size : Int)
    (limit : Option Nat) : Act (Reading PageLink α) Bool :=
  if limit = some 0 then pure false
  else Pager.visitPages bound size (fetching pages) (visiting limit)

/-- A whole reading: its end, the rows that it visited and the links that it asked for. -/
structure Account (κ α : Type) where
  ended : Except Failure Bool
  reading : Reading κ α

/-- Reads the same pages anew for each limit. -/
def pagedAnew (pages : PageLink → Except Failure (Page α)) (bound : Nat) (size : Int)
    (limits : List (Option Nat)) : Except Failure (List (Account PageLink α)) :=
  if size ≤ 0 then .error .pageSizeNotPositive
  else .ok (limits.map fun limit =>
    let (ended, reading) := (paged pages bound size limit).outcome new
    ⟨ended, reading⟩)

def givenPages (pages : List (Except Failure (List α × Bool))) (link : PageLink) :
    Except Failure (Page α) :=
  match pages[link.page.toNat]? with
  | some (.ok (rows, hasNext)) => .ok ⟨rows, hasNext, none, none⟩
  | some (.error failure) => .error failure
  | none => .error (.ofReport .lookup (some "no such page"))

def partitioned (pages : TimePageLink → Except Failure (Page α)) (starts : List Int) (now : Int)
    (bound : Nat) (size : Int) (limit : Option Nat) : Act (Reading TimePageLink α) Bool :=
  if limit = some 0 then pure false
  else do
    let windows ← Partition.windows (pure starts) (pure now)
    Partition.visitWindows bound size (fetching pages) (visiting limit) windows

def timesWithin (times : List Int) (window : TimePageLink) : Except Failure (Page Int) :=
  Page.cut (times.filter window.covers) window.link

end Reading

/-- What a look for partitions has done so far: the tables it has asked for, and how often it has
read the clock. -/
structure Lookup where
  asked : List String
  clockReadings : Nat
  deriving Repr

namespace Lookup

/-- Looks for the windows of a table whose partitions start at `starts`. -/
def windows (table : String) (starts : List Int) (now : Int) : Act Lookup (List Window) :=
  Partition.windows
    (do
      modify fun l => { l with asked := l.asked ++ [table] }
      pure starts)
    (do
      modify fun l => { l with clockReadings := l.clockReadings + 1 }
      pure now)

end Lookup

end Handover
