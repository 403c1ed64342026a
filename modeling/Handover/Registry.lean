import Handover.Failure

namespace Handover

/-- Why an entry has left the registry. -/
inductive RemovalCause where
  | expired
  | explicit
  | shutdown
  deriving DecidableEq, Repr

namespace RemovalCause

def text : RemovalCause → String
  | expired => "expired"
  | explicit => "explicit"
  | shutdown => "shutdown"

end RemovalCause

/-- The notice of a removal. -/
structure Notice (κ ν : Type) where
  key : κ
  value : ν
  cause : RemovalCause
  deriving Repr

/-- A registered value and the time of its last access. -/
structure RegistryEntry (κ ν : Type) where
  key : κ
  value : ν
  lastAccess : Rat
  deriving Repr

/-- What carries notices to the listener: the listener itself, or a helper of the registry's own
that starts with the first notice and may be stopped for good. -/
inductive Cleaner where
  | direct
  | idle
  | started
  | stopped
  deriving DecidableEq, Repr

/-- A registry; entries are in the order in which their keys were first put. -/
structure Registry (κ ν : Type) where
  timeToLive : Rat
  listens : Bool
  cleaner : Cleaner
  entries : List (RegistryEntry κ ν)
  deriving Repr

/-- The outcome of an operation on a registry: its answer, the notices it gave, in order, and the
registry it leaves. -/
structure Removal (κ ν α : Type) where
  answer : Except Failure α
  notices : List (Notice κ ν)
  registry : Registry κ ν

namespace Registry

variable {κ ν : Type}

/-- An empty registry whose values live for a positive time after their last access. -/
def new (timeToLive : Rat) (listens : Bool) (cleaner : Cleaner) : Except Failure (Registry κ ν) :=
  if timeToLive ≤ 0 then .error .retentionNotPositive
  else .ok ⟨timeToLive, listens, cleaner, []⟩

def size (r : Registry κ ν) : Nat :=
  r.entries.length

variable [DecidableEq κ]

def held? (r : Registry κ ν) (key : κ) : Option (RegistryEntry κ ν) :=
  r.entries.find? fun e => e.key = key

def erase (r : Registry κ ν) (key : κ) : Registry κ ν :=
  { r with entries := r.entries.filter fun e => e.key ≠ key }

def access (r : Registry κ ν) (key : κ) (now : Rat) : Registry κ ν :=
  { r with
    entries := r.entries.map fun e => if e.key = key then { e with lastAccess := now } else e }

/-- The entry as an examination leaves it: the time of a value that may not expire starts anew. -/
def examined (evictable : ν → Bool) (now : Rat) (e : RegistryEntry κ ν) : RegistryEntry κ ν :=
  if evictable e.value then e else { e with lastAccess := now }

def isExpired (r : Registry κ ν) (evictable : ν → Bool) (now : Rat) (e : RegistryEntry κ ν) :
    Bool :=
  evictable e.value && r.timeToLive ≤ now - e.lastAccess

/-- Gives notices one after another. With no listener nothing is said; a stopped cleaner refuses
the first one. -/
def tell {α : Type} (r : Registry κ ν) (notices : List (Notice κ ν)) (answer : Except Failure α) :
    Removal κ ν α :=
  if !r.listens || notices.isEmpty then ⟨answer, [], r⟩
  else match r.cleaner with
    | .stopped => ⟨.error .cleanerStopped, [], r⟩
    | .idle => ⟨answer, notices, { r with cleaner := .started }⟩
    | _ => ⟨answer, notices, r⟩

def noticeOf (cause : RemovalCause) (e : RegistryEntry κ ν) : Notice κ ν :=
  ⟨e.key, e.value, cause⟩

/-- Reads the live value under a key and restarts its time. An expired value is removed, and there
is then none. -/
def get (r : Registry κ ν) (evictable : ν → Bool) (now : Rat) (key : κ) (absent : Failure) :
    Removal κ ν ν :=
  match r.held? key with
  | none => ⟨.error absent, [], r⟩
  | some e =>
    if r.isExpired evictable now e then
      (r.erase key).tell [noticeOf .expired e] (.error absent)
    else ⟨.ok e.value, [], r.access key now⟩

/-- Reads the live value under a key without restarting the time of a value that may expire. -/
def peek (r : Registry κ ν) (evictable : ν → Bool) (now : Rat) (key : κ) :
    Option ν × Registry κ ν :=
  match r.held? key with
  | none => (none, r)
  | some e =>
    if r.isExpired evictable now e then (none, r)
    else (some e.value, if evictable e.value then r else r.access key now)

def contains (r : Registry κ ν) (evictable : ν → Bool) (now : Rat) (key : κ) :
    Bool × Registry κ ν :=
  let (found, r') := r.peek evictable now key
  (found.isSome, r')

/-- Puts a value under a key and hands back the one it replaces. A key that is there keeps its
place. -/
def put (r : Registry κ ν) (now : Rat) (key : κ) (value : ν) : Option ν × Registry κ ν :=
  match r.held? key with
  | none => (none, { r with entries := r.entries ++ [⟨key, value, now⟩] })
  | some e =>
    (some e.value,
      { r with entries := r.entries.map fun e => if e.key = key then ⟨key, value, now⟩ else e })

variable [DecidableEq ν]

def touch (r : Registry κ ν) (now : Rat) (key : κ) (value : ν) : Bool × Registry κ ν :=
  match r.held? key with
  | none => (false, r)
  | some e => if e.value = value then (true, r.access key now) else (false, r)

/-- Drops a key that still has a certain value, without a notice. -/
def discard (r : Registry κ ν) (key : κ) (value : ν) : Bool × Registry κ ν :=
  match r.held? key with
  | none => (false, r)
  | some e => if e.value = value then (true, r.erase key) else (false, r)

def remove (r : Registry κ ν) (key : κ) : Removal κ ν Bool :=
  match r.held? key with
  | none => ⟨.ok false, [], r⟩
  | some e => (r.erase key).tell [noticeOf .explicit e] (.ok true)

def purge (r : Registry κ ν) (evictable : ν → Bool) (now : Rat) : Removal κ ν Nat :=
  let gone := r.entries.filter (r.isExpired evictable now)
  let kept := (r.entries.filter fun e => !r.isExpired evictable now e).map (examined evictable now)
  { r with entries := kept }.tell (gone.map (noticeOf .expired)) (.ok gone.length)

/-- Removes every entry and stops a cleaner that was started. -/
def close (r : Registry κ ν) : Removal κ ν Unit :=
  let told := { r with entries := [] }.tell (r.entries.map (noticeOf .shutdown)) (.ok ())
  match told.answer, told.registry.cleaner with
  | .ok (), .started => { told with registry := { told.registry with cleaner := .stopped } }
  | _, _ => told

end Registry

end Handover
