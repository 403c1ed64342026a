import Handover.Query

namespace Handover

/-- What a job wants of its collaborators: the category that serves a type, the answer to a
question, the latest telemetry of an entity, for which it waits, the time, or that a record is
kept. -/
inductive Call where
  | serve (type : RecordType)
  | ask (q : Query)
  | await (tenant : Uuid) (entity : EntityId) (timeout : Value)
  | now
  | keep (type : RecordType) (record : Value)
  deriving Repr

namespace Call

/-- The type of the answer to a call. -/
@[reducible] def Reply : Call → Type
  | serve _ => RecordType
  | ask q => q.Reply
  | await .. => List Value
  | now => Int
  | keep .. => Unit

end Call

/-- A dialogue with a result of type `α`. -/
inductive Dialogue (α : Type) where
  | done (a : α)
  | failed (failure : Failure)
  | call (c : Call) (next : c.Reply → Dialogue α)

namespace Dialogue

variable {α β : Type}

/-- A dialogue that goes on with another one when it is done. -/
def andThen : Dialogue α → (α → Dialogue β) → Dialogue β
  | done a, f => f a
  | failed failure, _ => failed failure
  | call c next, f => call c fun reply => (next reply).andThen f

instance : Monad Dialogue where
  pure := done
  bind := andThen

instance : Fallible Dialogue :=
  ⟨failed⟩

def perform (c : Call) : Dialogue c.Reply :=
  call c done

def ask (q : Query) : Dialogue q.Reply :=
  perform (.ask q)

def keep (type : RecordType) (record : Value) : Dialogue Unit :=
  perform (.keep type record)

end Dialogue

/-- The collaborators of a job: a catalogue of entity categories, a source of data, the time in
milliseconds, and a place to keep records. -/
structure JobPorts (σ : Type) where
  serve : RecordType → Act σ RecordType
  ask : Source σ
  now : Act σ Int
  keep : RecordType → Value → Act σ Unit

/-- The telemetry of an entity once it has been waited for. A search that says that it took too
long counts as late. -/
def Telemetry.awaited (entity : EntityId) (timeout : Value) :
    Telemetry → Except Failure (List Value)
  | .ready rows => .ok rows
  | .failed failure =>
    .error (if failure.isTimeout then .telemetryTimeout entity.toValue timeout else failure)
  | .late => .error (.telemetryTimeout entity.toValue timeout)

namespace JobPorts

variable {σ : Type}

def perform (ports : JobPorts σ) : (c : Call) → Act σ c.Reply
  | .serve type => ports.serve type
  | .ask q => ports.ask q
  | .await tenant entity timeout => do
    let telemetry : Telemetry ← ports.ask (.latest tenant entity)
    Act.settle (telemetry.awaited entity timeout)
  | .now => ports.now
  | .keep type record => ports.keep type record

end JobPorts

def Dialogue.run {σ α : Type} (ports : JobPorts σ) : Dialogue α → Act σ α
  | done a => pure a
  | failed failure => throw failure
  | call c next => do
    let reply ← ports.perform c
    (next reply).run ports

end Handover
