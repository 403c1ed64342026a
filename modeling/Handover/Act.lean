import Handover.Failure

namespace Handover

abbrev Act (σ α : Type) := ExceptT Failure (StateM σ) α

/-- The programs of a kind that can end with a failure. -/
class Fallible (m : Type → Type) where
  fail {α : Type} : Failure → m α

namespace Act

instance {σ : Type} : Fallible (Act σ) :=
  ⟨fun failure => throw failure⟩

/-- The outcome of an action from a state, and the state that it leaves. -/
def outcome {σ α : Type} (act : Act σ α) (s : σ) : Except Failure α × σ :=
  (ExceptT.run act).run s

def ofOutcome {σ α : Type} (f : σ → Except Failure α × σ) : Act σ α :=
  ExceptT.mk f

def settle {σ α : Type} (result : Except Failure α) : Act σ α :=
  ExceptT.mk (pure result)

/-- Runs an action and then, whatever its outcome, another one, whose failure wins. -/
def followedBy {σ α : Type} (act : Act σ α) (last : Act σ Unit) : Act σ α :=
  ofOutcome fun s =>
    let (result, s') := act.outcome s
    match last.outcome s' with
    | (.ok (), s'') => (result, s'')
    | (.error failure, s'') => (.error failure, s'')

def attempt {σ α : Type} (act : Act σ α) : Act σ (Except Failure α) :=
  ofOutcome fun s =>
    let (result, s') := act.outcome s
    (.ok result, s')

def ignoringFailure {σ : Type} (act : Act σ Unit) : Act σ Unit :=
  discard act.attempt

def onPart {σ τ α : Type} (read : τ → σ) (write : τ → σ → τ) (act : Act σ α) : Act τ α :=
  ofOutcome fun t =>
    let (result, s) := act.outcome (read t)
    (result, write t s)

end Act

end Handover
