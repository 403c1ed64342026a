import Handover.Query
import Handover.Store
import Handover.Value.Items

namespace Handover

/-- What a scripted call does instead of, or ahead of, its own work. -/
inductive Reaction (τ : Type) where
  | fails (failure : Failure)
  | answers (v : Value)
  | promises (telemetry : Telemetry)
  | first (steps : List τ)
  deriving Repr

/-- A script for the calls under a label: for all of them, or for the one with a number. -/
structure Scripted (τ : Type) where
  label : String
  number : Option Nat
  reaction : Reaction τ
  deriving Repr

/-- A script with the numbers of calls so far and the journal of the calls. -/
structure Script (τ : Type) where
  entries : List (Scripted τ)
  counts : List (String × Nat)
  journal : List (String × List Value)
  deriving Repr

namespace Script

variable {τ : Type}

/-- A script that has not begun. -/
def new (entries : List (Scripted τ)) : Script τ :=
  ⟨entries, [], []⟩

def count (s : Script τ) (label : String) : Nat :=
  (s.counts.lookup label).getD 0

def call (s : Script τ) (label : String) : Option (Reaction τ) × Script τ :=
  let number := s.count label + 1
  let found := s.entries.find? fun e =>
    e.label = label && (e.number.isNone || e.number = some number)
  (found.map (·.reaction),
    { s with counts := (label, number) :: s.counts.filter fun entry => entry.1 ≠ label })

def note (s : Script τ) (q : Query) : Script τ :=
  { s with journal := s.journal ++ [(q.label, q.arguments)] }

end Script

namespace Query

def pageOf : Value → Except Failure (Page Value)
  | .record .pageData [data, hasNext, rowCount, pageCount] => do
    let number? : Value → Option Int
      | .int n => some n
      | _ => none
    pure ⟨← data.items, hasNext.isTrue, number? rowCount, number? pageCount⟩
  | v => .error (.noAttribute v.qualifiedTypeName "data")

def startOf : Value → Except Failure Int
  | .int n => .ok n
  | v => .error (.notOrdered v.qualifiedTypeName "int")

def replyOf : (q : Query) → Value → Except Failure q.Reply
  | tenant _, .null => .ok none
  | tenant _, v =>
    match Addition.ofTenant? v with
    | some t => .ok (some t)
    | none => .error (.noAttribute v.qualifiedTypeName "id")
  | entities .., v => pageOf v
  | relations .., v => v.items
  | events .., v => pageOf v
  | attributes .., v => v.items
  | latest .., v => .error (.noAttribute v.qualifiedTypeName "result")
  | auditLogs .., v => pageOf v
  | partitions _, v => do
    if v.isTrue then (← v.items).mapM startOf else pure []

def promised (telemetry : Telemetry) : (q : Query) → Except Failure q.Reply
  | latest .. => .ok telemetry
  | tenant _ => .error (.noAttribute "Future" "id")
  | entities .. => .error (.noAttribute "Future" "data")
  | events .. => .error (.noAttribute "Future" "data")
  | auditLogs .. => .error (.noAttribute "Future" "data")
  | relations .. => .error (.notIterable "Future")
  | attributes .. => .error (.notIterable "Future")
  | partitions _ => .error (.notIterable "Future")

end Query

end Handover
