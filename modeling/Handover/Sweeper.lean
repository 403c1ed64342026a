import Handover.Failure

namespace Handover.Sweeper

/-- A line of a log: its level and its text. -/
structure LogLine where
  level : String
  text : String
  deriving DecidableEq, Repr

/-- The line about a round that has removed a number of results, or has failed. -/
def report? : Except Failure Int → Option LogLine
  | .ok removed =>
    if removed = 0 then none
    else some ⟨"INFO", "Registry sweep evicted " ++ toString removed ++ " expired export(s)"⟩
  | .error failure => some ⟨"WARNING", "Registry sweep error: " ++ failure.message⟩

def log (rounds : List (Except Failure Int)) : List LogLine :=
  rounds.filterMap report? ++ [⟨"END", "cancelled"⟩]

end Handover.Sweeper
