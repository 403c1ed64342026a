namespace Handover

/-- A checked value, or the faults found on the way to it. -/
inductive Checked (ε α : Type) where
  | valid (value : α)
  | invalid (faults : List ε)
  deriving Repr

namespace Checked

variable {ε α β : Type}

def map (f : α → β) : Checked ε α → Checked ε β
  | valid a => valid (f a)
  | invalid faults => invalid faults

/-- Applies a checked function to a checked value; faults of both are kept, in order. -/
def apply : Checked ε (α → β) → Checked ε α → Checked ε β
  | valid f, valid a => valid (f a)
  | valid _, invalid faults => invalid faults
  | invalid faults, valid _ => invalid faults
  | invalid faults, invalid more => invalid (faults ++ more)

instance : Applicative (Checked ε) where
  pure := valid
  seq f a := apply f (a ())
  map := map

def each (check : α → Checked ε β) : List α → Checked ε (List β)
  | [] => valid []
  | a :: rest => List.cons <$> check a <*> each check rest

end Checked

end Handover
