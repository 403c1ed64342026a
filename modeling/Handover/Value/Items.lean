import Handover.Failure

namespace Handover.Value

def items : Value → Except Failure (List Value)
  | list vs | tuple vs | set vs | frozenSet vs => .ok vs
  | dict entries => .ok (entries.map (·.1))
  | str s => .ok (s.toList.map fun c => str (String.singleton c))
  | member m => .ok (m.text.toList.map fun c => str (String.singleton c))
  | bytes bs => .ok (bs.map fun b => int b.toNat)
  | v => .error (.notIterable v.qualifiedTypeName)

def isTrue : Value → Bool
  | null => false
  | bool b => b
  | int n => n ≠ 0
  | float (.finite _ significand _) => significand ≠ 0
  | str s => !s.isEmpty
  | bytes bs => !bs.isEmpty
  | list vs | tuple vs | set vs | frozenSet vs => !vs.isEmpty
  | dict entries => !entries.isEmpty
  | _ => true

end Handover.Value
