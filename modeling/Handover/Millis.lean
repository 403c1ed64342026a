import Handover.Failure

namespace Handover

/-- The whole milliseconds of a time in seconds. The product is rounded before the fraction is
dropped. -/
def millisOf : Value → Except Failure Int
  | .int seconds => .ok (seconds * 1000)
  | .float seconds =>
    match seconds.scale 1000 with
    | .nan => .error .notANumber
    | x =>
      match x.truncate? with
      | some n => .ok n
      | none => .error .infiniteNumber
  | v => .error (.notANumeral v.qualifiedTypeName)

end Handover
