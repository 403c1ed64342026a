import Handover.Binary64.Text
import Handover.Value

namespace Handover.Value

def commaJoined (parts : List String) : String :=
  ", ".intercalate parts

/-- The literal of a timestamp: its fields, with those of the time of day that are zero at the end
left out. -/
def timeLiteral (t : Timestamp) : String :=
  let clock :=
    if t.microsecond ≠ 0 then [t.hour, t.minute, t.second, t.microsecond]
    else if t.second ≠ 0 then [t.hour, t.minute, t.second]
    else [t.hour, t.minute]
  let fields := ([t.year, t.month, t.day] ++ clock).map toString
  let zone := match t.offset with
    | none => []
    | some offset =>
      if offset = 0 then ["tzinfo=datetime.timezone.utc"]
      else
        let days := offset.fdiv 86400
        let seconds := offset - days * 86400
        let parts := (if days = 0 then [] else ["days=" ++ toString days])
          ++ (if seconds = 0 then [] else ["seconds=" ++ toString seconds])
        ["tzinfo=datetime.timezone(datetime.timedelta(" ++ commaJoined parts ++ "))"]
  "datetime.datetime(" ++ commaJoined (fields ++ zone) ++ ")"

mutual

def literal : Value → String
  | null => "None"
  | bool b => if b then "True" else "False"
  | int n => toString n
  | float x => x.text
  | str s => Text.quoted s
  | bytes bs => Text.quotedBytes bs
  | uuid u => "UUID('" ++ u.text ++ "')"
  | time t => timeLiteral t
  | member m =>
    "<" ++ m.vocabulary ++ "." ++ m.name ++ ": " ++ Text.quoted m.text ++ ">"
  | made v => "<Made.VALUE: " ++ literal v ++ ">"
  | foreign object => object.literal
  | model _ => "<Model>"
  | list items => "[" ++ commaJoined (literals items) ++ "]"
  | tuple [item] => "(" ++ literal item ++ ",)"
  | tuple items => "(" ++ commaJoined (literals items) ++ ")"
  | set [] => "set()"
  | set items => "\x7b" ++ commaJoined (literals items) ++ "\x7d"
  | frozenSet [] => "frozenset()"
  | frozenSet items => "frozenset(\x7b" ++ commaJoined (literals items) ++ "\x7d)"
  | dict entries => "\x7b" ++ commaJoined (entryLiterals entries) ++ "\x7d"
  | record shape fields =>
    shape.name ++ "("
      ++ commaJoined (List.zipWith (fun name text => name ++ "=" ++ text) shape.fieldNames
        (literals fields))
      ++ ")"

def literals : List Value → List String
  | [] => []
  | v :: rest => literal v :: literals rest

def entryLiterals : List (Value × Value) → List String
  | [] => []
  | (k, v) :: rest => (literal k ++ ": " ++ literal v) :: entryLiterals rest

end

def display : Value → String
  | str s => s
  | uuid u => u.text
  | time t =>
    match t.offset with
    | none => t.localText.map fun c => if c = 'T' then ' ' else c
    | some _ => t.text.map fun c => if c = 'T' then ' ' else c
  | member m => m.vocabulary ++ "." ++ m.name
  | made _ => "Made.VALUE"
  | foreign object => object.display
  | v => literal v

end Handover.Value
