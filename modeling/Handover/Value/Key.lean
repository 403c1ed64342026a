import Handover.Value

namespace Handover.Value

/-- The number that a value counts as among keys: truth values count as zero and one. A number
that is not finite is kept by its sign. -/
def keyNumber? : Value → Option (Rat ⊕ Bool)
  | bool b => some (.inl (if b then 1 else 0))
  | int n => some (.inl n)
  | float (.infinite negative) => some (.inr negative)
  | float x => x.toRat?.map .inl
  | _ => none

/-- The text that a value counts as among keys: a member of a vocabulary counts as its text. -/
def keyText? : Value → Option String
  | str s => some s
  | member m => some m.text
  | _ => none

mutual

/-- Whether two values are the same key. Numbers compare by value, whatever their type, and texts
with members by their text; records of one structure and sequences compare item by item. Values
known only by their identity are never the same key as another. -/
def sameKey : Value → Value → Bool
  | tuple xs, tuple ys => sameKeys xs ys
  | record s xs, record t ys => s = t && sameKeys xs ys
  | frozenSet xs, frozenSet ys => xs.length == ys.length && eachAmong xs ys
  | null, null => true
  | bytes a, bytes b => a == b
  | uuid a, uuid b => a == b
  | time a, time b => a.sameMoment b
  | foreign a, foreign b => a == b && a.typeName != "object"
  | v, w =>
    match keyText? v, keyText? w with
    | some a, some b => a == b
    | none, none =>
      match keyNumber? v, keyNumber? w with
      | some a, some b => a == b
      | _, _ => false
    | _, _ => false

def sameKeys : List Value → List Value → Bool
  | [], [] => true
  | x :: xs, y :: ys => sameKey x y && sameKeys xs ys
  | _, _ => false

def eachAmong : List Value → List Value → Bool
  | [], _ => true
  | x :: xs, ys => ys.any (fun y => sameKey x y) && eachAmong xs ys

end

mutual

/-- The type that keeps a value from being a key, if there is one. -/
def unhashable? : Value → Option String
  | list _ => some "list"
  | set _ => some "set"
  | dict _ => some "dict"
  | tuple items => unhashableAmong? items
  | record shape fields =>
    if shape.isFrozen then unhashableAmong? fields else some shape.name
  | _ => none

def unhashableAmong? : List Value → Option String
  | [] => none
  | v :: rest => (unhashable? v).or (unhashableAmong? rest)

end

/-- Puts an entry into a dictionary: a key that is there keeps its place and takes the value. -/
def putEntry (key value : Value) : List (Value × Value) → List (Value × Value)
  | [] => [(key, value)]
  | (k, v) :: rest =>
    if sameKey k key then (k, value) :: rest else (k, v) :: putEntry key value rest

def ofEntries (entries : List (Value × Value)) : Value :=
  dict (entries.foldl (fun done entry => putEntry entry.1 entry.2 done) [])

def distinct (items : List Value) : List Value :=
  items.foldl (fun done v => if done.any (sameKey v) then done else done ++ [v]) []

def putText (key : String) (value : Value) : List (String × Value) → List (String × Value)
  | [] => [(key, value)]
  | (k, v) :: rest =>
    if k = key then (k, value) :: rest else (k, v) :: putText key value rest

def ofTexts (entries : List (String × Value)) : Value :=
  dict (entries.map fun entry => (str entry.1, entry.2))

end Handover.Value
