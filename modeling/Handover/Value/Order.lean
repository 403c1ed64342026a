import Handover.Failure
import Handover.Value.Key

namespace Handover.Value

/-- Whether a number lies before another; only the infinities are no fractions. -/
def numberBefore : Rat ⊕ Bool → Rat ⊕ Bool → Bool
  | .inl a, .inl b => a < b
  | .inl _, .inr negative => !negative
  | .inr negative, .inl _ => negative
  | .inr a, .inr b => a && !b

def isNumber : Value → Bool
  | bool _ | int _ | float _ => true
  | _ => false

mutual

/-- Whether a key lies before another: numbers by value, texts by code point, bytes and tuples item
by item, identifiers by their bits, moments by time, and sets by inclusion. -/
def before : Value → Value → Except Failure Bool
  | tuple xs, tuple ys => tupleBefore xs ys
  | bytes a, bytes b => pure (a.map UInt8.toNat < b.map UInt8.toNat)
  | uuid a, uuid b => pure (a.bits.toNat < b.bits.toNat)
  | time a, time b =>
    if a.offset.isSome == b.offset.isSome then pure (a.position < b.position)
    else throw .mixedOffsets
  | frozenSet xs, frozenSet ys => pure (xs.length < ys.length && eachAmong xs ys)
  | v, w =>
    match keyText? v, keyText? w with
    | some a, some b => pure (a < b)
    | _, _ =>
      if isNumber v && isNumber w then
        match keyNumber? v, keyNumber? w with
        | some a, some b => pure (numberBefore a b)
        | _, _ => pure false
      else throw (.notOrdered v.qualifiedTypeName w.qualifiedTypeName)

/-- Tuples are ordered by their first items that differ, and then by length. -/
def tupleBefore : List Value → List Value → Except Failure Bool
  | [], ys => pure !ys.isEmpty
  | _ :: _, [] => pure false
  | x :: xs, y :: ys => if sameKey x y then tupleBefore xs ys else before x y

end

def ascending {α : Type} (last : Value) : List (Value × α) → Except Failure Nat
  | [] => pure 0
  | (k, _) :: rest => do
    if ← before k last then pure 0 else return (← ascending k rest) + 1

def descending {α : Type} (last : Value) : List (Value × α) → Except Failure Nat
  | [] => pure 0
  | (k, _) :: rest => do
    if ← before k last then return (← descending k rest) + 1 else pure 0

/-- The place of a key among ordered entries, found between `low` and `high` by halving. -/
def placeOf {α : Type} (key : Value) (sorted : Array (Value × α)) (low high : Nat) :
    Except Failure Nat :=
  if _h : low < high then do
    let middle := (low + high) / 2
    match sorted[middle]? with
    | none => pure low
    | some (k, _) =>
      if ← before key k then placeOf key sorted low middle
      else placeOf key sorted (middle + 1) high
  else pure low
termination_by high - low
decreasing_by
  all_goals omega

def placeAll {α : Type} : List (Value × α) → Array (Value × α) →
    Except Failure (Array (Value × α))
  | [], sorted => pure sorted
  | entry :: rest, sorted => do
    let place ← placeOf entry.1 sorted 0 sorted.size
    placeAll rest (sorted.toList.insertIdx place entry).toArray

/-- Entries in the order of their keys: the leading run is taken as it is, or reversed, and the
others are put into their places. -/
def inKeyOrder {α : Type} (entries : List (Value × α)) : Except Failure (List (Value × α)) :=
  match entries with
  | [] => pure []
  | [entry] => pure [entry]
  | first :: second :: rest => do
    if ← before second.1 first.1 then
      let run := (← descending second.1 rest) + 2
      return (← placeAll (entries.drop run) (entries.take run).reverse.toArray).toList
    else
      let run := (← ascending second.1 rest) + 2
      return (← placeAll (entries.drop run) (entries.take run).toArray).toList

end Handover.Value
