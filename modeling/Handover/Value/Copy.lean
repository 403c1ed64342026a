import Handover.Failure
import Handover.Value.Key

namespace Handover

/-- What only the interpreter knows about copies: the order in which a set that is built from
members gives them, and what becomes of an object of an unknown type, if it can be copied. -/
class Copier where
  order : List Value → List Value
  order_perm (items : List Value) : (order items).Perm items
  foreign : Foreign → Option Foreign
  sameType {object copy : Foreign} (h : foreign object = some copy) :
    copy.typeName = object.typeName
  again {object copy : Foreign} (h : foreign object = some copy) : (foreign copy).isSome

/-- Sets keep their order, and copies of unknown objects cannot be told from them. -/
instance Copier.faithful : Copier where
  order := id
  order_perm := .refl
  foreign := some
  sameType h := congrArg Foreign.typeName (Option.some.inj h).symm
  again _ := rfl

namespace Value

variable [Copier]

mutual

/-- The deep copy of a value, of the same build. Members of vocabularies stay what they are. -/
def rebuilt : Value → Except Failure Value
  | foreign object =>
    match Copier.foreign object with
    | some copy => pure (foreign copy)
    | none => throw (.notCopyable (foreign object).qualifiedTypeName)
  | model content => model <$> rebuilt content
  | list items => list <$> rebuiltItems items
  | tuple items => tuple <$> rebuiltItems items
  | set items => (fun copies => set (Copier.order copies)) <$> rebuiltItems items
  | frozenSet items => (fun copies => frozenSet (Copier.order copies)) <$> rebuiltItems items
  | dict entries => dict <$> rebuiltEntries entries
  | record shape fields => record shape <$> rebuiltItems fields
  | v => pure v

def rebuiltItems : List Value → Except Failure (List Value)
  | [] => pure []
  | v :: rest => do
    let v' ← rebuilt v
    let rest' ← rebuiltItems rest
    pure (v' :: rest')

def rebuiltEntries : List (Value × Value) → Except Failure (List (Value × Value))
  | [] => pure []
  | (k, v) :: rest => do
    let v' ← rebuilt v
    let k' ← rebuilt k
    let rest' ← rebuiltEntries rest
    pure ((k', v') :: rest')

end

def requireKey (k : Value) : Except Failure Unit :=
  match unhashable? k with
  | some typeName => throw (.unhashable typeName)
  | none => pure ()

def fieldEntries (shape : Shape) (fields : List Value) : List (Value × Value) :=
  List.zipWith (fun name value => (str name, value)) shape.fieldNames fields

mutual

/-- The copy of a record as a dictionary: records reached through sequences, dictionaries and fields
become dictionaries as well. A key that holds a record is no key after the copy, and the copy
fails. Everything else is copied deeply. -/
def copied : Value → Except Failure Value
  | list items => list <$> copiedItems items
  | tuple items => tuple <$> copiedItems items
  | dict entries => dict <$> copiedEntries entries
  | record shape fields => (fun items => dict (fieldEntries shape items)) <$> copiedItems fields
  | v => rebuilt v

def copiedItems : List Value → Except Failure (List Value)
  | [] => pure []
  | v :: rest => do
    let v' ← copied v
    let rest' ← copiedItems rest
    pure (v' :: rest')

def copiedEntries : List (Value × Value) → Except Failure (List (Value × Value))
  | [] => pure []
  | (k, v) :: rest => do
    let k' ← copied k
    let v' ← copied v
    requireKey k'
    let rest' ← copiedEntries rest
    pure ((k', v') :: rest')

end

end Value

end Handover
