import Handover.Value.Items
import Handover.Value.Key

namespace Handover

namespace Member

/-- The member of a vocabulary that a value denotes: the text of the member, or a member with that
text. -/
def ofValue (vocabulary : String) (v : Value) : Except Failure Member :=
  match v.keyText?.bind (ofText? vocabulary) with
  | some m => .ok m
  | none => .error (.notAMember v vocabulary)

end Member

namespace RecordType

def ofText (text : String) : Except Failure RecordType :=
  match all.find? fun type => type.text = text with
  | some type => .ok type
  | none => .error (.notAMember (.str text) "ObjectType")

end RecordType

/-- What is to be exported: a tenant, and the types of records to leave out, each once. -/
structure Selection where
  tenant : Uuid
  skipped : List RecordType
  deriving Repr

namespace Selection

/-- A type to leave out, given as a value. -/
def skippedType : Value → Except Failure RecordType
  | .member (.recordType type) => .ok type
  | v => .error (.noAttribute v.qualifiedTypeName "value")

def skippedTypes (v : Value) : Except Failure (List RecordType) := do
  if v.isTrue then
    let items ← v.items
    match Value.unhashableAmong? items with
    | some typeName => throw (.unhashable typeName)
    | none => return (← items.mapM skippedType).eraseDups
  else pure []

def ofTexts (tenant : String) (skipped : Value) : Except Failure Selection := do
  let id ← (Uuid.ofLooseText tenant).mapError .badUuid
  pure ⟨id, ← skippedTypes skipped⟩

def skippedTexts (s : Selection) : List String :=
  (s.skipped.map RecordType.text).mergeSort fun a b => a ≤ b

end Selection

end Handover
