import Handover.Failure

namespace Handover

/-- A catalogue: the types it knows, each with the category that serves it. A later entry for a
type wins. -/
structure Catalogue where
  entries : List (RecordType × RecordType)
  deriving Repr

namespace Catalogue

/-- The catalogue in which every category serves itself. -/
def standard : Catalogue :=
  ⟨(RecordType.categories []).map fun type => (type, type)⟩

def without (c : Catalogue) (types : List RecordType) : Catalogue :=
  ⟨c.entries.filter fun entry => !types.contains entry.1⟩

def register (c : Catalogue) (type category : RecordType) : Catalogue :=
  ⟨(type, category) :: c.entries⟩

def serving (c : Catalogue) (type : RecordType) : Except Failure RecordType :=
  match c.entries.lookup type with
  | some category => .ok category
  | none => .error (.unsupportedType (.member (.recordType type)))

def knows (c : Catalogue) (type : RecordType) : Bool :=
  (c.entries.lookup type).isSome

end Catalogue

end Handover
