import Handover.Checked
import Handover.Json.Reader

namespace Handover.Http

/-- The body of a request: none, a value, or a text that should be one. -/
inductive RequestBody where
  | absent
  | value (v : Value)
  | text (s : String)
  deriving Repr

/-- A fault of a request: the steps to its place, then its kind. -/
abbrev PayloadFault := List Value

def faultAt (place : List String) (kind : String) : PayloadFault :=
  (place ++ [kind]).map .str

/-- An export that is asked for. -/
structure ExportRequest where
  tenant : Uuid
  skipped : List RecordType
  deriving Repr

/-- The value of a body, or a fault where it is no value. -/
def RequestBody.read : RequestBody → Checked PayloadFault (Option Value)
  | absent => .valid none
  | value v => .valid (some v)
  | text s =>
    if s.isEmpty then .valid none
    else match Json.read s with
      | .ok v => .valid (some v)
      | .error offset => .invalid [[.str "body", .int offset, .str "json_invalid"]]

def pathTenant (text : String) : Checked PayloadFault Uuid :=
  match Uuid.ofStrictText? text with
  | some u => .valid u
  | none => .invalid [faultAt ["path", "tenant_id"] "uuid_parsing"]

def bodyTenant : Option Value → Checked PayloadFault Uuid
  | none => .invalid [faultAt ["body", "tenant_id"] "missing"]
  | some (.str text) =>
    match Uuid.ofStrictText? text with
    | some u => .valid u
    | none => .invalid [faultAt ["body", "tenant_id"] "uuid_parsing"]
  | some _ => .invalid [faultAt ["body", "tenant_id"] "uuid_type"]

def skippedItem (item : Value × Nat) : Checked PayloadFault RecordType :=
  let named := match item.1 with
    | .str text => RecordType.all.find? fun type => type.text = text
    | _ => none
  match named with
  | some type => .valid type
  | none => .invalid [[.str "body", .str "skipped", .int item.2, .str "enum"]]

def bodySkipped : Option Value → Checked PayloadFault (List RecordType)
  | none => .valid []
  | some (.list items) => Checked.each skippedItem items.zipIdx
  | some _ => .invalid [faultAt ["body", "skipped"] "list_type"]

def field? (entries : List (Value × Value)) (name : String) : Option Value :=
  entries.findSome? fun
    | (.str key, v) => if key = name then some v else none
    | _ => none

def exportRequest : Option Value → Checked PayloadFault ExportRequest
  | none => .invalid [faultAt ["body"] "missing"]
  | some (.dict entries) =>
    ExportRequest.mk <$> bodyTenant (field? entries "tenant_id")
      <*> bodySkipped (field? entries "skipped")
  | some _ => .invalid [faultAt ["body"] "model_attributes_type"]

end Handover.Http
