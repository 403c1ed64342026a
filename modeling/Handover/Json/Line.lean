import Handover.Value.Order
import Handover.Value.Plain

namespace Handover.Json

def escaped (c : Char) : List Char :=
  if c = '"' then ['\\', '"']
  else if c = '\\' then ['\\', '\\']
  else if c = '\n' then ['\\', 'n']
  else if c = '\r' then ['\\', 'r']
  else if c = '\t' then ['\\', 't']
  else if c = Char.ofNat 8 then ['\\', 'b']
  else if c = Char.ofNat 12 then ['\\', 'f']
  else if c.toNat < 32 then '\\' :: 'u' :: Text.hexDigits 4 c.toNat
  else [c]

def textLiteral (s : String) : List Char :=
  '"' :: s.toList.flatMap escaped ++ ['"']

def numberText : Binary64 → String
  | .nan => "NaN"
  | .infinite negative => if negative then "-Infinity" else "Infinity"
  | x => x.text

def keyText : Value → Except Failure String
  | .str s => pure s
  | .member m => pure m.text
  | .null => pure "null"
  | .bool b => pure (if b then "true" else "false")
  | .int n => pure (toString n)
  | .float x => pure (numberText x)
  | v => throw (.keyNotAllowed v.qualifiedTypeName)

def separated (parts : List (List Char)) : List Char :=
  [',', ' '].intercalate parts

def object (entries : List (Value × Except Failure (List Char))) : Except Failure (List Char) := do
  let parts ← (← Value.inKeyOrder entries).mapM fun (key, body) => do
    let name ← keyText key
    return textLiteral name ++ ':' :: ' ' :: (← body)
  pure ('\x7b' :: separated parts ++ ['\x7d'])

mutual

def encoded : Value → Except Failure (List Char)
  | .null => pure "null".toList
  | .bool b => pure (if b then "true" else "false").toList
  | .int n => pure (toString n).toList
  | .float x => pure (numberText x).toList
  | .str s => pure (textLiteral s)
  | .member m => pure (textLiteral m.text)
  | .list items => do return '[' :: separated (← encodedItems items) ++ [']']
  | .tuple items => do return '[' :: separated (← encodedItems items) ++ [']']
  | .dict entries => object (encodedEntries entries)
  | v => throw (.notSerializable v.typeName)

def encodedItems : List Value → Except Failure (List (List Char))
  | [] => pure []
  | v :: rest => do
    let body ← encoded v
    return body :: (← encodedItems rest)

def encodedEntries : List (Value × Value) → List (Value × Except Failure (List Char))
  | [] => []
  | (k, v) :: rest => (k, encoded v) :: encodedEntries rest

end

def line [Copier] (type : RecordType) (content : Value) : Except Failure String := do
  let data ← content.plain
  let body ← encoded (.dict [(.str "type", .str type.text), (.str "data", data)])
  pure (String.ofList body)

end Handover.Json
