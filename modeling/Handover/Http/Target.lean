import Handover.Uuid

namespace Handover.Http

def textOfBytes (bytes : List UInt8) : List Char :=
  match String.fromUTF8? ⟨bytes.toArray⟩ with
  | some s => s.toList
  | none => bytes.map fun b => if b < 128 then Char.ofNat b.toNat else Char.ofNat 0xFFFD

def escapedByte? (high low : Char) : Option UInt8 := do
  let h ← Uuid.digitValue? high
  let l ← Uuid.digitValue? low
  pure (UInt8.ofNat (16 * h + l))

/-- A text with its escaped bytes read; `pending` are the bytes just before, in reverse. -/
def unescapedFrom (pending : List UInt8) : List Char → List Char
  | '%' :: high :: low :: rest =>
    match escapedByte? high low with
    | some b => unescapedFrom (b :: pending) rest
    | none => textOfBytes pending.reverse ++ '%' :: unescapedFrom [] (high :: low :: rest)
  | c :: rest => textOfBytes pending.reverse ++ c :: unescapedFrom [] rest
  | [] => textOfBytes pending.reverse
termination_by cs => cs.length

def unescaped (cs : List Char) : List Char :=
  unescapedFrom [] cs

/-- The parts of a path with those that stay dropped and those that go back taken. -/
def stepped (parts : List String) : List String :=
  if parts.contains "." || parts.contains ".." then
    parts.foldl (fun done part =>
      if part = "." then done
      else if part = ".." then
        if done.isEmpty || done = [""] then done else done.dropLast
      else done ++ [part]) []
  else parts

def pathOf (target : String) : String :=
  let bare := String.ofList (target.toList.takeWhile fun c => c ≠ '?' && c ≠ '#')
  let path := if bare.isEmpty then "/" else "/".intercalate (stepped (Text.parts '/' bare))
  String.ofList (unescaped (unescaped path.toList))

end Handover.Http
