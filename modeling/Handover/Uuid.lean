import Handover.Text.Digits
import Handover.Text.Quoted

namespace Handover

/-- An identifier of 128 bits. -/
structure Uuid where
  bits : BitVec 128
  deriving DecidableEq, Repr

namespace Uuid

/-- The 32 hexadecimal digits of an identifier. -/
def digits (u : Uuid) : List Char :=
  Text.hexDigits 32 u.bits.toNat

def text (u : Uuid) : String :=
  let ds := u.digits
  String.ofList <| (ds.take 8) ++ '-' :: ((ds.drop 8).take 4) ++ '-' :: ((ds.drop 12).take 4)
    ++ '-' :: ((ds.drop 16).take 4) ++ '-' :: (ds.drop 20)

def digitValue? (c : Char) : Option Nat :=
  let n := c.toNat
  if 48 ≤ n ∧ n ≤ 57 then some (n - 48)
  else if 97 ≤ n ∧ n ≤ 102 then some (n - 87)
  else if 65 ≤ n ∧ n ≤ 70 then some (n - 55)
  else none

/-- The value of a run of hexadecimal digits, or nothing when another character is among them. -/
def hexValue? (ds : List Char) : Option Nat :=
  ds.foldl (fun value c => do
    let n ← value
    let d ← digitValue? c
    pure (16 * n + d)) (some 0)

/-- Why a text is no identifier. -/
inductive Fault where
  | badlyFormed
  | badDigits (digits : String)
  deriving DecidableEq, Repr

/-- The 32 digits that a lenient text denotes: the marks `urn:` and `uuid:` anywhere, braces at
both ends and hyphens do not count. -/
def looseDigits (s : String) : List Char :=
  let bare := ((s.replace "urn:" "").replace "uuid:" "").toList
  (Text.stripped (fun c => c = '{' || c = '}') bare).filter (· ≠ '-')

/-- Hexadecimal digits without what else may stand with them: a plus sign, and the mark `0x`. -/
def unmarked : List Char → List Char
  | '+' :: cs => unprefixed cs
  | cs => unprefixed cs
where
  unprefixed : List Char → List Char
    | '0' :: 'x' :: '_' :: cs => cs
    | '0' :: 'X' :: '_' :: cs => cs
    | '0' :: 'x' :: cs => cs
    | '0' :: 'X' :: cs => cs
    | cs => cs

/-- The value of hexadecimal digits as people write them: blanks around them, decimal digits of any
script, and underscores between digits are allowed. -/
def looseValue? (cs : List Char) : Option Nat := do
  let ds := unmarked ((Text.stripped Text.isBlank cs).map Text.plainDigit)
  if ds.head?.any (fun c => c ≠ '_') then
    hexValue? (← Text.ungrouped? (fun c => (digitValue? c).isSome) ds)
  else none

def ofLooseText (s : String) : Except Fault Uuid :=
  let ds := looseDigits s
  if ds.length ≠ 32 then .error .badlyFormed
  else match looseValue? ds with
    | some n => .ok ⟨BitVec.ofNat 128 n⟩
    | none => .error (.badDigits (String.ofList ds))

def hyphenatedDigits? (cs : List Char) : Option (List Char) :=
  if cs.length = 36 ∧ cs[8]? = some '-' ∧ cs[13]? = some '-' ∧ cs[18]? = some '-'
      ∧ cs[23]? = some '-' then
    some (cs.take 8 ++ (cs.drop 9).take 4 ++ (cs.drop 14).take 4 ++ (cs.drop 19).take 4
      ++ cs.drop 24)
  else none

/-- The digits of a strict text: 32 digits in a row, or the hyphenated form, which may stand in
braces or after `urn:uuid:`. -/
def strictDigits? (s : String) : Option (List Char) :=
  let cs := s.toList
  let mark := "urn:uuid:".toList
  if cs.length = 32 then some cs
  else if cs.length = 38 ∧ cs.head? = some '{' ∧ cs.getLast? = some '}' then
    hyphenatedDigits? ((cs.drop 1).take 36)
  else if cs.length = 45 ∧ cs.take 9 = mark then hyphenatedDigits? (cs.drop 9)
  else hyphenatedDigits? cs

def ofStrictText? (s : String) : Option Uuid := do
  let ds ← strictDigits? s
  let n ← hexValue? ds
  pure ⟨BitVec.ofNat 128 n⟩

end Uuid

end Handover
