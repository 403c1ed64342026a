import Handover.Text.Printed

namespace Handover.Text

def hexDigit (n : Nat) : Char :=
  Char.ofNat (if n < 10 then 48 + n else 87 + n)

def hexDigits : Nat → Nat → List Char
  | 0, _ => []
  | width + 1, n => hexDigits width (n / 16) ++ [hexDigit (n % 16)]

def quoteFor (single double : Bool) : Char :=
  if single && !double then '"' else '\''

def quotedChar (quote c : Char) : List Char :=
  if c = '\\' then ['\\', '\\']
  else if c = quote then ['\\', quote]
  else if c = '\n' then ['\\', 'n']
  else if c = '\r' then ['\\', 'r']
  else if c = '\t' then ['\\', 't']
  else if isPrinted c then [c]
  else
    let n := c.toNat
    if n < 256 then '\\' :: 'x' :: hexDigits 2 n
    else if n < 65536 then '\\' :: 'u' :: hexDigits 4 n
    else '\\' :: 'U' :: hexDigits 8 n

def quoted (s : String) : String :=
  let chars := s.toList
  let quote := quoteFor (chars.contains '\'') (chars.contains '"')
  String.ofList (quote :: chars.flatMap (quotedChar quote) ++ [quote])

def quotedByte (quote : Char) (b : UInt8) : List Char :=
  let c := Char.ofNat b.toNat
  if b < 128 then
    if c = '\\' ∨ c = quote ∨ c = '\n' ∨ c = '\r' ∨ c = '\t' ∨ isPrinted c then quotedChar quote c
    else '\\' :: 'x' :: hexDigits 2 b.toNat
  else '\\' :: 'x' :: hexDigits 2 b.toNat

def quotedBytes (bytes : List UInt8) : String :=
  let quote := quoteFor (bytes.contains 39) (bytes.contains 34)
  String.ofList ('b' :: quote :: bytes.flatMap (quotedByte quote) ++ [quote])

end Handover.Text
