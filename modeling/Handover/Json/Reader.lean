import Handover.Binary64.Text
import Handover.Value.Key

namespace Handover.Json

/-- What is left of a text, and the offset at which it starts. -/
structure Cursor where
  rest : List Char
  offset : Nat

namespace Cursor

/-- The cursor after some more characters. -/
def skip (c : Cursor) (n : Nat) : Cursor :=
  ⟨c.rest.drop n, c.offset + n⟩

def isBlank (c : Char) : Bool :=
  c = ' ' || c = '\t' || c = '\n' || c = '\r'

def skipBlanks (c : Cursor) : Cursor :=
  c.skip (c.rest.takeWhile isBlank).length

def fourDigits? (c : Cursor) : Option Nat :=
  if (c.rest.take 4).length = 4 then Uuid.hexValue? (c.rest.take 4) else none

end Cursor

/-- The character that a code unit denotes; half of a pair alone denotes none, and the mark for
what cannot be shown stands for it. -/
def unitChar (unit : Nat) : Char :=
  if 0xD800 ≤ unit ∧ unit ≤ 0xDFFF then Char.ofNat 0xFFFD else Char.ofNat unit

/-- A code unit at the cursor, which stands after the mark `u`; four digits and at least one more
character must follow. -/
def readUnit (c : Cursor) : Except Nat (Nat × Cursor) :=
  if c.rest.length ≤ 4 then .error (c.offset - 1)
  else match c.fourDigits? with
    | some unit => .ok (unit, c.skip 4)
    | none => .error (c.offset - 1)

/-- An escaped character denoted by code units; the first half of a pair takes in a second half
that follows. -/
def readUnicode (c : Cursor) : Except Nat (Char × Cursor) := do
  let (unit, after) ← readUnit c
  if 0xD800 ≤ unit ∧ unit ≤ 0xDBFF ∧ 6 < after.rest.length ∧ after.rest.take 2 = ['\\', 'u'] then
    let (low, afterLow) ← readUnit (after.skip 2)
    if 0xDC00 ≤ low ∧ low ≤ 0xDFFF then
      pure (Char.ofNat (0x10000 + (unit - 0xD800) * 0x400 + (low - 0xDC00)), afterLow)
    else pure (unitChar unit, after)
  else pure (unitChar unit, after)

def escapeOf? (c : Char) : Option Char :=
  if c = '"' ∨ c = '\\' ∨ c = '/' then some c
  else if c = 'b' then some (Char.ofNat 8)
  else if c = 'f' then some (Char.ofNat 12)
  else if c = 'n' then some '\n'
  else if c = 'r' then some '\r'
  else if c = 't' then some '\t'
  else none

/-- The rest of a text whose opening quote is at `start`. The characters read so far are in
reverse. -/
def readText (start : Nat) : Nat → Cursor → List Char → Except Nat (String × Cursor)
  | 0, c, _ => .error c.offset
  | fuel + 1, c, done =>
    match c.rest with
    | [] => .error start
    | '"' :: _ => .ok (String.ofList done.reverse, c.skip 1)
    | '\\' :: [] => .error start
    | '\\' :: 'u' :: _ =>
      match readUnicode (c.skip 2) with
      | .ok (char, after) => readText start fuel after (char :: done)
      | .error offset => .error offset
    | '\\' :: letter :: _ =>
      match escapeOf? letter with
      | some char => readText start fuel (c.skip 2) (char :: done)
      | none => .error c.offset
    | char :: _ =>
      if char.toNat < 32 then .error c.offset
      else readText start fuel (c.skip 1) (char :: done)

def wholePart : List Char → List Char
  | '0' :: _ => ['0']
  | rest => rest.takeWhile Char.isDigit

def fractionPart : List Char → List Char
  | '.' :: rest =>
    let digits := rest.takeWhile Char.isDigit
    if digits.isEmpty then [] else '.' :: digits
  | _ => []

def powerPart : List Char → List Char
  | [] => []
  | mark :: rest =>
    if mark = 'e' ∨ mark = 'E' then
      let sign := match rest with
        | '+' :: _ => ['+']
        | '-' :: _ => ['-']
        | _ => []
      let digits := (rest.drop sign.length).takeWhile Char.isDigit
      if digits.isEmpty then [] else mark :: (sign ++ digits)
    else []

def readNumber (c : Cursor) : Except Nat (Value × Cursor) :=
  let sign := if c.rest.head? = some '-' then ['-'] else []
  let unsigned := c.rest.drop sign.length
  let whole := wholePart unsigned
  let fraction := fractionPart (unsigned.drop whole.length)
  let power := powerPart (unsigned.drop (whole.length + fraction.length))
  let text := sign ++ whole ++ fraction ++ power
  if whole.isEmpty then .error c.offset
  else if fraction.isEmpty && power.isEmpty then
    match Binary64.digitsValue? whole with
    | some n => .ok (.int (if sign.isEmpty then n else -(n : Int)), c.skip text.length)
    | none => .error c.offset
  else match Binary64.ofText? (String.ofList text) with
    | some x => .ok (.float x, c.skip text.length)
    | none => .error c.offset

def words : List (List Char × Value) :=
  [("null".toList, .null), ("true".toList, .bool true), ("false".toList, .bool false),
    ("NaN".toList, .float .nan), ("Infinity".toList, .float (.infinite false)),
    ("-Infinity".toList, .float (.infinite true))]

def readWord? (c : Cursor) : Option (Value × Cursor) :=
  (words.find? fun word => c.rest.take word.1.length = word.1).map fun word =>
    (word.2, c.skip word.1.length)

mutual

def readValue : Nat → Cursor → Except Nat (Value × Cursor)
  | 0, c => .error c.offset
  | fuel + 1, c =>
    match c.rest with
    | '"' :: _ => do
      let (s, after) ← readText c.offset (c.rest.length + 1) (c.skip 1) []
      pure (.str s, after)
    | '\x7b' :: _ =>
      let inside := (c.skip 1).skipBlanks
      if inside.rest.head? = some '\x7d' then .ok (.dict [], inside.skip 1)
      else readEntries fuel inside []
    | '[' :: _ =>
      let inside := (c.skip 1).skipBlanks
      if inside.rest.head? = some ']' then .ok (.list [], inside.skip 1)
      else readItems fuel inside []
    | _ =>
      match readWord? c with
      | some reading => .ok reading
      | none => readNumber c

def readItems : Nat → Cursor → List Value → Except Nat (Value × Cursor)
  | 0, c, _ => .error c.offset
  | fuel + 1, c, done => do
    let (v, afterValue) ← readValue fuel c
    let after := afterValue.skipBlanks
    match after.rest with
    | ']' :: _ => pure (.list (v :: done).reverse, after.skip 1)
    | ',' :: _ => readItems fuel (after.skip 1).skipBlanks (v :: done)
    | _ => .error after.offset

def readEntries : Nat → Cursor → List (String × Value) → Except Nat (Value × Cursor)
  | 0, c, _ => .error c.offset
  | fuel + 1, c, done =>
    if c.rest.head? = some '"' then do
      let (key, afterKey) ← readText c.offset (c.rest.length + 1) (c.skip 1) []
      let colon := afterKey.skipBlanks
      if colon.rest.head? = some ':' then do
        let (v, afterValue) ← readValue fuel (colon.skip 1).skipBlanks
        let after := afterValue.skipBlanks
        match after.rest with
        | '\x7d' :: _ => pure (Value.ofTexts (Value.putText key v done), after.skip 1)
        | ',' :: _ => readEntries fuel (after.skip 1).skipBlanks (Value.putText key v done)
        | _ => .error after.offset
      else .error colon.offset
    else .error c.offset

end

/-- Reads a text that is one value with blanks around it; a mark of byte order may come first. -/
def read (text : String) : Except Nat Value := do
  let chars := match text.toList with
    | '\uFEFF' :: rest => rest
    | chars => chars
  let start := (Cursor.mk chars 0).skipBlanks
  let (v, after) ← readValue (2 * chars.length + 2) start
  let stop := after.skipBlanks
  if stop.rest.isEmpty then pure v else .error stop.offset

end Handover.Json
