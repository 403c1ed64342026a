import Handover.Binary64

namespace Handover.Binary64

def decimalDigits (n : Nat) : List Char :=
  Nat.toDigits 10 n

/-- The point position of a positive fraction: the `k` with `10 ^ (k - 1) ≤ num / den < 10 ^ k`. -/
def pointOf (num den : Nat) : Int :=
  if den ≤ num then ((decimalDigits (num / den)).length : Int)
  else
    let places := (decimalDigits (den / num)).length
    if num * tenTo (places - 1) = den then 2 - (places : Int) else 1 - (places : Int)

/-- Whether `candidate * 10 ^ exponent` rounds to the number with this significand and exponent.
The interval of such values reaches half way to each neighbour; its ends belong to it when the
significand is even. All sides are scaled by four, and the lower neighbour of a power of two is
half as far away as the upper one. -/
def readsBack (significand : Nat) (exponent : Int) (candidate : Nat) (power : Int) : Bool :=
  let (n, d) :=
    if 0 ≤ power then (candidate * tenTo power.toNat, 1) else (candidate, tenTo (-power).toNat)
  let (unitNum, unitDen) := magnitude 1 exponent
  let below := if significand = twoTo 52 ∧ -1074 < exponent then 1 else 2
  let value := 4 * n * unitDen
  let low := (4 * significand - below) * unitNum * d
  let high := (4 * significand + 2) * unitNum * d
  if significand % 2 = 0 then low ≤ value && value ≤ high else low < value && value < high

/-- Whether the fraction `num / den` is nearer to `lower` than to `lower + 1`, a tie going to the
even one. -/
def nearerBelow (num den lower : Nat) : Bool :=
  let rest := 2 * (num - lower * den)
  if rest < den then true else if den < rest then false else lower % 2 = 0

/-- The digits of the shortest decimal that reads back, trying `remaining` more digit counts from
`count` on; `point` is the point position of the number. -/
def shortestFrom (significand : Nat) (exponent point : Int) : Nat → Nat → Nat × Int
  | _, 0 =>
    let (n, d) := magnitude significand exponent
    (n / d, 0)
  | count, remaining + 1 =>
    let power := point - count
    let (n, d) := magnitude significand exponent
    let (num, den) :=
      if 0 ≤ power then (n, d * tenTo power.toNat) else (n * tenTo (-power).toNat, d)
    let lower := num / den
    let lowerFits := readsBack significand exponent lower power
    let upperFits := readsBack significand exponent (lower + 1) power
    if lowerFits && upperFits then
      (if nearerBelow num den lower then lower else lower + 1, power)
    else if lowerFits then (lower, power)
    else if upperFits then (lower + 1, power)
    else shortestFrom significand exponent point (count + 1) remaining

/-- The shortest decimal that reads back as `significand * 2 ^ exponent`: its digits without
trailing zeros and the position of the point before or after them. -/
def shortest (significand : Nat) (exponent : Int) : List Char × Int :=
  let (n, d) := magnitude significand exponent
  let (digits, power) := shortestFrom significand exponent (pointOf n d) 1 17
  let written := decimalDigits digits
  ((written.reverse.dropWhile (· = '0')).reverse, (written.length : Int) + power)

/-- How a number is laid out: the least and the first excluded power of ten of positional
notation, and the least number of digits of a written power. -/
structure Layout where
  positionalFrom : Int
  positionalBelow : Int
  powerDigits : Nat

/-- Powers from `-4` to `15` are written positionally, others with at least two digits of power. -/
def layout : Layout := ⟨-4, 16, 2⟩

def positional (digits : List Char) (point : Int) : List Char :=
  if point ≤ 0 then '0' :: '.' :: List.replicate (-point).toNat '0' ++ digits
  else if (digits.length : Int) ≤ point then
    digits ++ List.replicate (point.toNat - digits.length) '0' ++ ['.', '0']
  else digits.take point.toNat ++ '.' :: digits.drop point.toNat

def withPower (digits : List Char) (power : Int) : List Char :=
  let mantissa := match digits with
    | [] => []
    | [d] => [d]
    | d :: rest => d :: '.' :: rest
  let sign := if power < 0 then '-' else '+'
  let written := decimalDigits power.natAbs
  mantissa ++ 'e' :: sign :: List.replicate (layout.powerDigits - written.length) '0' ++ written

def text : Binary64 → String
  | .nan => "nan"
  | .infinite negative => if negative then "-inf" else "inf"
  | .finite negative significand exponent =>
    let body :=
      if significand = 0 then ['0', '.', '0']
      else
        let (digits, point) := shortest significand exponent
        if layout.positionalFrom < point ∧ point ≤ layout.positionalBelow then
          positional digits point
        else withPower digits (point - 1)
    String.ofList (if negative then '-' :: body else body)

/-- The value of a run of decimal digits, or nothing when another character is among them. -/
def digitsValue? (digits : List Char) : Option Nat :=
  digits.foldl (fun value c => do
    let n ← value
    if c.isDigit then some (10 * n + (c.toNat - '0'.toNat)) else none) (some 0)

def takeSign : List Char → Bool × List Char
  | '-' :: rest => (true, rest)
  | '+' :: rest => (false, rest)
  | rest => (false, rest)

/-- The power of ten written after a number: nothing, or `e` with a signed run of digits. -/
def powerOf? : List Char → Option Int
  | [] => some 0
  | e :: rest =>
    if e = 'e' ∨ e = 'E' then
      let (negative, digits) := takeSign rest
      if digits.isEmpty then none
      else (digitsValue? digits).map fun n => if negative then -(n : Int) else n
    else none

/-- Reads a decimal number, an infinity or a quiet `nan`, with an optional sign and no blanks. -/
def ofText? (text : String) : Option Binary64 :=
  let (negative, body) := takeSign text.toList
  let word := String.ofList (body.map Char.toLower)
  if word = "inf" ∨ word = "infinity" then some (.infinite negative)
  else if word = "nan" then some .nan
  else
    let whole := body.takeWhile Char.isDigit
    let afterWhole := body.dropWhile Char.isDigit
    let (fraction, rest) := match afterWhole with
      | '.' :: more => (more.takeWhile Char.isDigit, more.dropWhile Char.isDigit)
      | more => ([], more)
    if whole.isEmpty && fraction.isEmpty then none
    else do
      let digits ← digitsValue? (whole ++ fraction)
      let power ← powerOf? rest
      pure (ofDecimal negative digits (power - fraction.length))

end Handover.Binary64
