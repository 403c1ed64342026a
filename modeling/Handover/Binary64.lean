namespace Handover

/-- A 64-bit floating point number. A finite one stands for `significand * 2 ^ exponent`. The
numbers that `Binary64.round` builds are in lowest form: the significand has 53 bits unless the
exponent is the least one, `-1074`. -/
inductive Binary64 where
  | nan
  | infinite (negative : Bool)
  | finite (negative : Bool) (significand : Nat) (exponent : Int)
  deriving DecidableEq, Repr

namespace Binary64

/-- A power of two. -/
def twoTo (n : Nat) : Nat := Nat.pow 2 n

def tenTo (n : Nat) : Nat := Nat.pow 10 n

/-- The quotient of two natural numbers to the nearest integer, a half going to the even one. -/
def roundHalfEven (num den : Nat) : Nat :=
  let quotient := num / den
  let rest := 2 * (num % den)
  if rest < den then quotient
  else if den < rest then quotient + 1
  else if quotient % 2 = 0 then quotient
  else quotient + 1

def scaled (num den : Nat) (exponent : Int) : Nat × Nat :=
  if 0 ≤ exponent then (num, den * twoTo exponent.toNat)
  else (num * twoTo (-exponent).toNat, den)

/-- The exponent at which `num / den` has a significand of 53 bits, or the least exponent. -/
def exponentOf (num den : Nat) : Int :=
  let guess : Int := (Nat.log2 num : Int) - (Nat.log2 den : Int) - 52
  let (n, d) := scaled num den guess
  max (if n < d * twoTo 52 then guess - 1 else guess) (-1074)

def round (negative : Bool) (num den : Nat) : Binary64 :=
  if num = 0 then .finite negative 0 (-1074)
  else
    let exponent := exponentOf num den
    let (n, d) := scaled num den exponent
    let significand := roundHalfEven n d
    if significand = twoTo 53 then
      if 970 < exponent then .infinite negative else .finite negative (twoTo 52) (exponent + 1)
    else if 971 < exponent then .infinite negative
    else .finite negative significand exponent

def magnitude (significand : Nat) (exponent : Int) : Nat × Nat :=
  if 0 ≤ exponent then (significand * twoTo exponent.toNat, 1)
  else (significand, twoTo (-exponent).toNat)

def ofInt? (n : Int) : Option Binary64 :=
  match round (n < 0) n.natAbs 1 with
  | .infinite _ => none
  | x => some x

def toRat? : Binary64 → Option Rat
  | .finite negative significand exponent =>
    let (n, d) := magnitude significand exponent
    some (mkRat (if negative then -(n : Int) else n) d)
  | _ => none

def scale (x : Binary64) (factor : Nat) : Binary64 :=
  match x with
  | .finite negative significand exponent =>
    let (n, d) := magnitude significand exponent
    round negative (n * factor) d
  | x => x

def truncate? : Binary64 → Option Int
  | .finite negative significand exponent =>
    let (n, d) := magnitude significand exponent
    some (if negative then -((n / d : Nat) : Int) else ((n / d : Nat) : Int))
  | _ => none

def isIntegral : Binary64 → Bool
  | .finite _ significand exponent =>
    let (n, d) := magnitude significand exponent
    n % d = 0
  | _ => false

def ofDecimal (negative : Bool) (digits : Nat) (exponent : Int) : Binary64 :=
  if digits = 0 then .finite negative 0 (-1074)
  else if 400 < exponent then .infinite negative
  else if exponent + Nat.log2 digits < -400 then .finite negative 0 (-1074)
  else if 0 ≤ exponent then round negative (digits * tenTo exponent.toNat) 1
  else round negative digits (tenTo (-exponent).toNat)

end Binary64

end Handover
