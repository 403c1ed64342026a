namespace Handover

/-- A date and a time of day; `offset` is the distance from universal time in seconds, absent for
a timestamp that names no place. -/
structure Timestamp where
  year : Nat
  month : Nat
  day : Nat
  hour : Nat
  minute : Nat
  second : Nat
  microsecond : Nat
  offset : Option Int
  deriving DecidableEq, Repr

namespace Timestamp

/-- A number padded with zeros to a width. -/
def padded (width n : Nat) : String :=
  let ds := Nat.toDigits 10 n
  String.ofList (List.replicate (width - ds.length) '0' ++ ds)

def offsetText (offset : Int) : String :=
  let n := offset.natAbs
  let seconds := n % 60
  (if offset < 0 then "-" else "+") ++ padded 2 (n / 3600) ++ ":" ++ padded 2 (n / 60 % 60)
    ++ (if seconds = 0 then "" else ":" ++ padded 2 seconds)

def localText (t : Timestamp) : String :=
  padded 4 t.year ++ "-" ++ padded 2 t.month ++ "-" ++ padded 2 t.day ++ "T"
    ++ padded 2 t.hour ++ ":" ++ padded 2 t.minute ++ ":" ++ padded 2 t.second
    ++ (if t.microsecond = 0 then "" else "." ++ padded 6 t.microsecond)

def text (t : Timestamp) : String :=
  t.localText ++ (match t.offset with
    | none => ""
    | some offset => offsetText offset)

/-- The days from 1 March of year 0 to a date of the proleptic calendar. -/
def dayNumber (t : Timestamp) : Int :=
  let y : Int := if t.month ≤ 2 then (t.year : Int) - 1 else t.year
  let m : Int := (t.month + 9) % 12
  365 * y + y / 4 - y / 100 + y / 400 + (153 * m + 2) / 5 + t.day - 1

/-- The microseconds from 1 March of year 0, local time less the offset. -/
def position (t : Timestamp) : Int :=
  (((t.dayNumber * 24 + t.hour) * 60 + t.minute) * 60 + t.second - t.offset.getD 0) * 1000000
    + t.microsecond

/-- Two timestamps are the same moment when both or neither carry an offset and they lie at the
same position. -/
def sameMoment (a b : Timestamp) : Bool :=
  a.offset.isSome == b.offset.isSome && a.position == b.position

end Timestamp

/-- A moment of universal time, in seconds from 1 January 2024. -/
structure Instant where
  seconds : Nat
  deriving DecidableEq, Repr, Ord

namespace Instant

/-- The lengths of the months of a year. -/
def monthLengths (leap : Bool) : List Nat :=
  [31, if leap then 29 else 28, 31, 30, 31, 30, 31, 31, 30, 31, 30, 31]

def monthAndDay : List Nat → Nat → Nat → Nat × Nat
  | [], month, day => (month, day + 1)
  | length :: rest, month, day =>
    if day < length then (month, day + 1) else monthAndDay rest (month + 1) (day - length)

def isLeap (year : Nat) : Bool :=
  year % 4 = 0 && (year % 100 ≠ 0 || year % 400 = 0)

def yearLength (year : Nat) : Nat :=
  if isLeap year then 366 else 365

theorem yearLength_pos (year : Nat) : 0 < yearLength year := by
  unfold yearLength
  split <;> omega

/-- The year of a day counted from the first day of `year`, and the day within that year. -/
def yearAndDay (year day : Nat) : Nat × Nat :=
  if day < yearLength year then (year, day) else yearAndDay (year + 1) (day - yearLength year)
termination_by day
decreasing_by
  have := yearLength_pos year
  omega

def timestamp (i : Instant) : Timestamp :=
  let (year, dayOfYear) := yearAndDay 2024 (i.seconds / 86400)
  let (month, day) := monthAndDay (monthLengths (isLeap year)) 1 dayOfYear
  let rest := i.seconds % 86400
  ⟨year, month, day, rest / 3600, rest / 60 % 60, rest % 60, 0, some 0⟩

def text (i : Instant) : String :=
  i.timestamp.text

def zuluText (i : Instant) : String :=
  i.timestamp.localText ++ "Z"

end Instant

end Handover
