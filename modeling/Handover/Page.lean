import Handover.Failure

namespace Handover

/-- The link to one page. -/
structure PageLink where
  size : Int
  page : Int
  deriving DecidableEq, Repr

namespace PageLink

/-- The link to the first page of a size. -/
def first (size : Int) : PageLink :=
  ⟨size, 0⟩

def next (link : PageLink) : PageLink :=
  ⟨link.size, link.page + 1⟩

def toValue (link : PageLink) : Value :=
  .record .pageLink [.int link.size, .int link.page]

def ofValue? : Value → Option PageLink
  | .record .pageLink [.int size, .int page] => some ⟨size, page⟩
  | _ => none

end PageLink

/-- The link to one page of the rows of a closed window of time. -/
structure TimePageLink where
  link : PageLink
  start : Int
  stop : Int
  deriving DecidableEq, Repr

namespace TimePageLink

/-- Whether a time lies in the window of a link. -/
def covers (window : TimePageLink) (time : Int) : Bool :=
  window.start ≤ time && time ≤ window.stop

def toValue (window : TimePageLink) : Value :=
  .record .timePageLink [window.link.toValue, .int window.start, .int window.stop]

def ofValue? : Value → Option TimePageLink
  | .record .timePageLink [link, .int start, .int stop] =>
    (PageLink.ofValue? link).map fun l => ⟨l, start, stop⟩
  | _ => none

end TimePageLink

/-- One page of rows: whether another one follows, and the numbers of rows and pages if known. -/
structure Page (α : Type) where
  rows : List α
  hasNext : Bool
  rowCount : Option Int
  pageCount : Option Int
  deriving Repr

namespace Page

/-- A bound of a cut of `length` items as a number of items: a negative bound counts from the
end. -/
def bound (length : Nat) (i : Int) : Nat :=
  min length (if i < 0 then i + length else i).toNat

def slice {α : Type} (items : List α) (start stop : Int) : List α :=
  let low := bound items.length start
  let high := bound items.length stop
  (items.drop low).take (high - low)

def cut {α : Type} (rows : List α) (link : PageLink) : Except Failure (Page α) :=
  if link.size = 0 then .error .divisionByZero
  else
    let start := link.page * link.size
    let stop := start + link.size
    let count : Int := rows.length
    .ok ⟨slice rows start stop, stop < count, some count,
      some ((count + link.size - 1).fdiv link.size)⟩

def toValue (page : Page Value) : Value :=
  let number (n : Option Int) : Value := n.elim .null .int
  .record .pageData [.list page.rows, .bool page.hasNext, number page.rowCount,
    number page.pageCount]

end Page

end Handover
