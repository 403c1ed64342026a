import Handover.Act
import Handover.Page

namespace Handover.Pager

variable {m : Type → Type} [Monad m] {α : Type}

/-- Visits rows until a visit answers that no more are wanted; tells whether all were visited. -/
def visitRows (visit : α → m Bool) : List α → m Bool
  | [] => pure true
  | row :: rest => do
    if ← visit row then visitRows visit rest else pure false

variable [Fallible m]

/-- Visits the rows of the page at a link and of those after it; `bound` is the greatest number of
pages. -/
def visitFrom (fetch : PageLink → m (Page α)) (visit : α → m Bool) : Nat → PageLink → m Bool
  | 0, _ => Fallible.fail .endlessPages
  | bound + 1, link => do
    let page ← fetch link
    if ← visitRows visit page.rows then
      if page.hasNext then visitFrom fetch visit bound link.next else pure true
    else pure false

/-- Visits every row of a source in pages of a positive size, until no more are wanted; tells
whether all were visited. -/
def visitPages (bound : Nat) (size : Int) (fetch : PageLink → m (Page α)) (visit : α → m Bool) :
    m Bool :=
  if size ≤ 0 then Fallible.fail .pageSizeNotPositive
  else visitFrom fetch visit bound (.first size)

def forEach (bound : Nat) (size : Int) (fetch : PageLink → m (Page α)) (visit : α → m Unit) :
    m Unit :=
  discard (visitPages bound size fetch fun row => do visit row; pure true)

end Handover.Pager
