import Spool.Producer.Basic
import Spool.Context.Basic
import Spool.Context.Boundary

/-!
# Bounded views

A view reads its parent context as far as its bound admits. Each element drawn from the parent is
offered to the bound; the first one refused goes back to the parent and closes the view, and so
does the end of the parent or a bound that is no longer open. A closed view stays closed until it
is restarted.

Elements pushed back into a view go straight to the parent; the view only counts them as `lent`,
and draws them back from the parent before it reads anything new, without asking the bound again.
`offset` is the number of admitted elements less the lent ones, truncated at zero. When nothing is
lent, a peek is a hidden draw and push back, so it may advance the bound.

When the view is done, `resume` gives back the parent, positioned after what the view consumed;
`Context.zoom` runs a function on a view and resumes it.
-/

namespace Spool

/-- A context that reads `parent` as far as `bound` admits. -/
structure View (γ β : Type) where
  /-- The context read through the view. -/
  parent : γ
  /-- The bound, as it stands after the elements admitted so far. -/
  bound : β
  /-- How many elements the bound has admitted since the view began or restarted. -/
  admitted : Nat := 0
  /-- How many elements were pushed back through the view and not drawn again. -/
  lent : Nat := 0
  /-- Whether the view has ended. -/
  closed : Bool := false

namespace View

variable {γ β α : Type} [Context γ α] [Boundary β α]

/-- A fresh view on `parent`. -/
def ofBound (parent : γ) (bound : β) : View γ β :=
  { parent := parent, bound := bound }

/-- Forgets the count, the lent elements and the closing; the bound keeps its state. -/
def restart (v : View γ β) : View γ β :=
  { v with admitted := 0, lent := 0, closed := false }

/-- The parent, positioned after what the view consumed. -/
def resume (v : View γ β) : γ :=
  v.parent

/-- Draws a lent element back, or else reads one more element if the bound admits it. -/
def draw (v : View γ β) : Option α × View γ β :=
  if 0 < v.lent then
    let (a, p) := Context.draw v.parent
    (a, { v with parent := p, lent := v.lent - 1 })
  else if v.closed then
    (none, v)
  else if !@Boundary.isOpen β α _ v.bound then
    (none, { v with closed := true })
  else
    match Context.draw v.parent with
    | (none, p) => (none, { v with parent := p, closed := true })
    | (some a, p) =>
      match Boundary.offer v.bound a with
      | (true, b) => (some a, { v with parent := p, bound := b, admitted := v.admitted + 1 })
      | (false, b) =>
        (none, { v with parent := Context.undraw a p, bound := b, closed := true })

/-- Pushes `a` back into the parent and counts it as lent. -/
def undraw (a : α) (v : View γ β) : View γ β :=
  { v with parent := Context.undraw a v.parent, lent := v.lent + 1 }

/-- The next element: when nothing is lent, one is drawn and pushed back first. -/
def peek (v : View γ β) : Option α × View γ β :=
  if v.lent = 0 then
    match v.draw with
    | (none, v) => (none, v)
    | (some a, v) =>
      let v := v.undraw a
      let (next, p) := Context.peek v.parent
      (next, { v with parent := p })
  else
    let (next, p) := Context.peek v.parent
    (next, { v with parent := p })

/-- Admitted less lent, truncated at zero. -/
def offset (v : View γ β) : Nat :=
  v.admitted - v.lent

/-- What the parent can still deliver. -/
def supply (v : View γ β) : Nat :=
  Context.supply v.parent

instance : Context (View γ β) α where
  draw := draw
  undraw := undraw
  peek := peek
  offset := offset
  supply := supply

instance : Producer (View γ β) α γ where
  pull := draw
  finish := resume
  supply := supply

end View

namespace Context

variable {σ β α : Type} [Context σ α] [Boundary β α]

/-- A view on `s` bounded by `bound`; `View.resume` ends it. -/
def split (bound : β) (s : σ) : View σ β :=
  View.ofBound s bound

/-- Runs `f` on a view of `s` bounded by `bound`, then resumes the view. -/
def zoom {γ : Type} (bound : β) (f : View σ β → γ × View σ β) (s : σ) : γ × σ :=
  let (out, v) := f (split bound s)
  (out, v.resume)

end Context

end Spool
