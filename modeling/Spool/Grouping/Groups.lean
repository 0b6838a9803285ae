import Spool.Context.View
import Spool.Grouping.Rule
import Spool.Grouping.Stream

/-!
# Grouping a context

`Groups` reads a context group by group with one view, bounded by a grouping rule. Opening a
group restarts the view, resets the rule and peeks: the peek admits the group's first element and
leaves it lent to the parent, and a group opens only when that peek finds an element. The element
that ends a group is refused by the rule and stays on the parent, where the next group finds it.

`opened` counts the groups opened so far, and `intoRest` gives back the context, positioned after
what the groups consumed.
-/

namespace Spool

/-- The groups of a context `γ` under a grouping rule `β`. -/
structure Groups (γ β : Type) where
  /-- The view through which every group is read. -/
  view : View γ β
  /-- How many groups have been opened. -/
  opened : Nat := 0
  /-- Whether a group is open. -/
  active : Bool := false

namespace Groups

variable {γ β α : Type} [Context γ α] [GroupingRule β α]

/-- The groups of `context` under `rule`, none opened yet. -/
def ofRule (context : γ) (rule : β) : Groups γ β :=
  { view := View.ofBound context rule }

/-- Restarts the view, resets the rule and peeks; the group opens if an element is there. -/
def openNext (g : Groups γ β) : Option Nat × Groups γ β :=
  let view := g.view.restart
  let view := { view with bound := @GroupingRule.reset β α _ view.bound }
  let (first, view) := view.peek
  if first.isSome then
    (some g.opened, { g with view := view, opened := g.opened + 1, active := true })
  else
    (none, { g with view := view, active := false })

/-- The next element of the open group. -/
def drawInGroup (g : Groups γ β) : Option α × Groups γ β :=
  if g.active then
    let (a, view) := g.view.draw
    (a, { g with view := view })
  else
    (none, g)

/-- Puts an element in front of the group; this makes the group open. -/
def undrawInGroup (a : α) (g : Groups γ β) : Groups γ β :=
  { g with view := g.view.undraw a, active := true }

/-- The next element of the open group without consuming it. -/
def peekInGroup (g : Groups γ β) : Option α × Groups γ β :=
  if g.active then
    let (a, view) := g.view.peek
    (a, { g with view := view })
  else
    (none, g)

instance : Grouped (Groups γ β) α γ where
  openNext := openNext
  drawInGroup := drawInGroup
  undrawInGroup := undrawInGroup
  peekInGroup := peekInGroup
  groupOffset g := g.view.offset
  intoRest g := g.view.resume
  supply g := g.view.supply

end Groups

/-- The groups of `s` under `rule`. -/
def Context.groups {γ β : Type} (rule : β) (s : γ) : Groups γ β :=
  { view := View.ofBound s rule }

end Spool
