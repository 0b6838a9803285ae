import Spool.Context.Boundary

/-!
# Grouping rules

A grouping rule is a bound that can start over: a group stream reads each group through one view
and resets the rule when it opens the next group. After a reset every rule admits the first
element offered, so no group is empty.

* `RunsBy`: an element joins the group when it relates to the group's first element (`runs` is
  equality);
* `AdjacentBy`: an element joins when it relates to the element admitted just before it;
* `Partitions`: an element joins when a condition gives the same answer as for the first element;
* `Chunks`: a fixed number of elements per group, at least one.
-/

namespace Spool

/-- A bound that can be reset to its state at the start of a group. -/
class GroupingRule (β α : Type) extends Boundary β α where
  /-- The rule as it stands at the start of a group. -/
  reset : β → β

/-- Groups the elements that relate to the first element of their group. -/
structure RunsBy (α : Type) where
  /-- The first element of the current group, once there is one. -/
  first : Option α := none
  /-- The relation between the first element and the one offered. -/
  same : α → α → Bool

instance {α : Type} : GroupingRule (RunsBy α) α where
  isOpen _ := true
  offer r a :=
    match r.first with
    | some x => (r.same x a, r)
    | none => (true, { r with first := some a })
  reset r := { r with first := none }

/-- Runs of equal elements. -/
def runs {α : Type} [BEq α] : RunsBy α :=
  { same := fun a b ↦ a == b }

/-- Groups the elements that relate to the element admitted just before them. -/
structure AdjacentBy (α : Type) where
  /-- The element admitted last in the current group, once there is one. -/
  previous : Option α := none
  /-- The relation between the previous element and the one offered. -/
  same : α → α → Bool

instance {α : Type} : GroupingRule (AdjacentBy α) α where
  isOpen _ := true
  offer r a :=
    match r.previous with
    | some x => (r.same x a, if r.same x a then { r with previous := some a } else r)
    | none => (true, { r with previous := some a })
  reset r := { r with previous := none }

/-- Groups the elements on which a condition answers as it did for the first of the group. -/
structure Partitions (α : Type) where
  /-- The answer for the first element of the current group, once there is one. -/
  side : Option Bool := none
  /-- The condition. -/
  holds : α → Bool

instance {α : Type} : GroupingRule (Partitions α) α where
  isOpen _ := true
  offer r a :=
    let side := r.holds a
    match r.side with
    | some current => (current == side, r)
    | none => (true, { r with side := some side })
  reset r := { r with side := none }

/-- Groups of `size` elements; the last group may be shorter. -/
structure Chunks where
  /-- The number of elements per group, at least one. -/
  size : Nat
  /-- How many more elements the current group takes. -/
  left : Nat

/-- Groups of `size` elements, a size of zero counting as one. -/
def Chunks.ofSize (size : Nat) : Chunks :=
  { size := max size 1, left := max size 1 }

instance {α : Type} : GroupingRule Chunks α where
  isOpen r := 0 < r.left
  offer r _ := if r.left = 0 then (false, r) else (true, { r with left := r.left - 1 })
  reset r := { r with left := r.size }

end Spool
