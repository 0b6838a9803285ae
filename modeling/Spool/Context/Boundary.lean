/-!
# Bounds

A bound decides, element by element, how far a view may read into its parent. Each element is
offered to it in turn (`offer`), and it may change as it answers (a count goes down); `isOpen` lets a
bound close the view before the parent is read at all, so that a count of zero reads nothing.

The bounds here are a count (`Take`), a condition on the elements (`TakeWhile`), no limit
(`Everything`), and `BoundRule`, which chooses one of the three at run time.
-/

namespace Spool

/-- A rule that admits elements of type `α` one at a time, changing as it goes. -/
class Boundary (β α : Type) where
  /-- Whether the bound may still admit anything; when not, the parent is not read. -/
  isOpen : β → Bool
  /-- Whether the offered element is admitted, and the bound after seeing it. -/
  offer : β → α → Bool × β

/-- Admits a fixed number of elements. -/
structure Take where
  /-- How many more elements are admitted. -/
  remaining : Nat

instance {α : Type} : Boundary Take α where
  isOpen b := 0 < b.remaining
  offer b _ := if b.remaining = 0 then (false, b) else (true, ⟨b.remaining - 1⟩)

/-- Admits the elements that satisfy a condition, up to the first that does not. -/
structure TakeWhile (α : Type) where
  /-- The condition. -/
  holds : α → Bool

instance {α : Type} : Boundary (TakeWhile α) α where
  isOpen _ := true
  offer b a := (b.holds a, b)

/-- Admits every element. -/
structure Everything where

instance {α : Type} : Boundary Everything α where
  isOpen _ := true
  offer b _ := (true, b)

/-- A bound chosen at run time: a count, a condition, or no limit. -/
inductive BoundRule (α : Type) where
  /-- Admits this many more elements. -/
  | count (n : Nat)
  /-- Admits the elements that satisfy the condition. -/
  | predicate (holds : α → Bool)
  /-- Admits every element. -/
  | unbounded

namespace BoundRule

variable {α : Type}

/-- A count of zero is closed; every other rule is open. -/
def isOpen : BoundRule α → Bool
  | .count 0 => false
  | _ => true

/-- A count admits while it lasts, a condition when it holds, and no limit always. -/
def offer : BoundRule α → α → Bool × BoundRule α
  | .count 0, _ => (false, .count 0)
  | .count (n + 1), _ => (true, .count n)
  | .predicate holds, a => (holds a, .predicate holds)
  | .unbounded, _ => (true, .unbounded)

instance : Boundary (BoundRule α) α where
  isOpen := isOpen
  offer := offer

end BoundRule

end Spool
