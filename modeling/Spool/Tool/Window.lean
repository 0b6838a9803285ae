/-!
# Windows of groups

Both tools print a window of the groups of their input: the groups after the first `skip`, at most
`take` of them. Without `take` the window is unbounded, which is a count of 2^64 - 1 groups: more
than any input can hold.
-/

namespace Spool.Tool

/-- Which groups a tool prints. -/
structure Window where
  /-- How many leading groups to pass over. -/
  skip : Nat := 0
  /-- How many groups to print after them, if limited. -/
  take : Option Nat := none

/-- The most groups the window prints. -/
def Window.limit (w : Window) : Nat :=
  w.take.getD (UInt64.size - 1)

/-- What a tool wrote, and how it ended: the number of groups printed, or the read failure that
stopped it. -/
structure Report (ε : Type) where
  /-- The text written. -/
  output : String
  /-- The number of groups printed, or the failure. -/
  outcome : Except ε Nat

end Spool.Tool
