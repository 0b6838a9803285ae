import Spool.Producer.Basic
import Spool.Context.Basic

/-!
# Group streams

A group stream cuts a stream into consecutive groups and lets them be read one at a time:
`openNext` opens the next group and tells its index, and the element operations read the open
group, which ends where the grouping says. A group may be left before it is read to its end; its
remaining elements then belong to what follows. `intoRest` ends the stream and gives back what it
was built on.

A `Group` is the handle of the open group: a context whose operations are those of the group, and
a producer whose result is the stream. `Borrow` uses a stream through a borrow, as a base for
further windows: finishing it gives back the stream itself, which then goes on.
-/

namespace Spool

/-- A stream of elements of type `α` read group by group; what remains at the end is a `ρ`. -/
class Grouped (τ : Type) (α : outParam Type) (ρ : outParam Type) where
  /-- Opens the next group and gives its index, or `none` when no group is left. -/
  openNext : τ → Option Nat × τ
  /-- The next element of the open group, or `none` at its end. -/
  drawInGroup : τ → Option α × τ
  /-- Puts an element in front of the open group. -/
  undrawInGroup : α → τ → τ
  /-- The next element of the open group without consuming it. -/
  peekInGroup : τ → Option α × τ
  /-- The offset of the open group. -/
  groupOffset : τ → Nat
  /-- Ends the stream and gives back what it was built on. -/
  intoRest : τ → ρ
  /-- An upper bound on the number of elements the stream can still deliver. -/
  supply : τ → Nat

namespace Grouped

variable {τ α ρ : Type} [Grouped τ α ρ]

/-- Reads at most `n` elements of the open group, stopping at its end; gives how many. -/
def drainUpTo : Nat → τ → Nat × τ
  | 0, s => (0, s)
  | n + 1, s =>
    match drawInGroup s with
    | (none, s) => (0, s)
    | (some _, s) =>
      let (k, s) := drainUpTo n s
      (k + 1, s)

/-- Reads the open group to its end, discarding its elements. -/
def drainGroup (s : τ) : τ :=
  (drainUpTo (supply s + 1) s).2

/-- At most `n` elements of the open group, stopping at its end. -/
def readGroupUpTo : Nat → τ → List α × τ
  | 0, s => ([], s)
  | n + 1, s =>
    match drawInGroup s with
    | (none, s) => ([], s)
    | (some a, s) =>
      let (rest, s) := readGroupUpTo n s
      (a :: rest, s)

/-- The rest of the open group. -/
def readGroup (s : τ) : List α × τ :=
  readGroupUpTo (supply s + 1) s

/-- At most `n` groups, each opened and read whole. -/
def readGroupsUpTo : Nat → τ → List (List α) × τ
  | 0, s => ([], s)
  | n + 1, s =>
    match openNext s with
    | (none, s) => ([], s)
    | (some _, s) =>
      let (items, s) := readGroup s
      let (rest, s) := readGroupsUpTo n s
      (items :: rest, s)

/-- Every group, each opened and read whole. -/
def readGroups (s : τ) : List (List α) × τ :=
  readGroupsUpTo (supply s + 1) s

end Grouped

/-- The open group of a stream, with its index. -/
structure Group (τ : Type) where
  /-- The stream whose open group this is. -/
  stream : τ
  /-- The index of the group. -/
  index : Nat

namespace Group

variable {τ α ρ : Type} [Grouped τ α ρ]

/-- The next element of the group. -/
def draw (g : Group τ) : Option α × Group τ :=
  let (a, s) := Grouped.drawInGroup g.stream
  (a, { g with stream := s })

/-- Puts an element in front of the group. -/
def undraw (a : α) (g : Group τ) : Group τ :=
  { g with stream := Grouped.undrawInGroup a g.stream }

/-- The next element of the group without consuming it. -/
def peek (g : Group τ) : Option α × Group τ :=
  let (a, s) := Grouped.peekInGroup g.stream
  (a, { g with stream := s })

instance : Context (Group τ) α where
  draw := draw
  undraw := undraw
  peek := peek
  offset g := Grouped.groupOffset g.stream
  supply g := Grouped.supply g.stream

/-- As a producer a group yields its elements; its result is the stream, which goes on. -/
instance : Producer (Group τ) α τ where
  pull := draw
  finish g := g.stream
  supply g := Grouped.supply g.stream

end Group

/-- A group stream used through a borrow: every operation is the stream's own, and its rest is
the stream itself. -/
structure Borrow (τ : Type) where
  /-- The borrowed stream. -/
  stream : τ

namespace Borrow

variable {τ α ρ : Type} [Grouped τ α ρ]

instance : Grouped (Borrow τ) α τ where
  openNext b := let (i, s) := Grouped.openNext b.stream; (i, ⟨s⟩)
  drawInGroup b := let (a, s) := Grouped.drawInGroup b.stream; (a, ⟨s⟩)
  undrawInGroup a b := ⟨Grouped.undrawInGroup a b.stream⟩
  peekInGroup b := let (a, s) := Grouped.peekInGroup b.stream; (a, ⟨s⟩)
  groupOffset b := Grouped.groupOffset b.stream
  intoRest b := b.stream
  supply b := Grouped.supply b.stream

end Borrow

end Spool
