import Spool.Grouping.Stream

/-!
# Windows on a group stream

Three wrappers choose which groups of a stream are delivered, by position. Indices stay those of
the stream underneath, and a group that is passed over is read to its end, so that its elements
are not mistaken for the next group.

* `TakeGroups`: the first `n` groups; after them it opens nothing, and never asks the stream
  underneath for another group;
* `DropGroups`: all groups but the first `n`;
* `FilterGroups`: the groups whose index satisfies a condition.

Element operations go to the stream underneath; a `TakeGroups` that has no open group answers
`none` itself. Every wrapper ends with the rest of the stream underneath.

A `GroupWindow` names one of the three, and `Grouped.withWindows` puts a list of them on a stream,
the first innermost.
-/

namespace Spool

/-- The first groups of a stream, at most `remaining` more. -/
structure TakeGroups (τ : Type) where
  /-- The stream underneath. -/
  inner : τ
  /-- How many more groups are delivered. -/
  remaining : Nat
  /-- Whether a delivered group is open. -/
  active : Bool := false

namespace TakeGroups

variable {τ α ρ : Type} [Grouped τ α ρ]

/-- Opens the next group while any is left to deliver. -/
def openNext (t : TakeGroups τ) : Option Nat × TakeGroups τ :=
  if t.remaining = 0 then
    (none, { t with active := false })
  else
    match Grouped.openNext t.inner with
    | (none, s) => (none, { t with inner := s, active := false })
    | (some i, s) => (some i, { inner := s, remaining := t.remaining - 1, active := true })

instance : Grouped (TakeGroups τ) α ρ where
  openNext := openNext
  drawInGroup t :=
    if t.active then
      let (a, s) := Grouped.drawInGroup t.inner
      (a, { t with inner := s })
    else
      (none, t)
  undrawInGroup a t := { t with inner := Grouped.undrawInGroup a t.inner }
  peekInGroup t :=
    if t.active then
      let (a, s) := Grouped.peekInGroup t.inner
      (a, { t with inner := s })
    else
      (none, t)
  groupOffset t := Grouped.groupOffset t.inner
  intoRest t := Grouped.intoRest t.inner
  supply t := Grouped.supply t.inner

end TakeGroups

/-- A stream without its first groups, `skip` more to pass over. -/
structure DropGroups (τ : Type) where
  /-- The stream underneath. -/
  inner : τ
  /-- How many more groups are passed over. -/
  skip : Nat

namespace DropGroups

variable {τ α ρ : Type} [Grouped τ α ρ]

/-- Passes over at most `n` groups, reading each to its end, then opens the next; the count left
to pass over comes back with it. -/
def skipThenOpen : Nat → τ → Option Nat × Nat × τ
  | 0, s =>
    let (i, s) := Grouped.openNext s
    (i, 0, s)
  | n + 1, s =>
    match Grouped.openNext s with
    | (none, s) => (none, n + 1, s)
    | (some _, s) => skipThenOpen n (Grouped.drainGroup s)

instance : Grouped (DropGroups τ) α ρ where
  openNext d :=
    let (i, skip, s) := skipThenOpen d.skip d.inner
    (i, { inner := s, skip := skip })
  drawInGroup d := let (a, s) := Grouped.drawInGroup d.inner; (a, { d with inner := s })
  undrawInGroup a d := { d with inner := Grouped.undrawInGroup a d.inner }
  peekInGroup d := let (a, s) := Grouped.peekInGroup d.inner; (a, { d with inner := s })
  groupOffset d := Grouped.groupOffset d.inner
  intoRest d := Grouped.intoRest d.inner
  supply d := Grouped.supply d.inner

end DropGroups

/-- The groups of a stream whose index satisfies `select`. -/
structure FilterGroups (τ : Type) where
  /-- The stream underneath. -/
  inner : τ
  /-- The condition on the index. -/
  select : Nat → Bool

namespace FilterGroups

variable {τ α ρ : Type} [Grouped τ α ρ]

/-- Opens groups, reading to its end each one whose index is not selected, at most `n` times. -/
def openSelected (select : Nat → Bool) : Nat → τ → Option Nat × τ
  | 0, s => (none, s)
  | n + 1, s =>
    match Grouped.openNext s with
    | (none, s) => (none, s)
    | (some i, s) => if select i then (some i, s) else openSelected select n (Grouped.drainGroup s)

instance : Grouped (FilterGroups τ) α ρ where
  openNext f :=
    let (i, s) := openSelected f.select (Grouped.supply f.inner + 1) f.inner
    (i, { f with inner := s })
  drawInGroup f := let (a, s) := Grouped.drawInGroup f.inner; (a, { f with inner := s })
  undrawInGroup a f := { f with inner := Grouped.undrawInGroup a f.inner }
  peekInGroup f := let (a, s) := Grouped.peekInGroup f.inner; (a, { f with inner := s })
  groupOffset f := Grouped.groupOffset f.inner
  intoRest f := Grouped.intoRest f.inner
  supply f := Grouped.supply f.inner

end FilterGroups

namespace Grouped

variable {τ : Type}

/-- The first `n` groups of `s`. -/
def takeGroups (n : Nat) (s : τ) : TakeGroups τ :=
  { inner := s, remaining := n }

/-- The groups of `s` but the first `n`. -/
def dropGroups (n : Nat) (s : τ) : DropGroups τ :=
  { inner := s, skip := n }

/-- The groups of `s` whose index satisfies `select`. -/
def filterGroups (select : Nat → Bool) (s : τ) : FilterGroups τ :=
  { inner := s, select := select }

end Grouped

/-- A window on a group stream, by group index. -/
inductive GroupWindow where
  /-- The first `n` groups. -/
  | take (n : Nat)
  /-- All groups but the first `n`. -/
  | drop (n : Nat)
  /-- The groups whose index satisfies the condition. -/
  | filter (select : Nat → Bool)

/-- The windows applied in order to `s`, the last one outermost, given to `k`: each window is a
stream of another type, so the chain is handed to a continuation that works for all of them. -/
def Grouped.withWindows {τ α ρ R : Type} [Grouped τ α ρ] :
    List GroupWindow → τ → ({υ : Type} → [Grouped υ α ρ] → υ → R) → R
  | [], s, k => k s
  | .take n :: ws, s, k => withWindows ws (takeGroups n s) k
  | .drop n :: ws, s, k => withWindows ws (dropGroups n s) k
  | .filter select :: ws, s, k => withWindows ws (filterGroups select s) k

end Spool
