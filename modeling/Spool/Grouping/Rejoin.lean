import Spool.Context.Cursor
import Spool.Grouping.Groups

/-!
# Rejoining groups

Three producers read a group stream group after group and hand out one flat stream:

* `Rejoin` concatenates the groups;
* `Intercalate` puts a separator between consecutive groups, none before the first or after the
  last; it opens the next group before it hands out a separator, so no separator follows the
  last group;
* `FoldGroups` folds each group into one value.

Each ends with the rest of the group stream. `regroup` rejoins the groups of a context chosen by a
window, and `Context.regroup` runs a function on a cursor over them, after which whatever that
cursor holds pushed back goes back to the context, in the order in which it would have been
drawn.
-/

namespace Spool

/-- The concatenation of the groups of a stream. -/
structure Rejoin (τ : Type) where
  /-- The group stream. -/
  stream : τ
  /-- Whether a group is open. -/
  active : Bool := false

namespace Rejoin

variable {τ α ρ : Type} [Grouped τ α ρ]

/-- Draws from the open group; at its end opens the next, at most `n` times. -/
def pullUpTo : Nat → Rejoin τ → Option α × Rejoin τ
  | 0, r => (none, r)
  | n + 1, r =>
    let drawn :=
      if r.active then
        let (a, s) := Grouped.drawInGroup r.stream
        (a, { r with stream := s })
      else
        (none, r)
    match drawn with
    | (some a, r) => (some a, r)
    | (none, r) =>
      match Grouped.openNext r.stream with
      | (none, s) => (none, { stream := s, active := false })
      | (some _, s) => pullUpTo n { stream := s, active := true }

instance : Producer (Rejoin τ) α ρ where
  pull r := pullUpTo (Grouped.supply r.stream + 2) r
  finish r := Grouped.intoRest r.stream
  supply r := Grouped.supply r.stream

end Rejoin

/-- Where an `Intercalate` stands. -/
inductive Phase where
  /-- No group opened yet. -/
  | start
  /-- Inside a group. -/
  | group
  /-- Inside the separator, at this position. -/
  | separator (pos : Nat)
  /-- After the last group. -/
  | done

/-- The groups of a stream with a separator between consecutive groups. -/
structure Intercalate (τ α : Type) where
  /-- The group stream. -/
  stream : τ
  /-- The separator. -/
  separator : List α
  /-- Where the producer stands. -/
  phase : Phase := .start

namespace Intercalate

variable {τ α ρ : Type} [Grouped τ α ρ]

/-- At most `n` steps of the phase machine until an element comes out or the groups end. -/
def pullUpTo : Nat → Intercalate τ α → Option α × Intercalate τ α
  | 0, p => (none, p)
  | n + 1, p =>
    match p.phase with
    | .start =>
      let (i, s) := Grouped.openNext p.stream
      pullUpTo n { p with stream := s, phase := if i.isSome then .group else .done }
    | .group =>
      match Grouped.drawInGroup p.stream with
      | (some a, s) => (some a, { p with stream := s })
      | (none, s) =>
        let (i, s) := Grouped.openNext s
        pullUpTo n { p with stream := s, phase := if i.isSome then .separator 0 else .done }
    | .separator pos =>
      match p.separator[pos]? with
      | some a => (some a, { p with phase := .separator (pos + 1) })
      | none => pullUpTo n { p with phase := .group }
    | .done => (none, p)

/-- The elements still to come are bounded by the stream's elements, one separator per element
of the stream, and the rest of the current separator. -/
def supply (p : Intercalate τ α) : Nat :=
  (Grouped.supply p.stream + 1) * (p.separator.length + 1) + p.separator.length

instance : Producer (Intercalate τ α) α ρ where
  pull p := pullUpTo (supply p + 4) p
  finish p := Grouped.intoRest p.stream
  supply := supply

end Intercalate

/-- One fold per group of a stream. -/
structure FoldGroups (τ β α : Type) where
  /-- The group stream. -/
  stream : τ
  /-- The value each group's fold starts from. -/
  init : β
  /-- The step of each fold. -/
  step : β → α → β

namespace FoldGroups

variable {τ α ρ β : Type} [Grouped τ α ρ]

/-- Folds at most `n` elements of the open group into `acc`. -/
def foldGroupUpTo (step : β → α → β) : Nat → β → τ → β × τ
  | 0, acc, s => (acc, s)
  | n + 1, acc, s =>
    match Grouped.drawInGroup s with
    | (none, s) => (acc, s)
    | (some a, s) => foldGroupUpTo step n (step acc a) s

/-- Opens the next group and folds it to its end. -/
def pull (f : FoldGroups τ β α) : Option β × FoldGroups τ β α :=
  match Grouped.openNext f.stream with
  | (none, s) => (none, { f with stream := s })
  | (some _, s) =>
    let (acc, s) := foldGroupUpTo f.step (Grouped.supply s + 1) f.init s
    (some acc, { f with stream := s })

instance : Producer (FoldGroups τ β α) β ρ where
  pull := pull
  finish f := Grouped.intoRest f.stream
  supply f := Grouped.supply f.stream

end FoldGroups

namespace Grouped

variable {τ α ρ : Type} [Grouped τ α ρ]

/-- The groups of `s`, concatenated. -/
def concat (s : τ) : Rejoin τ :=
  { stream := s }

/-- The groups of `s` with `separator` between consecutive groups. -/
def intercalate (separator : List α) (s : τ) : Intercalate τ α :=
  { stream := s, separator := separator }

/-- The fold of each group of `s`, from `init` by `step`. -/
def foldGroups {β : Type} (init : β) (step : β → α → β) (s : τ) : FoldGroups τ β α :=
  { stream := s, init := init, step := step }

end Grouped

/-- The groups of `context` under `rule`, chosen by `window`, concatenated. -/
def regroup {γ β α τ ρ : Type} [Context γ α] [GroupingRule β α] [Grouped τ α ρ]
    (window : Groups γ β → τ) (rule : β) (context : γ) : Rejoin τ :=
  Grouped.concat (window (Groups.ofRule context rule))

namespace Grouped

variable {σ α τ δ : Type} [Context σ α] [Grouped τ α σ]

/-- Runs `f` on a cursor over the concatenation of the groups of `t`, then ends `t` and gives back
its rest with the cursor's pushed-back elements in front, in the order in which the cursor would
draw them. -/
def rejoinWith (f : Cursor (Rejoin τ) α → δ × Cursor (Rejoin τ) α) (t : τ) : δ × σ :=
  let (out, c) := f (Cursor.ofProducer (concat t))
  let outer : σ := Producer.finish c.producer
  (out, c.pending.foldl (fun s a ↦ Context.undraw a s) outer)

end Grouped

namespace Context

variable {σ β α τ δ : Type} [Context σ α] [GroupingRule β α] [Grouped τ α σ]

/-- Runs `f` on a cursor over the groups of `s` chosen by `window`, then gives back `s` with the
cursor's pushed-back elements in front. -/
def regroup (rule : β) (window : Groups σ β → τ)
    (f : Cursor (Rejoin τ) α → δ × Cursor (Rejoin τ) α) (s : σ) : δ × σ :=
  Grouped.rejoinWith f (window (Groups.ofRule s rule))

end Context

end Spool
