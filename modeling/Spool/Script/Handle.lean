import Spool.Context.Cursor
import Spool.Context.View
import Spool.Grouping.Stream

/-!
# What a script sees of a context

Beyond drawing and pushing back, a script may look at the pushback stack of a cursor and at the
bound of a view, and change a view: restart it or set its count. A `Handle` gives these for each
kind of context, and `none` where the kind has no such thing. `BoundControl` is what a view's
bound shows: what is left of a count, whether the count can be set, and the bound as text.
-/

namespace Spool.Script

/-- What a script can read and change of a bound. -/
class BoundControl (β : Type) where
  /-- What is left of a count, for a count that has it. -/
  remaining : β → Option Nat
  /-- The bound with its count set to `n`, for a bound that counts. -/
  resize : Nat → β → Option β
  /-- The bound as text. -/
  describe : β → String

instance : BoundControl Take where
  remaining b := some b.remaining
  resize n _ := some ⟨n⟩
  describe b := s!"Take \x7b remaining: {b.remaining} \x7d"

instance {α : Type} : BoundControl (TakeWhile α) where
  remaining _ := none
  resize _ _ := none
  describe _ := "TakeWhile"

instance : BoundControl Everything where
  remaining _ := none
  resize _ _ := none
  describe _ := "Everything"

instance {α : Type} : BoundControl (BoundRule α) where
  remaining _ := none
  resize n
    | .count _ => some (.count n)
    | _ => none
  describe
    | .count n => s!"Count({n})"
    | .predicate _ => "Predicate"
    | .unbounded => "Unbounded"

/-- What a script can see and change of a context besides its elements. -/
class Handle (σ : Type) where
  /-- The pushback stack, bottom first, of a cursor. -/
  pending : σ → Option (List Int64)
  /-- Whether a view has ended. -/
  closed : σ → Option Bool
  /-- A view restarted. -/
  restart : σ → Option σ
  /-- What is left of a view's count, when the view has one. -/
  remaining : σ → Option (Option Nat)
  /-- A view with its count set, and whether its bound has a count. -/
  resize : Nat → σ → Option (Bool × σ)
  /-- A view's bound, as text. -/
  describe : σ → Option String

instance {π ρ : Type} [Producer π Int64 ρ] : Handle (Cursor π Int64) where
  pending c := some c.pending
  closed _ := none
  restart _ := none
  remaining _ := none
  resize _ _ := none
  describe _ := none

instance {γ β : Type} [BoundControl β] : Handle (View γ β) where
  pending _ := none
  closed v := some v.closed
  restart v := some v.restart
  remaining v := some (BoundControl.remaining v.bound)
  resize n v :=
    some <| match BoundControl.resize n v.bound with
      | some b => (true, { v with bound := b })
      | none => (false, v)
  describe v := some (BoundControl.describe v.bound)

instance {τ : Type} : Handle (Group τ) where
  pending _ := none
  closed _ := none
  restart _ := none
  remaining _ := none
  resize _ _ := none
  describe _ := none

end Spool.Script
