/-!
# Contexts

A context is a stream that can be read and pushed back into: `draw` removes the next element,
`undraw` puts any element in front, `peek` shows the next element without consuming it, and
`offset` counts how far the context has been consumed. Cursors over producers, bounded views and
the open group of a group stream are contexts, and the operations here work on all of them.

The derived operations are the ones a parser needs: a test of the end of input, skipping,
drawing under a condition (the element goes back when the condition fails) and reading to the
end, collecting or folding. Reading to the end is bounded by `supply + 1` draws, where `supply`
bounds the elements a context can still deliver.
-/

namespace Spool

/-- A stream of elements of type `α` that can be drawn from and pushed back into. -/
class Context (σ : Type) (α : outParam Type) where
  /-- The next element, or `none` at the end, with the context after the draw. -/
  draw : σ → Option α × σ
  /-- Puts an element in front of the stream: it is the next one drawn. -/
  undraw : α → σ → σ
  /-- The next element without consuming it. -/
  peek : σ → Option α × σ
  /-- How many elements the context has consumed, net of those pushed back. -/
  offset : σ → Nat
  /-- An upper bound on the number of elements the context can still deliver. -/
  supply : σ → Nat

namespace Context

variable {σ α : Type} [Context σ α]

/-- Whether nothing is left, found by peeking. -/
def isEnd (s : σ) : Bool × σ :=
  let (next, s) := peek s
  (next.isNone, s)

/-- Draws one element and tells whether there was one. -/
def skip (s : σ) : Bool × σ :=
  let (next, s) := draw s
  (next.isSome, s)

/-- Draws the next element if it satisfies `p`; otherwise it is pushed back. -/
def drawIf (p : α → Bool) (s : σ) : Option α × σ :=
  match draw s with
  | (none, s) => (none, s)
  | (some a, s) => if p a then (some a, s) else (none, undraw a s)

/-- At most `n` draws, stopping at the first `none`. -/
def drawUpTo : Nat → σ → List α × σ
  | 0, s => ([], s)
  | n + 1, s =>
    match draw s with
    | (none, s) => ([], s)
    | (some a, s) =>
      let (rest, s) := drawUpTo n s
      (a :: rest, s)

/-- Every remaining element, drawn up to and including the first `none`. -/
def drawAll (s : σ) : List α × σ :=
  drawUpTo (supply s + 1) s

/-- Folds at most `n` drawn elements into `acc`, stopping at the first `none`. -/
def foldUpTo {β : Type} (step : β → α → β) : Nat → β → σ → β × σ
  | 0, acc, s => (acc, s)
  | n + 1, acc, s =>
    match draw s with
    | (none, s) => (acc, s)
    | (some a, s) => foldUpTo step n (step acc a) s

/-- Folds every remaining element into `init`, from the first to the last. -/
def foldAll {β : Type} (step : β → α → β) (init : β) (s : σ) : β × σ :=
  foldUpTo step (supply s + 1) init s

end Context

end Spool
