/-!
# Producers

A producer hands out elements one at a time and, once it has no more, a final result. It is a
resumable value: what has not been pulled is still owned by the producer, so the state after any
number of pulls can be handed to another consumer.

A pull returns the producer after the pull also when it yields nothing, because a pull that finds
the end may change the state (a reader records its error, a cursor marks itself exhausted).
Every producer also reports its `supply`, an upper bound on the elements still to come; the loops
that read a producer to its end take `supply + 1` as their fuel, which is one more pull than there
can be elements.

Main definitions:

* `Producer`: the class, with `pull`, `finish` and `supply`;
* `Producer.pullUpTo`: at most `n` pulls, stopping at the first `none`;
* `Producer.elements`, `Producer.collectAll`, `Producer.drain`: reading to the end.
-/

namespace Spool

/-- A source of elements of type `α`, pulled one at a time, that ends with a result of type `ρ`.
Once `pull` has returned `none` it keeps returning `none`. -/
class Producer (π : Type) (α : outParam Type) (ρ : outParam Type) where
  /-- The next element, or `none` once the producer is exhausted, with the producer after it. -/
  pull : π → Option α × π
  /-- The final result. -/
  finish : π → ρ
  /-- An upper bound on the number of elements still to come. -/
  supply : π → Nat

namespace Producer

variable {π α ρ : Type} [Producer π α ρ]

/-- At most `n` pulls, stopping at the first `none`: the elements, then the producer after
them. -/
def pullUpTo : Nat → π → List α × π
  | 0, p => ([], p)
  | n + 1, p =>
    match pull p with
    | (none, p) => ([], p)
    | (some a, p) =>
      let (rest, p) := pullUpTo n p
      (a :: rest, p)

/-- Every remaining element, pulled up to and including the first `none`. -/
def elements (p : π) : List α × π :=
  pullUpTo (supply p + 1) p

/-- Every remaining element together with the final result. -/
def collectAll (p : π) : List α × ρ :=
  let (items, p) := elements p
  (items, finish p)

/-- Pulls every remaining element, discarding them, and returns the final result. -/
def drain (p : π) : ρ :=
  finish (elements p).2

end Producer

end Spool
