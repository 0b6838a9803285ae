import Spool.Producer.Basic
import Spool.Context.Basic

/-!
# Cursors

A cursor is the context over a producer. Pushed-back elements wait on a stack in front of the
producer and are drawn first, newest first; the producer is pulled only when the stack is empty
and an element is asked for, and never again after it has returned `none`.

`offset` is the number of elements pulled from the producer less the number waiting on the stack,
and zero when more are waiting than were pulled. A cursor is itself a producer: reading it to the
end yields the waiting elements, then the rest of the producer, then the producer's own result.
-/

namespace Spool

/-- A context over the producer `producer`, with a pushback stack in front of it. -/
structure Cursor (π α : Type) where
  /-- The producer, advanced to the last element pulled. -/
  producer : π
  /-- Pushed-back elements, the next to be drawn first. -/
  stack : List α := []
  /-- How many elements the producer has yielded. -/
  pulled : Nat := 0
  /-- Whether the producer has returned `none`. -/
  exhausted : Bool := false

namespace Cursor

variable {π α ρ : Type} [Producer π α ρ]

/-- A cursor at the start of `p`. -/
def ofProducer (p : π) : Cursor π α :=
  { producer := p }

/-- The top of the stack, or else the producer's next element. -/
def draw (c : Cursor π α) : Option α × Cursor π α :=
  match c.stack with
  | a :: rest => (some a, { c with stack := rest })
  | [] =>
    if c.exhausted then
      (none, c)
    else
      match Producer.pull c.producer with
      | (some a, p) => (some a, { c with producer := p, pulled := c.pulled + 1 })
      | (none, p) => (none, { c with producer := p, exhausted := true })

/-- Pushes `a` on the stack. -/
def undraw (a : α) (c : Cursor π α) : Cursor π α :=
  { c with stack := a :: c.stack }

/-- The top of the stack; when the stack is empty, one element is drawn and pushed back. -/
def peek (c : Cursor π α) : Option α × Cursor π α :=
  match c.stack with
  | a :: _ => (some a, c)
  | [] =>
    match c.draw with
    | (none, c) => (none, c)
    | (some a, c) => (some a, c.undraw a)

/-- Elements pulled less elements waiting, truncated at zero. -/
def offset (c : Cursor π α) : Nat :=
  c.pulled - c.stack.length

/-- The waiting elements and what the producer may still yield. -/
def supply (c : Cursor π α) : Nat :=
  c.stack.length + if c.exhausted then 0 else Producer.supply c.producer

/-- The pushback stack, bottom first, so that the last element is drawn next. -/
def pending (c : Cursor π α) : List α :=
  c.stack.reverse

instance : Context (Cursor π α) α where
  draw := draw
  undraw := undraw
  peek := peek
  offset := offset
  supply := supply

instance : Producer (Cursor π α) α ρ where
  pull := draw
  finish c := Producer.finish c.producer
  supply := supply

end Cursor

end Spool
