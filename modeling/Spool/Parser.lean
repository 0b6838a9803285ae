import Spool.Context.Cursor

/-!
# The parser loop

A parser applies a rule to a context again and again; each application either produces a node or
fails. The loop ends at the first failure, and also right after a node whose application left the
context's `offset` where it was: such a rule made no progress and would produce the same node
forever, so the parser stalls for good.

A rule may keep state of its own from one application to the next, as a closure that counts its
calls does: `ParsingRule` gives, for one application, the node, the context after it and the rule as
it stands after it. A plain function of the context is a rule whose state never changes.

`Parser.parse` applies the rule until the loop ends, and no further than `Parser.nodeLimit` nodes:
the loop it stands for has no limit. For a rule that only draws and pushes back, the context's
offset plus its supply plus two nodes are enough: a rule that consumes raises the offset and lowers
the supply, and one that pushes back lowers the offset, so every node before the last uses up one
unit, and the last node and the failing application after it take the other two. A rule that
restarts a view or widens its bound breaks that count: it can bring the offset back without
returning what it read, produce several nodes for each element, or never stop. The loop is
therefore given `spareFactor` times that count, and is cut there only when such a rule goes on for
that long.

`runParser` runs a function on a cursor over a producer and hands back the cursor with it.
-/

namespace Spool

/-- A rule of type `ρ` that parses contexts of type `σ` into nodes of type `ν`. -/
class ParsingRule (ρ σ : Type) (ν : outParam Type) where
  /-- One application: a node, or `none` when the rule fails; the context after it; and the rule,
  with whatever state it keeps, as it stands after it. -/
  tryParse : ρ → σ → Option ν × σ × ρ

/-- A function of the context is a rule that keeps no state. -/
instance {σ ν : Type} : ParsingRule (σ → Option ν × σ) σ ν where
  tryParse f c :=
    let r := f c
    (r.1, r.2, f)

/-- Applications of `rule` to `context`. -/
structure Parser (σ ρ : Type) where
  /-- The context the rule reads. -/
  context : σ
  /-- The rule, with the state it keeps between applications. -/
  rule : ρ
  /-- Whether a node made no progress; the parser then produces nothing more. -/
  stalled : Bool := false

namespace Parser

variable {σ α ρ ν : Type} [Context σ α] [ParsingRule ρ σ ν]

/-- One application of the rule, unless the parser has stalled. -/
def nextNode (p : Parser σ ρ) : Option ν × Parser σ ρ :=
  if p.stalled then
    (none, p)
  else
    let before := Context.offset p.context
    match ParsingRule.tryParse p.rule p.context with
    | (none, c, r) => (none, { p with context := c, rule := r })
    | (some n, c, r) =>
      (some n, { p with context := c, rule := r, stalled := Context.offset c == before })

/-- At most `k` nodes, stopping at the first `none`. -/
def takeNodes : Nat → Parser σ ρ → List ν × Parser σ ρ
  | 0, p => ([], p)
  | k + 1, p =>
    match p.nextNode with
    | (none, p) => ([], p)
    | (some n, p) =>
      let (rest, p) := takeNodes k p
      (n :: rest, p)

/-- How many times the count of a rule that only draws and pushes back the loop allows. -/
def spareFactor : Nat := 65536

/-- The most nodes `parse` produces: `spareFactor` times the offset plus the supply plus two. -/
def nodeLimit (p : Parser σ ρ) : Nat :=
  (Context.offset p.context + Context.supply p.context + 2) * spareFactor

/-- Every node, up to the failure or the stall that ends the loop. Unlike the loop it stands for,
which has no limit, `parse` stops after `nodeLimit` nodes: a rule that only draws and pushes back
never gets there, and the loop of any other rule is cut there, the parser given back ready to go
on. -/
def parse (p : Parser σ ρ) : List ν × Parser σ ρ :=
  takeNodes p.nodeLimit p

end Parser

/-- Runs `f` on a cursor at the start of `p`; gives its output and the cursor after it. -/
def runParser {π α ρ δ : Type} [Producer π α ρ] (p : π) (f : Cursor π α → δ × Cursor π α) :
    δ × Cursor π α :=
  f (Cursor.ofProducer p)

end Spool
