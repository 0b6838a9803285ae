import Spool.Script.Elements

/-!
# Scripts

A script is a list of operations on a context of 64-bit integers. Besides the context's own
operations there are operations that open views, group streams and parsers on the current context
and run nested scripts inside them:

* `Op`: an operation on a context; `zoom`, `split` and `zoomRef` run a nested script on a
  bounded view, `groups` runs group operations, `regroup` runs a script on the rejoined groups and
  `parser` runs parser steps;
* `GroupOp`: an operation on a group stream; `nextGroup` runs a script on the open group and
  `sub` runs group operations on further windows of the same stream;
* `ParseRule` and `ParseStep`: the rule a parser applies and the steps that drive it.

The specifications of bounds, grouping rules, windows and finishes are data too, turned into the
library's values when the script runs.
-/

namespace Spool.Script

/-- A bound for a view. -/
inductive BoundSpec where
  /-- A count. -/
  | take (n : Nat)
  /-- A condition, up to the first element that fails it. -/
  | takeWhile (p : Pred)
  /-- No limit. -/
  | everything
  /-- A count, chosen at run time. -/
  | count (n : Nat)
  /-- A condition, chosen at run time. -/
  | predicate (p : Pred)
  /-- No limit, chosen at run time. -/
  | unbounded

/-- A grouping rule. -/
inductive RuleSpec where
  /-- Runs of equal elements. -/
  | runs
  /-- Elements related to the first of their group. -/
  | runsBy (r : Relation)
  /-- Elements related to the one before them. -/
  | adjacent (r : Relation)
  /-- Elements on which the condition answers alike. -/
  | partitions (p : Pred)
  /-- Groups of a fixed size; zero counts as one. -/
  | chunks (n : Nat)

/-- A window on a group stream, by group index. -/
inductive WindowSpec where
  /-- The first `n` groups. -/
  | take (n : Nat)
  /-- All groups but the first `n`. -/
  | drop (n : Nat)
  /-- The groups whose index, read as an element, satisfies the condition. -/
  | filter (p : Pred)

/-- How a group stream is consumed once its operations are done. -/
inductive Finish where
  /-- Ended as it stands. -/
  | rest
  /-- Concatenated and read to the end, or for at most `limit` elements. -/
  | concat (limit : Option Nat)
  /-- Concatenated and drained. -/
  | drain
  /-- With `sep` between groups, read to the end or for at most `limit` elements. -/
  | intercalate (sep : List Int64) (limit : Option Nat)
  /-- Folded group by group, read to the end or for at most `limit` folds. -/
  | fold (kind : FoldKind) (limit : Option Nat)

/-- How a split view ends. -/
inductive SplitEnd where
  /-- Resumed where it stands. -/
  | resume
  /-- Abandoned; its parent goes on where the view left it. -/
  | drop
  /-- Read to its end, its elements reported. -/
  | collectAll
  /-- Read to its end, its elements discarded. -/
  | drain

mutual

/-- An operation on a context. -/
inductive Op where
  /-- Draws an element. -/
  | draw
  /-- Peeks at the next element. -/
  | peek
  /-- Pushes an element back. -/
  | undraw (x : Int64)
  /-- Pushes the elements back in list order, so the last is drawn first. -/
  | undrawMany (xs : List Int64)
  /-- The offset. -/
  | offset
  /-- Whether nothing is left. -/
  | isEnd
  /-- Draws an element and tells whether there was one. -/
  | skip
  /-- Draws the next element if it satisfies the condition. -/
  | drawIf (p : Pred)
  /-- Draws every element. -/
  | drawAll
  /-- Draws `n` times, each answer reported. -/
  | drawN (n : Nat)
  /-- Folds every element. -/
  | foldAll (kind : FoldKind)
  /-- The pushback stack of a cursor. -/
  | pending
  /-- Runs a script on a bounded view, then resumes it. -/
  | zoom (bound : BoundSpec) (ops : List Op)
  /-- Runs a script on a bounded view, then ends it as told. -/
  | split (bound : BoundSpec) (ops : List Op) (finish : SplitEnd)
  /-- Runs a script on a view with a count that stays visible afterwards. -/
  | zoomRef (n : Nat) (ops : List Op)
  /-- Whether the view has ended. -/
  | isClosed
  /-- Restarts the view. -/
  | restart
  /-- What is left of the view's count. -/
  | remaining
  /-- Sets the view's count. -/
  | setBound (n : Nat)
  /-- The view's bound, as text. -/
  | describeBound
  /-- Runs group operations on the groups of the context, then consumes them. -/
  | groups (rule : RuleSpec) (windows : List WindowSpec) (ops : List GroupOp) (finish : Finish)
  /-- Runs a script on a cursor over the rejoined groups, then splices its pushback back. -/
  | regroup (rule : RuleSpec) (windows : List WindowSpec) (ops : List Op)
  /-- Reads the rejoined groups to the end, or for at most `limit` elements. -/
  | regroupAll (rule : RuleSpec) (windows : List WindowSpec) (limit : Option Nat)
  /-- Runs parser steps with a rule on the context. -/
  | parser (rule : ParseRule) (steps : List ParseStep)

/-- An operation on a group stream. -/
inductive GroupOp where
  /-- Opens the next group and runs a script on it. -/
  | nextGroup (ops : List Op)
  /-- Opens the next group. -/
  | openNext
  /-- Draws from the open group. -/
  | drawInGroup
  /-- Pushes an element back into the open group. -/
  | undrawInGroup (x : Int64)
  /-- Peeks into the open group. -/
  | peekInGroup
  /-- The offset of the open group. -/
  | groupOffset
  /-- Reads whole groups, all of them or at most `limit`. -/
  | collectGroups (limit : Option Nat)
  /-- Opens the next group and reads it whole. -/
  | groupCollect
  /-- Runs group operations on further windows of this stream; the stream goes on afterwards. -/
  | sub (windows : List WindowSpec) (ops : List GroupOp) (finish : Finish)

/-- The rule a parser applies. -/
inductive ParseRule where
  /-- The elements satisfying `p`, then one element satisfying `sep` if given; fails when no
  element satisfies `p`. -/
  | span (p : Pred) (sep : Option Pred)
  /-- The next element, not consumed. -/
  | peek
  /-- The next element. -/
  | draw
  /-- The next element if it satisfies the condition. -/
  | drawIf (p : Pred)
  /-- Runs a script; fails when its last operation answered nothing. -/
  | script (ops : List Op)

/-- A step that drives a parser. -/
inductive ParseStep where
  /-- One node. -/
  | next
  /-- Every node. -/
  | parse
  /-- At most `k` nodes. -/
  | take (k : Nat)
  /-- Runs a script on the parser's context. -/
  | context (ops : List Op)

end

end Spool.Script
