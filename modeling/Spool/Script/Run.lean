import Spool.Parser
import Spool.Grouping.Window
import Spool.Grouping.Rejoin
import Spool.Script.Syntax
import Spool.Script.Reply
import Spool.Script.Handle

/-!
# Running scripts

A script runs on any context: the operations are the same on a cursor, a view, an open group or a
cursor over rejoined groups. Nested scripts run on contexts built on the current one, so the
interpreter calls itself at a new context type each time it goes down a level: `runOps` on a
cursor runs `zoom`'s script on a view of that cursor, whose group operations run on windows of
the view's groups, and so on. The recursion is on the script, which gets smaller at each level.

Specifications become the library's values here: `BoundSpec.withBound`, `RuleSpec.withRule` and
`WindowSpec.withWindows` hand the bound, the rule or the window chain to a continuation that works
for every type they may have; a window specification is a `GroupWindow` (`WindowSpec.toWindow`).

`run` is a whole script on a cursor over a source: the entries, how many elements the source
yielded while the script ran, what was left, and the source's result.
-/

namespace Spool.Script

/-- The bound a specification names, given to `k`. -/
def BoundSpec.withBound {R : Type} (b : BoundSpec)
    (k : {β : Type} → [Boundary β Int64] → [BoundControl β] → β → R) : R :=
  match b with
  | .take n => k (Take.mk n)
  | .takeWhile p => k (TakeWhile.mk p.holds)
  | .everything => k Everything.mk
  | .count n => k (BoundRule.count n : BoundRule Int64)
  | .predicate p => k (BoundRule.predicate p.holds)
  | .unbounded => k (BoundRule.unbounded : BoundRule Int64)

/-- The grouping rule a specification names, given to `k`. -/
def RuleSpec.withRule {R : Type} (g : RuleSpec)
    (k : {β : Type} → [GroupingRule β Int64] → β → R) : R :=
  match g with
  | .runs => k (Spool.runs : RunsBy Int64)
  | .runsBy r => k ({ same := r.relates } : RunsBy Int64)
  | .adjacent r => k ({ same := r.relates } : AdjacentBy Int64)
  | .partitions p => k ({ holds := p.holds } : Partitions Int64)
  | .chunks n => k (Chunks.ofSize n)

/-- The window a specification names; a filter reads the group index as an element. -/
def WindowSpec.toWindow : WindowSpec → GroupWindow
  | .take n => .take n
  | .drop n => .drop n
  | .filter p => .filter fun i ↦ p.holds (Int64.ofNat i)

/-- The windows a list of specifications names, applied in order to `s`, given to `k`. -/
def WindowSpec.withWindows {τ ρ R : Type} [Grouped τ Int64 ρ] (ws : List WindowSpec) (s : τ)
    (k : {υ : Type} → [Grouped υ Int64 ρ] → υ → R) : R :=
  Grouped.withWindows (ws.map toWindow) s k

/-- Every element and the result, or at most `limit` elements and then the result. -/
def readOut {π α ρ : Type} [Producer π α ρ] : Option Nat → π → List α × ρ
  | none, p => Producer.collectAll p
  | some k, p =>
    let (items, p) := Producer.pullUpTo k p
    (items, Producer.finish p)

/-- Consumes a group stream as the finish says: its answer and the stream's rest. -/
def Finish.apply {τ ρ : Type} [Grouped τ Int64 ρ] : Finish → τ → Reply × ρ
  | .rest, s => (.none, Grouped.intoRest s)
  | .concat limit, s =>
    let (items, r) := readOut limit (Grouped.concat s)
    (.elements items, r)
  | .drain, s => (.none, Producer.drain (Grouped.concat s))
  | .intercalate sep limit, s =>
    let (items, r) := readOut limit (Grouped.intercalate sep s)
    (.elements items, r)
  | .fold kind limit, s =>
    let (tallies, r) := readOut limit (Grouped.foldGroups kind.init Tally.step s)
    (.tallies tallies, r)

/-- Draws `n` times, keeping each answer. -/
def drawTimes {σ : Type} [Context σ Int64] : Nat → σ → List (Option Int64) × σ
  | 0, s => ([], s)
  | n + 1, s =>
    let (a, s) := Context.draw s
    let (rest, s) := drawTimes n s
    (a :: rest, s)

/-- Whole groups: every group, or at most `limit`. -/
def collectGroups {τ ρ : Type} [Grouped τ Int64 ρ] (limit : Option Nat) (t : τ) :
    List (List Int64) × τ :=
  match limit with
  | some k => Grouped.readGroupsUpTo k t
  | none => Grouped.readGroups t

/-- Reads the rejoined groups of `s` to the end, or for at most `limit` elements, and gives back
`s`. -/
def regroupAll {σ : Type} [Context σ Int64] (rule : RuleSpec) (windows : List WindowSpec)
    (limit : Option Nat) (s : σ) : Reply × σ :=
  rule.withRule fun r ↦
    WindowSpec.withWindows windows (Groups.ofRule s r) fun t ↦
      let (items, s) := readOut limit (Grouped.concat t)
      (.elements items, s)

mutual

/-- Runs the operations in order; each answer comes with the offset right after it. -/
def runOps {σ : Type} [Context σ Int64] [Handle σ] : List Op → σ → List Entry × σ
  | [], s => ([], s)
  | op :: ops, s =>
    let (r, s) := runOp op s
    let entry := (r, Context.offset s)
    let (rest, s) := runOps ops s
    (entry :: rest, s)

/-- Runs one operation. -/
def runOp {σ : Type} [Context σ Int64] [Handle σ] : Op → σ → Reply × σ
  | .draw, s => let (a, s) := Context.draw s; (.ofElement a, s)
  | .peek, s => let (a, s) := Context.peek s; (.ofElement a, s)
  | .undraw x, s => (.none, Context.undraw x s)
  | .undrawMany xs, s => (.none, xs.foldl (fun s x ↦ Context.undraw x s) s)
  | .offset, s => (.size (Context.offset s), s)
  | .isEnd, s => let (b, s) := Context.isEnd s; (.flag b, s)
  | .skip, s => let (b, s) := Context.skip s; (.flag b, s)
  | .drawIf p, s => let (a, s) := Context.drawIf p.holds s; (.ofElement a, s)
  | .drawAll, s => let (xs, s) := Context.drawAll s; (.elements xs, s)
  | .drawN n, s => let (xs, s) := drawTimes n s; (.draws xs, s)
  | .foldAll kind, s => let (t, s) := Context.foldAll Tally.step kind.init s; (.ofTally t, s)
  | .pending, s =>
    match Handle.pending s with
    | some xs => (.elements xs, s)
    | none => (.notCursor, s)
  | .zoom b ops, s =>
    b.withBound fun bound ↦
      let (es, v) := runOps ops (Context.split bound s)
      (.entries es, v.resume)
  | .split b ops finish, s =>
    b.withBound fun bound ↦
      let (es, v) := runOps ops (Context.split bound s)
      match finish with
      | .resume | .drop => (.split es none, v.resume)
      | .collectAll =>
        let (items, s) := Producer.collectAll v
        (.split es (some items), s)
      | .drain => (.split es none, Producer.drain v)
  | .zoomRef n ops, s =>
    let (es, v) := runOps ops (Context.split (Take.mk n) s)
    (.counted es v.bound.remaining, v.resume)
  | .isClosed, s =>
    match Handle.closed s with
    | some b => (.flag b, s)
    | none => (.notView, s)
  | .restart, s =>
    match Handle.restart s with
    | some s => (.none, s)
    | none => (.notView, s)
  | .remaining, s =>
    match Handle.remaining s with
    | some r => (.ofIndex r, s)
    | none => (.notView, s)
  | .setBound n, s =>
    match Handle.resize n s with
    | some (b, s) => (.flag b, s)
    | none => (.notView, s)
  | .describeBound, s =>
    match Handle.describe s with
    | some t => (.text t, s)
    | none => (.notView, s)
  | .groups rule windows ops finish, s =>
    rule.withRule fun r ↦
      WindowSpec.withWindows windows (Borrow.mk (Groups.ofRule s r)) fun t ↦
        let (es, t) := runGroupOps ops t
        let (x, base) := finish.apply t
        (.grouped es x base.opened, Grouped.intoRest base)
  | .regroup rule windows ops, s =>
    rule.withRule fun r ↦
      WindowSpec.withWindows windows (Groups.ofRule s r) fun t ↦
        let (es, s) := Grouped.rejoinWith (runOps ops) t
        (.entries es, s)
  | .regroupAll rule windows limit, s => regroupAll rule windows limit s
  | .parser rule steps, s =>
    let (es, p) := runSteps steps { context := s, rule := parseRule rule }
    (.entries es, p.context)

/-- Runs group operations in order; each answer comes with the group offset right after it. -/
def runGroupOps {τ ρ : Type} [Grouped τ Int64 ρ] : List GroupOp → τ → List Entry × τ
  | [], t => ([], t)
  | op :: ops, t =>
    let (r, t) := runGroupOp op t
    let entry := (r, Grouped.groupOffset t)
    let (rest, t) := runGroupOps ops t
    (entry :: rest, t)

/-- Runs one group operation. -/
def runGroupOp {τ ρ : Type} [Grouped τ Int64 ρ] : GroupOp → τ → Reply × τ
  | .nextGroup ops, t =>
    match Grouped.openNext t with
    | (none, t) => (.none, t)
    | (some i, t) =>
      let (es, g) := runOps ops (Group.mk t i)
      (.group i es, g.stream)
  | .openNext, t => let (i, t) := Grouped.openNext t; (.ofIndex i, t)
  | .drawInGroup, t => let (a, t) := Grouped.drawInGroup t; (.ofElement a, t)
  | .undrawInGroup x, t => (.none, Grouped.undrawInGroup x t)
  | .peekInGroup, t => let (a, t) := Grouped.peekInGroup t; (.ofElement a, t)
  | .groupOffset, t => (.size (Grouped.groupOffset t), t)
  | .collectGroups limit, t => let (gs, t) := collectGroups limit t; (.groupLists gs, t)
  | .groupCollect, t =>
    match Grouped.openNext t with
    | (none, t) => (.none, t)
    | (some i, t) =>
      let (items, t) := Producer.collectAll (Group.mk t i)
      (.collected i items, t)
  | .sub windows ops finish, t =>
    WindowSpec.withWindows windows (Borrow.mk t) fun u ↦
      let (es, u) := runGroupOps ops u
      let (x, t) := finish.apply u
      (.windowed es x, t)

/-- One application of a parser rule. -/
def parseRule {σ : Type} [Context σ Int64] [Handle σ] : ParseRule → σ → Option Reply × σ
  | .span p sep, s =>
    let (items, s) := Context.zoom (TakeWhile.mk p.holds) Context.drawAll s
    if items.isEmpty then
      (none, s)
    else
      match sep with
      | none => (some (.elements items), s)
      | some q => let (_, s) := Context.drawIf q.holds s; (some (.elements items), s)
  | .peek, s => let (a, s) := Context.peek s; (a.map .element, s)
  | .draw, s => let (a, s) := Context.draw s; (a.map .element, s)
  | .drawIf p, s => let (a, s) := Context.drawIf p.holds s; (a.map .element, s)
  | .script ops, s =>
    let (es, s) := runOps ops s
    match es.getLast? with
    | some (r, _) => if r.isNone then (none, s) else (some (.entries es), s)
    | none => (some (.entries es), s)

/-- Runs parser steps in order; each answer comes with the context's offset right after it. -/
def runSteps {σ : Type} [Context σ Int64] [Handle σ] :
    List ParseStep → Parser σ (σ → Option Reply × σ) →
      List Entry × Parser σ (σ → Option Reply × σ)
  | [], p => ([], p)
  | step :: steps, p =>
    let (r, p) := runStep step p
    let entry := (r, Context.offset p.context)
    let (rest, p) := runSteps steps p
    (entry :: rest, p)

/-- Runs one parser step. -/
def runStep {σ : Type} [Context σ Int64] [Handle σ] :
    ParseStep → Parser σ (σ → Option Reply × σ) → Reply × Parser σ (σ → Option Reply × σ)
  | .next, p => let (n, p) := p.nextNode; (.ofNode n, p)
  | .parse, p => let (ns, p) := p.parse; (.nodes ns, p)
  | .take k, p => let (ns, p) := p.takeNodes k; (.nodes ns, p)
  | .context ops, p =>
    let (es, c) := runOps ops p.context
    (.entries es, { p with context := c })

end

/-- What a script run on a cursor over a source shows. -/
structure Outcome (ρ : Type) where
  /-- One entry per operation. -/
  results : List Entry
  /-- How many elements the source yielded while the script ran. -/
  pulled : Nat
  /-- What the cursor held afterwards, read to the end or up to the limit. -/
  rest : List Int64
  /-- The source's final result. -/
  result : ρ

/-- Runs `ops` on a cursor over `source`, then reads what is left, all of it or at most
`restLimit` elements, and the source's result. -/
def run {ρ : Type} (source : Source Int64 ρ) (ops : List Op) (restLimit : Option Nat) :
    Outcome ρ :=
  let (es, c) := runParser source (runOps ops)
  let pulled := c.producer.pulled
  let (rest, result) := readOut restLimit c
  { results := es, pulled := pulled, rest := rest, result := result }

/-- Runs `ops` on a cursor over `source`: the entries and how many elements the source yielded. -/
def evaluate {ρ : Type} (source : Source Int64 ρ) (ops : List Op) : List Entry × Nat :=
  let (es, c) := runParser source (runOps ops)
  (es, c.producer.pulled)

end Spool.Script
