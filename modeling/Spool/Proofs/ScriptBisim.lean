import Spool.Script.Run
import Spool.Proofs.Bisim

/-!
# Scripts on contexts that answer alike

A script reads a context through its operations only, and through what `Handle` shows of it: the
offset, the pending stack of a cursor, the bound of a view. `Script.Bisim R` says that contexts
related by `R` answer alike to all of it, and every context a script builds on one of them, a view,
the open group of a stream or a cursor over rejoined groups, is related to its twin in that sense
as soon as the bases answer alike as contexts (`Script.Bisim.view`, `Script.Bisim.group`,
`Script.Bisim.cursor`). Nested scripts therefore run in lockstep on twin contexts whatever they
hold, and a parser on twin contexts with rules that go in lockstep produces the same nodes
(`Script.Parser.Twin`).

The interpreter is one recursion over the script, so its lockstep theorem is one recursion too:
each operation goes in lockstep once its nested scripts do (`Script.runOp_lockstep_of_nested`), and
the nested scripts do by the recursion (`Script.runOps_lockstep`). Operations that read only the
stream of elements (`Script.Op.streamOnly`) need no more of the two contexts than that they answer
alike as contexts: a script of them gives the same answers (`Script.runOps_replies_of_streamOnly`).
-/

set_option autoImplicit false

namespace Spool.Script

section Layers

variable {σ₁ σ₂ : Type} [Context σ₁ Int64] [Handle σ₁] [Context σ₂ Int64] [Handle σ₂]

/-- Contexts related by `R` answer alike to every operation of a script: as contexts, and in the
offset, the pending stack and whatever a view shows or does. -/
structure Bisim (R : σ₁ → σ₂ → Prop) : Prop extends Context.Bisim R where
  offset : ∀ {s₁ s₂}, R s₁ s₂ → Context.offset s₁ = Context.offset s₂
  pending : ∀ {s₁ s₂}, R s₁ s₂ → Handle.pending s₁ = Handle.pending s₂
  closed : ∀ {s₁ s₂}, R s₁ s₂ → Handle.closed s₁ = Handle.closed s₂
  restart : ∀ {s₁ s₂}, R s₁ s₂ → Option.Rel R (Handle.restart s₁) (Handle.restart s₂)
  remaining : ∀ {s₁ s₂}, R s₁ s₂ → Handle.remaining s₁ = Handle.remaining s₂
  resize : ∀ (n : Nat) {s₁ s₂}, R s₁ s₂ →
    Option.Rel (Lockstep R) (Handle.resize n s₁) (Handle.resize n s₂)
  describe : ∀ {s₁ s₂}, R s₁ s₂ → Handle.describe s₁ = Handle.describe s₂

end Layers

namespace Bisim

variable {σ₁ σ₂ : Type} [Context σ₁ Int64] [Context σ₂ Int64] {R : σ₁ → σ₂ → Prop}

/-- Twin views over contexts that answer alike answer alike to every operation: a view shows
only its own counts and bound. -/
theorem view {β : Type} [Boundary β Int64] [BoundControl β] (h : Context.Bisim R) :
    Bisim (View.Twin (β := β) R) where
  toBisim := View.bisim h
  offset hv := hv.offset
  pending _ := rfl
  closed hv := congrArg some hv.closed
  restart hv := .some hv.restart
  remaining hv := congrArg (fun b ↦ some (BoundControl.remaining b)) hv.bound
  resize n {v₁ v₂} hv := by
    refine .some ?_
    rw [← hv.bound]
    cases BoundControl.resize n v₁.bound with
    | some b => exact ⟨rfl, hv.setBound b⟩
    | none => exact ⟨rfl, hv⟩
  describe hv := congrArg (fun b ↦ some (BoundControl.describe b)) hv.bound

/-- The open groups of streams that answer alike answer alike to every operation: a group shows
only its offset. -/
theorem group {τ₁ τ₂ ρ₁ ρ₂ : Type} [Grouped τ₁ Int64 ρ₁] [Grouped τ₂ Int64 ρ₂]
    {R : τ₁ → τ₂ → Prop} {Rrest : ρ₁ → ρ₂ → Prop} (h : Grouped.Bisim R Rrest) :
    Bisim (Group.Twin R) where
  toBisim := Group.bisim h
  offset hg := h.groupOffset hg.stream
  pending _ := rfl
  closed _ := rfl
  restart _ := .none
  remaining _ := rfl
  resize _ _ _ _ := .none
  describe _ := rfl

/-- Twin cursors over producers that answer alike answer alike to every operation: a cursor
shows its own stack and counters. -/
theorem cursor {π₁ π₂ ρ₁ ρ₂ : Type} [Producer π₁ Int64 ρ₁] [Producer π₂ Int64 ρ₂]
    {R : π₁ → π₂ → Prop} {Rres : ρ₁ → ρ₂ → Prop} (h : Producer.Bisim R Rres) :
    Bisim (Cursor.Twin R (α := Int64)) where
  toBisim := Cursor.bisim h
  offset hc := hc.offset
  pending hc := congrArg some hc.pending
  closed _ := rfl
  restart _ := .none
  remaining _ := rfl
  resize _ _ _ _ := .none
  describe _ := rfl

end Bisim

section Readers

variable {σ₁ σ₂ : Type} [Context σ₁ Int64] [Context σ₂ Int64] {R : σ₁ → σ₂ → Prop}
  {s₁ : σ₁} {s₂ : σ₂}

theorem drawTimes_lockstep (h : Context.Bisim R) (n : Nat) (hs : R s₁ s₂) :
    Lockstep R (drawTimes n s₁) (drawTimes n s₂) := by
  induction n generalizing s₁ s₂ with
  | zero => exact ⟨rfl, hs⟩
  | succ n ih =>
    obtain ⟨a, t₁, t₂, h₁, h₂, ht⟩ := (h.draw hs).exists_eq
    obtain ⟨rest, u₁, u₂, g₁, g₂, hu⟩ := (ih ht).exists_eq
    rw [drawTimes, drawTimes, h₁, h₂]
    dsimp only
    rw [g₁, g₂]
    exact ⟨rfl, hu⟩

variable {π₁ π₂ α ρ₁ ρ₂ : Type} [Producer π₁ α ρ₁] [Producer π₂ α ρ₂] {P : π₁ → π₂ → Prop}
  {Rres : ρ₁ → ρ₂ → Prop}

theorem readOut_lockstep (h : Producer.Bisim P Rres) (limit : Option Nat) {p₁ : π₁} {p₂ : π₂}
    (hp : P p₁ p₂) : Lockstep Rres (readOut limit p₁) (readOut limit p₂) := by
  cases limit with
  | none => exact h.collectAll hp
  | some k => exact (h.pullUpTo k hp).wrap Producer.finish Producer.finish h.finish

variable {τ₁ τ₂ : Type} [Grouped τ₁ Int64 ρ₁] [Grouped τ₂ Int64 ρ₂] {T : τ₁ → τ₂ → Prop}
  {Rrest : ρ₁ → ρ₂ → Prop} {t₁ : τ₁} {t₂ : τ₂}

/-- Every way of finishing streams that answer alike gives the same answer and related rests. -/
theorem Finish.apply_lockstep (h : Grouped.Bisim T Rrest) (f : Finish) (ht : T t₁ t₂) :
    Lockstep Rrest (f.apply t₁) (f.apply t₂) := by
  cases f with
  | rest => exact ⟨rfl, h.intoRest ht⟩
  | concat limit =>
    exact (readOut_lockstep (Rejoin.producerBisim h) limit
      (⟨ht, rfl⟩ : Rejoin.Twin T (Grouped.concat t₁) (Grouped.concat t₂))).map Reply.elements
  | drain =>
    exact ⟨rfl, (Rejoin.producerBisim h).drain
      (⟨ht, rfl⟩ : Rejoin.Twin T (Grouped.concat t₁) (Grouped.concat t₂))⟩
  | intercalate sep limit =>
    exact (readOut_lockstep (Intercalate.producerBisim h) limit
      (⟨ht, rfl, rfl⟩ : Intercalate.Twin T (Grouped.intercalate sep t₁)
        (Grouped.intercalate sep t₂))).map Reply.elements
  | fold kind limit =>
    exact (readOut_lockstep (FoldGroups.producerBisim h) limit
      (⟨ht, rfl, rfl⟩ : FoldGroups.Twin T (Grouped.foldGroups kind.init Tally.step t₁)
        (Grouped.foldGroups kind.init Tally.step t₂))).map Reply.tallies

theorem collectGroups_lockstep (h : Grouped.Bisim T Rrest) (limit : Option Nat) (ht : T t₁ t₂) :
    Lockstep T (collectGroups limit t₁) (collectGroups limit t₂) := by
  cases limit with
  | none => exact h.readGroups ht
  | some k => exact h.readGroupsUpTo k ht

end Readers

/-- A bound specification gives related values to two continuations that give related values for
every bound. -/
theorem BoundSpec.withBound_rel {X₁ X₂ : Type} (P : X₁ → X₂ → Prop) (b : BoundSpec)
    {k₁ : {β : Type} → [Boundary β Int64] → [BoundControl β] → β → X₁}
    {k₂ : {β : Type} → [Boundary β Int64] → [BoundControl β] → β → X₂}
    (hk : ∀ {β : Type} [Boundary β Int64] [BoundControl β] (bound : β), P (k₁ bound) (k₂ bound)) :
    P (b.withBound k₁) (b.withBound k₂) := by
  cases b <;> exact hk _

/-- A rule specification gives related values to two continuations that give related values for
every rule. -/
theorem RuleSpec.withRule_rel {X₁ X₂ : Type} (P : X₁ → X₂ → Prop) (g : RuleSpec)
    {k₁ : {β : Type} → [GroupingRule β Int64] → β → X₁}
    {k₂ : {β : Type} → [GroupingRule β Int64] → β → X₂}
    (hk : ∀ {β : Type} [GroupingRule β Int64] (rule : β), P (k₁ rule) (k₂ rule)) :
    P (g.withRule k₁) (g.withRule k₂) := by
  cases g <;> exact hk _

section Parsing

variable {σ₁ σ₂ ν : Type} [Context σ₁ Int64] [Handle σ₁] [Context σ₂ Int64] [Handle σ₂]
  {R : σ₁ → σ₂ → Prop}

variable (R) in
/-- Parsers over related contexts, stalled or not alike, whose rules go in lockstep on related
contexts. -/
structure Parser.Twin (p₁ : Parser σ₁ (σ₁ → Option ν × σ₁)) (p₂ : Parser σ₂ (σ₂ → Option ν × σ₂)) :
    Prop where
  context : R p₁.context p₂.context
  rule : ∀ {s₁ s₂}, R s₁ s₂ → Lockstep R (p₁.rule s₁) (p₂.rule s₂)
  stalled : p₁.stalled = p₂.stalled

variable {p₁ : Parser σ₁ (σ₁ → Option ν × σ₁)} {p₂ : Parser σ₂ (σ₂ → Option ν × σ₂)}

/-- A parser on contexts that answer alike makes the same progress: its stall test compares
offsets, which twins share. -/
theorem Parser.Twin.nextNode (h : Bisim R) (hp : Parser.Twin R p₁ p₂) :
    Lockstep (Parser.Twin R) p₁.nextNode p₂.nextNode := by
  obtain ⟨n, c₁, c₂, h₁, h₂, hc⟩ := (hp.rule hp.context).exists_eq
  have ht₁ : ParsingRule.tryParse p₁.rule p₁.context = (n, c₁, p₁.rule) := by
    show ((p₁.rule p₁.context).1, (p₁.rule p₁.context).2, p₁.rule) = _
    rw [h₁]
  have ht₂ : ParsingRule.tryParse p₂.rule p₂.context = (n, c₂, p₂.rule) := by
    show ((p₂.rule p₂.context).1, (p₂.rule p₂.context).2, p₂.rule) = _
    rw [h₂]
  unfold Spool.Parser.nextNode
  rw [← hp.stalled]
  split
  · exact ⟨rfl, hp⟩
  · dsimp only
    rw [ht₁, ht₂]
    cases n with
    | none => exact ⟨rfl, hc, hp.rule, rfl⟩
    | some n =>
      refine ⟨rfl, hc, hp.rule, ?_⟩
      show (Context.offset c₁ == Context.offset p₁.context) =
        (Context.offset c₂ == Context.offset p₂.context)
      rw [h.offset hc, h.offset hp.context]

theorem Parser.Twin.takeNodes (h : Bisim R) (k : Nat) (hp : Parser.Twin R p₁ p₂) :
    Lockstep (Parser.Twin R) (p₁.takeNodes k) (p₂.takeNodes k) := by
  induction k generalizing p₁ p₂ with
  | zero => exact ⟨rfl, hp⟩
  | succ k ih =>
    obtain ⟨n, q₁, q₂, h₁, h₂, hq⟩ := (hp.nextNode h).exists_eq
    rw [Spool.Parser.takeNodes, Spool.Parser.takeNodes, h₁, h₂]
    cases n with
    | none => exact ⟨rfl, hq⟩
    | some n =>
      obtain ⟨rest, u₁, u₂, g₁, g₂, hu⟩ := (ih hq).exists_eq
      dsimp only
      rw [g₁, g₂]
      exact ⟨rfl, hu⟩

/-- Parsing contexts that answer alike to the end gives the same nodes: the node limit reads the
offset and the supply, which twins share. -/
theorem Parser.Twin.parse (h : Bisim R) (hp : Parser.Twin R p₁ p₂) :
    Lockstep (Parser.Twin R) p₁.parse p₂.parse := by
  have hn : p₁.nodeLimit = p₂.nodeLimit := by
    rw [Spool.Parser.nodeLimit, Spool.Parser.nodeLimit, h.offset hp.context,
      h.supply hp.context]
  rw [Spool.Parser.parse, Spool.Parser.parse, hn]
  exact hp.takeNodes h _

end Parsing

/-- The operations whose answers read nothing of the context but its stream of elements: no
offset, no pending stack and nothing of a view, and no parser, whose stall test reads the offset.
The nested scripts of the others run on contexts of their own and may hold any operation. -/
def Op.streamOnly : Op → Bool
  | .offset | .pending | .isClosed | .restart | .remaining | .setBound _ | .describeBound
  | .parser _ _ => false
  | _ => true

/-- A script goes in lockstep on every two contexts that answer alike to every operation. -/
def OpsLockstep (ops : List Op) : Prop :=
  ∀ {σ₁ σ₂ : Type} [Context σ₁ Int64] [Handle σ₁] [Context σ₂ Int64] [Handle σ₂]
    {R : σ₁ → σ₂ → Prop} {s₁ : σ₁} {s₂ : σ₂}, Bisim R → R s₁ s₂ →
      Lockstep R (runOps ops s₁) (runOps ops s₂)

/-- Group operations go in lockstep on every two streams that answer alike. -/
def GroupOpsLockstep (ops : List GroupOp) : Prop :=
  ∀ {τ₁ τ₂ ρ₁ ρ₂ : Type} [Grouped τ₁ Int64 ρ₁] [Grouped τ₂ Int64 ρ₂] {T : τ₁ → τ₂ → Prop}
    {Rrest : ρ₁ → ρ₂ → Prop} {t₁ : τ₁} {t₂ : τ₂}, Grouped.Bisim T Rrest → T t₁ t₂ →
      Lockstep T (runGroupOps ops t₁) (runGroupOps ops t₂)

/-- Parser steps go in lockstep on every two twin parsers over contexts that answer alike. -/
def StepsLockstep (steps : List ParseStep) : Prop :=
  ∀ {σ₁ σ₂ : Type} [Context σ₁ Int64] [Handle σ₁] [Context σ₂ Int64] [Handle σ₂]
    {R : σ₁ → σ₂ → Prop} {p₁ : Parser σ₁ (σ₁ → Option Reply × σ₁)}
    {p₂ : Parser σ₂ (σ₂ → Option Reply × σ₂)}, Bisim R → Parser.Twin R p₁ p₂ →
      Lockstep (Parser.Twin R) (runSteps steps p₁) (runSteps steps p₂)

/-- The nested script of a parser rule goes in lockstep. -/
def ParseRule.NestedLockstep : ParseRule → Prop
  | .script ops => OpsLockstep ops
  | _ => True

/-- The nested script of a parser step goes in lockstep. -/
def ParseStep.NestedLockstep : ParseStep → Prop
  | .context ops => OpsLockstep ops
  | _ => True

/-- The nested scripts of a group operation go in lockstep. -/
def GroupOp.NestedLockstep : GroupOp → Prop
  | .nextGroup ops => OpsLockstep ops
  | .sub _ ops _ => GroupOpsLockstep ops
  | _ => True

/-- The nested scripts of an operation go in lockstep. -/
def Op.NestedLockstep : Op → Prop
  | .zoom _ ops | .split _ ops _ | .zoomRef _ ops | .regroup _ _ ops => OpsLockstep ops
  | .groups _ _ ops _ => GroupOpsLockstep ops
  | .parser rule steps => rule.NestedLockstep ∧ StepsLockstep steps
  | _ => True

section Nested

variable {σ₁ σ₂ : Type} [Context σ₁ Int64] [Handle σ₁] [Context σ₂ Int64] [Handle σ₂]
  {R : σ₁ → σ₂ → Prop} {s₁ : σ₁} {s₂ : σ₂}

/-- A parser rule goes in lockstep on contexts that answer alike once its nested script does. -/
theorem parseRule_lockstep_of_nested {rule : ParseRule} (hn : rule.NestedLockstep) (h : Bisim R)
    (hs : R s₁ s₂) : Lockstep R (parseRule rule s₁) (parseRule rule s₂) := by
  cases rule with
  | span p sep =>
    -- the span is read on twin views, which give back related contexts
    have hz : Lockstep R (Context.zoom (TakeWhile.mk p.holds) Context.drawAll s₁)
        (Context.zoom (TakeWhile.mk p.holds) Context.drawAll s₂) := by
      exact ((View.bisim h.toBisim).drawAll (View.twin_split hs _)).wrap View.resume View.resume
        (·.parent)
    obtain ⟨items, u₁, u₂, h₁, h₂, hu⟩ := hz.exists_eq
    rw [parseRule, parseRule, h₁, h₂]
    dsimp only
    split
    · exact ⟨rfl, hu⟩
    · cases sep with
      | none => exact ⟨rfl, hu⟩
      | some q =>
        obtain ⟨a, w₁, w₂, g₁, g₂, hw⟩ := (h.drawIf q.holds hu).exists_eq
        dsimp only
        rw [g₁, g₂]
        exact ⟨rfl, hw⟩
  | peek => exact (h.peek hs).map (Option.map Reply.element)
  | draw => exact (h.draw hs).map (Option.map Reply.element)
  | drawIf p => exact (h.drawIf p.holds hs).map (Option.map Reply.element)
  | script ops =>
    obtain ⟨es, u₁, u₂, h₁, h₂, hu⟩ := (hn h hs).exists_eq
    rw [parseRule, parseRule, h₁, h₂]
    dsimp only
    cases es.getLast? with
    | none => exact ⟨rfl, hu⟩
    | some e =>
      dsimp only
      split <;> exact ⟨rfl, hu⟩

variable {p₁ : Parser σ₁ (σ₁ → Option Reply × σ₁)} {p₂ : Parser σ₂ (σ₂ → Option Reply × σ₂)}

/-- A parser step goes in lockstep on twin parsers once its nested script does. -/
theorem runStep_lockstep_of_nested {step : ParseStep} (hn : step.NestedLockstep) (h : Bisim R)
    (hp : Parser.Twin R p₁ p₂) :
    Lockstep (Parser.Twin R) (runStep step p₁) (runStep step p₂) := by
  cases step with
  | next => exact (hp.nextNode h).map Reply.ofNode
  | parse =>
    -- checking this case the kernel unfolds the node limit, a product with `spareFactor`: the
    -- module's slowest step, a few seconds
    exact (hp.parse h).map Reply.nodes
  | take k => exact (hp.takeNodes h k).map Reply.nodes
  | context ops =>
    refine ((hn h hp.context).map Reply.entries).wrap (fun c ↦ { p₁ with context := c })
      (fun c ↦ { p₂ with context := c }) ?_
    exact fun hc ↦ ⟨hc, hp.rule, hp.stalled⟩

end Nested

section Groups

variable {τ₁ τ₂ ρ₁ ρ₂ : Type} [Grouped τ₁ Int64 ρ₁] [Grouped τ₂ Int64 ρ₂] {T : τ₁ → τ₂ → Prop}
  {Rrest : ρ₁ → ρ₂ → Prop} {t₁ : τ₁} {t₂ : τ₂}

/-- A group operation goes in lockstep on streams that answer alike once its nested scripts do:
the open group is a context of its own, and further windows are streams of their own. -/
theorem runGroupOp_lockstep_of_nested {op : GroupOp} (hn : op.NestedLockstep)
    (h : Grouped.Bisim T Rrest) (ht : T t₁ t₂) :
    Lockstep T (runGroupOp op t₁) (runGroupOp op t₂) := by
  cases op with
  | nextGroup ops =>
    obtain ⟨i, u₁, u₂, h₁, h₂, hu⟩ := (h.openNext ht).exists_eq
    rw [runGroupOp, runGroupOp, h₁, h₂]
    cases i with
    | none => exact ⟨rfl, hu⟩
    | some i =>
      obtain ⟨es, g₁, g₂, e₁, e₂, hg⟩ :=
        (hn (Bisim.group h) (⟨hu, rfl⟩ : Group.Twin T (Group.mk u₁ i) (Group.mk u₂ i))).exists_eq
      dsimp only
      rw [e₁, e₂]
      exact ⟨rfl, hg.stream⟩
  | openNext => exact (h.openNext ht).map Reply.ofIndex
  | drawInGroup => exact (h.drawInGroup ht).map Reply.ofElement
  | undrawInGroup x => exact ⟨rfl, h.undrawInGroup x ht⟩
  | peekInGroup => exact (h.peekInGroup ht).map Reply.ofElement
  | groupOffset => exact ⟨congrArg Reply.size (h.groupOffset ht), ht⟩
  | collectGroups limit => exact (collectGroups_lockstep h limit ht).map Reply.groupLists
  | groupCollect =>
    obtain ⟨i, u₁, u₂, h₁, h₂, hu⟩ := (h.openNext ht).exists_eq
    rw [runGroupOp, runGroupOp, h₁, h₂]
    cases i with
    | none => exact ⟨rfl, hu⟩
    | some i =>
      obtain ⟨items, v₁, v₂, e₁, e₂, hv⟩ := ((Group.producerBisim h).collectAll
        (⟨hu, rfl⟩ : Group.Twin T (Group.mk u₁ i) (Group.mk u₂ i))).exists_eq
      dsimp only
      rw [e₁, e₂]
      exact ⟨rfl, hv⟩
  | sub windows ops finish =>
    rw [runGroupOp, runGroupOp]
    -- the windows are built on borrows, which end into the stream itself
    refine Grouped.withWindows_rel (Lockstep T) ?_ (windows.map WindowSpec.toWindow)
      (Borrow.bisim h) (ht : Borrow.Twin T (Borrow.mk t₁) (Borrow.mk t₂))
    intro υ₁ υ₂ _ _ U hU u₁ u₂ hu
    obtain ⟨es, w₁, w₂, h₁, h₂, hw⟩ := (hn hU hu).exists_eq
    obtain ⟨x, r₁, r₂, g₁, g₂, hr⟩ := (Finish.apply_lockstep hU finish hw).exists_eq
    dsimp only
    rw [h₁, h₂]
    dsimp only
    rw [g₁, g₂]
    exact ⟨rfl, hr⟩

end Groups

section Operations

variable {σ₁ σ₂ : Type} [Context σ₁ Int64] [Handle σ₁] [Context σ₂ Int64] [Handle σ₂]
  {R : σ₁ → σ₂ → Prop} {s₁ : σ₁} {s₂ : σ₂}

omit [Handle σ₁] [Handle σ₂] in
/-- The windowed groupings of two contexts that answer alike, under the rule a specification
names, answer alike and end into related contexts, so continuations that go in lockstep on every
two such streams go in lockstep on them. -/
theorem windowedGroups_lockstep (hc : Context.Bisim R) (rule : RuleSpec) (windows : List WindowSpec)
    {X : Type} {k₁ : {υ : Type} → [Grouped υ Int64 σ₁] → υ → X × σ₁}
    {k₂ : {υ : Type} → [Grouped υ Int64 σ₂] → υ → X × σ₂}
    (hk : ∀ {υ₁ υ₂ : Type} [Grouped υ₁ Int64 σ₁] [Grouped υ₂ Int64 σ₂] {U : υ₁ → υ₂ → Prop},
      Grouped.Bisim U R → ∀ {u₁ u₂}, U u₁ u₂ → Lockstep R (k₁ u₁) (k₂ u₂))
    (hs : R s₁ s₂) :
    Lockstep R (rule.withRule fun r ↦ WindowSpec.withWindows windows (Groups.ofRule s₁ r) k₁)
      (rule.withRule fun r ↦ WindowSpec.withWindows windows (Groups.ofRule s₂ r) k₂) :=
  RuleSpec.withRule_rel (Lockstep R) rule fun r ↦
    Grouped.withWindows_rel (Lockstep R) hk (windows.map WindowSpec.toWindow) (Groups.bisim hc)
      (Groups.twin_ofRule hs r)

/-- A split runs its script on twin views and ends them alike: resumed, read to the end or
drained. -/
theorem runOp_split_lockstep (b : BoundSpec) (finish : SplitEnd) {ops : List Op}
    (hn : OpsLockstep ops) (hc : Context.Bisim R) (hs : R s₁ s₂) :
    Lockstep R (runOp (.split b ops finish) s₁) (runOp (.split b ops finish) s₂) := by
  rw [runOp, runOp]
  refine BoundSpec.withBound_rel (Lockstep R) b fun bound ↦ ?_
  obtain ⟨es, v₁, v₂, h₁, h₂, hv⟩ := (hn (Bisim.view hc) (View.twin_split hs bound)).exists_eq
  dsimp only
  rw [h₁, h₂]
  cases finish with
  | resume => exact ⟨rfl, hv.parent⟩
  | drop => exact ⟨rfl, hv.parent⟩
  | collectAll => exact ((View.producerBisim hc).collectAll hv).map (Reply.split es ∘ some)
  | drain => exact ⟨rfl, (View.producerBisim hc).drain hv⟩

/-- Group operations run on windows of borrowed groupings of two contexts that answer alike,
which end into twin groupings and so into related contexts. -/
theorem runOp_groups_lockstep (rule : RuleSpec) (windows : List WindowSpec) (finish : Finish)
    {ops : List GroupOp} (hn : GroupOpsLockstep ops) (hc : Context.Bisim R) (hs : R s₁ s₂) :
    Lockstep R (runOp (.groups rule windows ops finish) s₁)
      (runOp (.groups rule windows ops finish) s₂) := by
  rw [runOp, runOp]
  refine RuleSpec.withRule_rel (Lockstep R) rule fun r ↦ ?_
  refine Grouped.withWindows_rel (Lockstep R) ?_ (windows.map WindowSpec.toWindow)
    (Borrow.bisim (Groups.bisim hc))
    (Groups.twin_ofRule hs r : Borrow.Twin (Groups.Twin R) (Borrow.mk (Groups.ofRule s₁ r))
      (Borrow.mk (Groups.ofRule s₂ r)))
  intro υ₁ υ₂ _ _ U hU u₁ u₂ hu
  obtain ⟨es, w₁, w₂, h₁, h₂, hw⟩ := (hn hU hu).exists_eq
  obtain ⟨x, g₁, g₂, e₁, e₂, hg⟩ := (Finish.apply_lockstep hU finish hw).exists_eq
  dsimp only
  rw [h₁, h₂]
  dsimp only
  rw [e₁, e₂]
  exact ⟨by rw [hg.opened], hg.view.parent⟩

/-- An operation goes in lockstep on contexts that answer alike as contexts once its nested
scripts do, provided the contexts also answer alike to every operation when it reads more than
the stream. -/
theorem runOp_lockstep_of_nested {op : Op} (hn : op.NestedLockstep) (hc : Context.Bisim R)
    (hfull : op.streamOnly = false → Bisim R) (hs : R s₁ s₂) :
    Lockstep R (runOp op s₁) (runOp op s₂) := by
  cases op with
  | draw => exact (hc.draw hs).map Reply.ofElement
  | peek => exact (hc.peek hs).map Reply.ofElement
  | undraw x => exact ⟨rfl, hc.undraw x hs⟩
  | undrawMany xs => exact ⟨rfl, hc.foldl_undraw xs hs⟩
  | offset => exact ⟨congrArg Reply.size ((hfull rfl).offset hs), hs⟩
  | isEnd => exact (hc.isEnd hs).map Reply.flag
  | skip => exact (hc.skip hs).map Reply.flag
  | drawIf p => exact (hc.drawIf p.holds hs).map Reply.ofElement
  | drawAll => exact (hc.drawAll hs).map Reply.elements
  | drawN n => exact (drawTimes_lockstep hc n hs).map Reply.draws
  | foldAll kind => exact (hc.foldAll Tally.step kind.init hs).map Reply.ofTally
  | pending =>
    rw [runOp, runOp, (hfull rfl).pending hs]
    cases Handle.pending s₂ <;> exact ⟨rfl, hs⟩
  | zoom b ops =>
    rw [runOp, runOp]
    refine BoundSpec.withBound_rel (Lockstep R) b fun bound ↦ ?_
    exact ((hn (Bisim.view hc) (View.twin_split hs bound)).map Reply.entries).wrap View.resume
      View.resume (·.parent)
  | split b ops finish => exact runOp_split_lockstep b finish hn hc hs
  | zoomRef n ops =>
    obtain ⟨es, v₁, v₂, h₁, h₂, hv⟩ := (hn (Bisim.view hc) (View.twin_split hs (Take.mk n))).exists_eq
    rw [runOp, runOp, h₁, h₂]
    dsimp only
    exact ⟨by rw [hv.bound], hv.parent⟩
  | isClosed =>
    rw [runOp, runOp, (hfull rfl).closed hs]
    cases Handle.closed s₂ <;> exact ⟨rfl, hs⟩
  | restart =>
    have hr := (hfull rfl).restart hs
    rw [runOp, runOp]
    generalize Handle.restart s₁ = o₁, Handle.restart s₂ = o₂ at hr
    cases hr with
    | some ht => exact ⟨rfl, ht⟩
    | none => exact ⟨rfl, hs⟩
  | remaining =>
    rw [runOp, runOp, (hfull rfl).remaining hs]
    cases Handle.remaining s₂ <;> exact ⟨rfl, hs⟩
  | setBound n =>
    have hr := (hfull rfl).resize n hs
    rw [runOp, runOp]
    generalize Handle.resize n s₁ = o₁, Handle.resize n s₂ = o₂ at hr
    cases hr with
    | some ht =>
      obtain ⟨b, t₁, t₂, rfl, rfl, hu⟩ := ht.exists_eq
      exact ⟨rfl, hu⟩
    | none => exact ⟨rfl, hs⟩
  | describeBound =>
    rw [runOp, runOp, (hfull rfl).describe hs]
    cases Handle.describe s₂ <;> exact ⟨rfl, hs⟩
  | groups rule windows ops finish => exact runOp_groups_lockstep rule windows finish hn hc hs
  | regroup rule windows ops =>
    rw [runOp, runOp]
    refine windowedGroups_lockstep hc rule windows ?_ hs
    intro υ₁ υ₂ _ _ U hU u₁ u₂ hu
    -- the script runs on twin cursors over the concatenations
    exact (hU.rejoinWith hc (fun hcur ↦ hn (Bisim.cursor (Rejoin.producerBisim hU)) hcur)
      hu).map Reply.entries
  | regroupAll rule windows limit =>
    rw [runOp, runOp, regroupAll, regroupAll]
    refine windowedGroups_lockstep hc rule windows ?_ hs
    intro υ₁ υ₂ _ _ U hU u₁ u₂ hu
    exact (readOut_lockstep (Rejoin.producerBisim hU) limit
      (⟨hu, rfl⟩ : Rejoin.Twin U (Grouped.concat u₁) (Grouped.concat u₂))).map Reply.elements
  | parser rule steps =>
    obtain ⟨hrule, hsteps⟩ := hn
    have h := hfull rfl
    have hp : Parser.Twin R { context := s₁, rule := parseRule rule }
        { context := s₂, rule := parseRule rule } :=
      ⟨hs, fun ht ↦ parseRule_lockstep_of_nested hrule h ht, rfl⟩
    exact ((hsteps h hp).map Reply.entries).wrap Spool.Parser.context Spool.Parser.context
      (·.context)

end Operations

-- The recursion follows the interpreter's: each script's lockstep from its operations', each
-- operation's nested scripts from theirs.
mutual

/-- Every script goes in lockstep on every two contexts that answer alike to every operation. -/
theorem runOps_lockstep : ∀ ops : List Op, OpsLockstep ops
  | [] => fun _ hs ↦ ⟨rfl, hs⟩
  | op :: ops => fun h hs ↦
    Lockstep.seq (runOp_lockstep_of_nested (Op.nestedLockstep op) h.toBisim (fun _ ↦ h) hs)
      h.offset (runOps_lockstep ops h)

theorem Op.nestedLockstep : ∀ op : Op, op.NestedLockstep
  | .zoom _ ops | .split _ ops _ | .zoomRef _ ops | .regroup _ _ ops => runOps_lockstep ops
  | .groups _ _ ops _ => runGroupOps_lockstep ops
  | .parser rule steps => ⟨ParseRule.nestedLockstep rule, runSteps_lockstep steps⟩
  | .draw | .peek | .undraw _ | .undrawMany _ | .offset | .isEnd | .skip | .drawIf _ | .drawAll
  | .drawN _ | .foldAll _ | .pending | .isClosed | .restart | .remaining | .setBound _
  | .describeBound | .regroupAll _ _ _ => trivial

/-- Every list of group operations goes in lockstep on every two streams that answer alike. -/
theorem runGroupOps_lockstep : ∀ ops : List GroupOp, GroupOpsLockstep ops
  | [] => fun _ ht ↦ ⟨rfl, ht⟩
  | op :: ops => fun h ht ↦
    Lockstep.seq (runGroupOp_lockstep_of_nested (GroupOp.nestedLockstep op) h ht)
      h.groupOffset (runGroupOps_lockstep ops h)

theorem GroupOp.nestedLockstep : ∀ op : GroupOp, op.NestedLockstep
  | .nextGroup ops => runOps_lockstep ops
  | .sub _ ops _ => runGroupOps_lockstep ops
  | .openNext | .drawInGroup | .undrawInGroup _ | .peekInGroup | .groupOffset | .collectGroups _
  | .groupCollect => trivial

theorem ParseRule.nestedLockstep : ∀ rule : ParseRule, rule.NestedLockstep
  | .script ops => runOps_lockstep ops
  | .span _ _ | .peek | .draw | .drawIf _ => trivial

/-- Every list of parser steps goes in lockstep on every two twin parsers. -/
theorem runSteps_lockstep : ∀ steps : List ParseStep, StepsLockstep steps
  | [] => fun _ hp ↦ ⟨rfl, hp⟩
  | step :: steps => fun h hp ↦
    Lockstep.seq (runStep_lockstep_of_nested (ParseStep.nestedLockstep step) h hp)
      (fun hq ↦ h.offset hq.context) (runSteps_lockstep steps h)

theorem ParseStep.nestedLockstep : ∀ step : ParseStep, step.NestedLockstep
  | .context ops => runOps_lockstep ops
  | .next | .parse | .take _ => trivial

end

section StreamOnly

variable {σ₁ σ₂ : Type} [Context σ₁ Int64] [Handle σ₁] [Context σ₂ Int64] [Handle σ₂]
  {R : σ₁ → σ₂ → Prop} {s₁ : σ₁} {s₂ : σ₂}

/-- A script of operations that read only the stream gives the same answers on two contexts that
answer alike as contexts, and leaves them related; only the offsets beside the answers may differ.
Nested scripts may hold every operation. -/
theorem runOps_replies_of_streamOnly {ops : List Op} (hops : ∀ op ∈ ops, op.streamOnly = true)
    (hc : Context.Bisim R) (hs : R s₁ s₂) :
    (runOps ops s₁).1.map Prod.fst = (runOps ops s₂).1.map Prod.fst ∧
      R (runOps ops s₁).2 (runOps ops s₂).2 := by
  induction ops generalizing s₁ s₂ with
  | nil => exact ⟨rfl, hs⟩
  | cons op ops ih =>
    have hop : op.streamOnly = true := hops op List.mem_cons_self
    obtain ⟨r, t₁, t₂, h₁, h₂, ht⟩ := (runOp_lockstep_of_nested (Op.nestedLockstep op) hc
      (fun hfalse ↦ absurd (hop.symm.trans hfalse) Bool.noConfusion) hs).exists_eq
    obtain ⟨ih₁, ih₂⟩ := ih (fun o ho ↦ hops o (List.mem_cons_of_mem _ ho)) ht
    rw [runOps, runOps, h₁, h₂]
    exact ⟨by simp only [List.map_cons, ih₁], ih₂⟩

end StreamOnly

end Spool.Script
