import Mathlib.Tactic.SplitIfs
import Spool.Grouping.Window
import Spool.Grouping.Rejoin

/-!
# Contexts that answer alike

Whatever reads a context sees it only through its operations. Two contexts, of one kind or of two,
that give the same answer to every operation and are left by it in states that again answer
alike cannot be told apart by any reader. This module states that of one step of each operation,
and shows that every layer the library builds on a context, a group stream or a producer keeps it.

`Lockstep R p₁ p₂` says that two steps give the same answer and leave states related by `R`.
`Context.Bisim R` says that on contexts related by `R` a draw and a peek go in lockstep, a push
back leaves related contexts, and the supplies are equal. Equal supplies make every loop that reads
to the end run as many rounds on both sides, so drawing `n` times, reading or folding to the end
and drawing under a condition go in lockstep too (`Context.Bisim.drawUpTo`, `drawAll`, `foldAll`,
`drawIf`). `Grouped.Bisim R Rrest` says the same of group streams, whose rests are related by
`Rrest`, with the loops that read a group or every group (`Grouped.Bisim.readGroup`,
`readGroups`), and `Producer.Bisim R Rres` of producers, whose results are related by `Rres`.

Each layer is related to the same layer over another base by its own fields and the relation
between the bases: a twin. Twin views over contexts that answer alike answer alike
(`View.bisim`), and so do twin groupings (`Groups.bisim`), borrows and windows (`Borrow.bisim`,
`TakeGroups.bisim`, `DropGroups.bisim`, `FilterGroups.bisim`, and `Grouped.withWindows_rel` for a
chain of them), a group's handle (`Group.bisim`), the concatenation, intercalation and folds of the
groups (`Rejoin.producerBisim`, `Intercalate.producerBisim`, `FoldGroups.producerBisim`) and
cursors over a producer (`Cursor.bisim`). Regrouping through twin cursors gives back contexts related as the ones it
started from (`Grouped.Bisim.rejoinWith`).
-/

set_option autoImplicit false

namespace Spool

/-- Two steps, each giving an answer and a state, give the same answer and leave states related by
`R`. -/
structure Lockstep {γ σ₁ σ₂ : Type} (R : σ₁ → σ₂ → Prop) (p₁ : γ × σ₁) (p₂ : γ × σ₂) : Prop where
  fst_eq : p₁.1 = p₂.1
  rel : R p₁.2 p₂.2

namespace Lockstep

variable {γ σ₁ σ₂ : Type} {R : σ₁ → σ₂ → Prop} {p₁ : γ × σ₁} {p₂ : γ × σ₂}

/-- The two steps as pairs: one answer, two related states. -/
theorem exists_eq (h : Lockstep R p₁ p₂) : ∃ a t₁ t₂, p₁ = (a, t₁) ∧ p₂ = (a, t₂) ∧ R t₁ t₂ :=
  ⟨p₁.1, p₁.2, p₂.2, rfl, Prod.ext h.fst_eq.symm rfl, h.rel⟩

/-- Two answers that go in lockstep still do once each is read through the same function. -/
theorem map {γ' : Type} (f : γ → γ') (h : Lockstep R p₁ p₂) :
    Lockstep R (f p₁.1, p₁.2) (f p₂.1, p₂.2) :=
  ⟨congrArg f h.fst_eq, h.rel⟩

/-- Two steps in lockstep still are once their states are wrapped in a layer that keeps the
relation. -/
theorem wrap {υ₁ υ₂ : Type} {R' : υ₁ → υ₂ → Prop} (f₁ : σ₁ → υ₁) (f₂ : σ₂ → υ₂)
    (hf : ∀ {t₁ t₂}, R t₁ t₂ → R' (f₁ t₁) (f₂ t₂)) (h : Lockstep R p₁ p₂) :
    Lockstep R' (p₁.1, f₁ p₁.2) (p₂.1, f₂ p₂.2) :=
  ⟨h.fst_eq, hf h.rel⟩

/-- A sequence of steps that each go in lockstep, each answer recorded with an observation of the
state after it that related states share, goes in lockstep. -/
theorem seq {δ : Type} {x₁ : γ × σ₁} {x₂ : γ × σ₂} {obs₁ : σ₁ → δ} {obs₂ : σ₂ → δ}
    {k₁ : σ₁ → List (γ × δ) × σ₁} {k₂ : σ₂ → List (γ × δ) × σ₂} (hx : Lockstep R x₁ x₂)
    (hobs : ∀ {t₁ t₂}, R t₁ t₂ → obs₁ t₁ = obs₂ t₂)
    (hk : ∀ {t₁ t₂}, R t₁ t₂ → Lockstep R (k₁ t₁) (k₂ t₂)) :
    Lockstep R
      (let (r, s) := x₁; let entry := (r, obs₁ s); let (rest, s) := k₁ s; (entry :: rest, s))
      (let (r, s) := x₂; let entry := (r, obs₂ s); let (rest, s) := k₂ s; (entry :: rest, s)) := by
  obtain ⟨r, t₁, t₂, rfl, rfl, ht⟩ := hx.exists_eq
  obtain ⟨rest, u₁, u₂, h₁, h₂, hu⟩ := (hk ht).exists_eq
  dsimp only
  rw [h₁, h₂, hobs ht]
  exact ⟨rfl, hu⟩

end Lockstep

namespace Context

variable {σ₁ σ₂ α : Type} [Context σ₁ α] [Context σ₂ α]

/-- Contexts related by `R` answer alike: a draw and a peek go in lockstep, a push back leaves
related contexts, and the supplies are equal. -/
structure Bisim (R : σ₁ → σ₂ → Prop) : Prop where
  draw : ∀ {s₁ s₂}, R s₁ s₂ → Lockstep R (draw s₁) (draw s₂)
  undraw : ∀ (a : α) {s₁ s₂}, R s₁ s₂ → R (undraw a s₁) (undraw a s₂)
  peek : ∀ {s₁ s₂}, R s₁ s₂ → Lockstep R (peek s₁) (peek s₂)
  supply : ∀ {s₁ s₂}, R s₁ s₂ → supply s₁ = supply s₂

namespace Bisim

variable {R : σ₁ → σ₂ → Prop} {s₁ : σ₁} {s₂ : σ₂}

theorem drawUpTo (h : Bisim R) (n : Nat) (hs : R s₁ s₂) :
    Lockstep R (drawUpTo n s₁) (drawUpTo n s₂) := by
  induction n generalizing s₁ s₂ with
  | zero => exact ⟨rfl, hs⟩
  | succ n ih =>
    obtain ⟨a, t₁, t₂, h₁, h₂, ht⟩ := (h.draw hs).exists_eq
    rw [Context.drawUpTo, Context.drawUpTo, h₁, h₂]
    cases a with
    | none => exact ⟨rfl, ht⟩
    | some a =>
      obtain ⟨rest, u₁, u₂, g₁, g₂, hu⟩ := (ih ht).exists_eq
      simp only [g₁, g₂]
      exact ⟨rfl, hu⟩

theorem drawAll (h : Bisim R) (hs : R s₁ s₂) : Lockstep R (drawAll s₁) (drawAll s₂) := by
  unfold Context.drawAll
  rw [h.supply hs]
  exact h.drawUpTo _ hs

theorem foldUpTo {β : Type} (h : Bisim R) (step : β → α → β) (n : Nat) (acc : β)
    (hs : R s₁ s₂) : Lockstep R (foldUpTo step n acc s₁) (foldUpTo step n acc s₂) := by
  induction n generalizing acc s₁ s₂ with
  | zero => exact ⟨rfl, hs⟩
  | succ n ih =>
    obtain ⟨a, t₁, t₂, h₁, h₂, ht⟩ := (h.draw hs).exists_eq
    rw [Context.foldUpTo, Context.foldUpTo, h₁, h₂]
    cases a with
    | none => exact ⟨rfl, ht⟩
    | some a => exact ih _ ht

theorem foldAll {β : Type} (h : Bisim R) (step : β → α → β) (init : β) (hs : R s₁ s₂) :
    Lockstep R (foldAll step init s₁) (foldAll step init s₂) := by
  unfold Context.foldAll
  rw [h.supply hs]
  exact h.foldUpTo step _ init hs

theorem drawIf (h : Bisim R) (p : α → Bool) (hs : R s₁ s₂) :
    Lockstep R (drawIf p s₁) (drawIf p s₂) := by
  obtain ⟨a, t₁, t₂, h₁, h₂, ht⟩ := (h.draw hs).exists_eq
  unfold Context.drawIf
  rw [h₁, h₂]
  cases a with
  | none => exact ⟨rfl, ht⟩
  | some a =>
    -- the element the condition refuses goes back on both sides
    by_cases hp : p a
    · simp only [hp, if_true]
      exact ⟨rfl, ht⟩
    · simp only [hp]
      exact ⟨rfl, h.undraw a ht⟩

theorem isEnd (h : Bisim R) (hs : R s₁ s₂) : Lockstep R (isEnd s₁) (isEnd s₂) := by
  obtain ⟨a, t₁, t₂, h₁, h₂, ht⟩ := (h.peek hs).exists_eq
  unfold Context.isEnd
  rw [h₁, h₂]
  exact ⟨rfl, ht⟩

theorem skip (h : Bisim R) (hs : R s₁ s₂) : Lockstep R (skip s₁) (skip s₂) := by
  obtain ⟨a, t₁, t₂, h₁, h₂, ht⟩ := (h.draw hs).exists_eq
  unfold Context.skip
  rw [h₁, h₂]
  exact ⟨rfl, ht⟩

/-- Pushing back the elements of a list one after another leaves related contexts. -/
theorem foldl_undraw (h : Bisim R) (xs : List α) (hs : R s₁ s₂) :
    R (xs.foldl (fun s a ↦ Context.undraw a s) s₁) (xs.foldl (fun s a ↦ Context.undraw a s) s₂) := by
  induction xs generalizing s₁ s₂ with
  | nil => exact hs
  | cons a xs ih => exact ih (h.undraw a hs)

end Bisim

end Context

namespace Producer

variable {π₁ π₂ α ρ₁ ρ₂ : Type} [Producer π₁ α ρ₁] [Producer π₂ α ρ₂]

/-- Producers related by `R` answer alike: pulls go in lockstep, the supplies are equal and the
results are related by `Rres`. -/
structure Bisim (R : π₁ → π₂ → Prop) (Rres : ρ₁ → ρ₂ → Prop) : Prop where
  pull : ∀ {p₁ p₂}, R p₁ p₂ → Lockstep R (pull p₁) (pull p₂)
  supply : ∀ {p₁ p₂}, R p₁ p₂ → supply p₁ = supply p₂
  finish : ∀ {p₁ p₂}, R p₁ p₂ → Rres (finish p₁) (finish p₂)

namespace Bisim

variable {R : π₁ → π₂ → Prop} {Rres : ρ₁ → ρ₂ → Prop} {p₁ : π₁} {p₂ : π₂}

theorem pullUpTo (h : Bisim R Rres) (n : Nat) (hp : R p₁ p₂) :
    Lockstep R (pullUpTo n p₁) (pullUpTo n p₂) := by
  induction n generalizing p₁ p₂ with
  | zero => exact ⟨rfl, hp⟩
  | succ n ih =>
    obtain ⟨a, t₁, t₂, h₁, h₂, ht⟩ := (h.pull hp).exists_eq
    rw [Producer.pullUpTo, Producer.pullUpTo, h₁, h₂]
    cases a with
    | none => exact ⟨rfl, ht⟩
    | some a =>
      obtain ⟨rest, u₁, u₂, g₁, g₂, hu⟩ := (ih ht).exists_eq
      simp only [g₁, g₂]
      exact ⟨rfl, hu⟩

/-- Reading to the end gives the same elements and related results. -/
theorem collectAll (h : Bisim R Rres) (hp : R p₁ p₂) :
    Lockstep Rres (collectAll p₁) (collectAll p₂) := by
  have hn : Producer.supply p₁ + 1 = Producer.supply p₂ + 1 := by rw [h.supply hp]
  obtain ⟨items, t₁, t₂, h₁, h₂, ht⟩ := (h.pullUpTo (Producer.supply p₁ + 1) hp).exists_eq
  unfold Producer.collectAll Producer.elements
  rw [← hn, h₁, h₂]
  exact ⟨rfl, h.finish ht⟩

theorem drain (h : Bisim R Rres) (hp : R p₁ p₂) : Rres (Producer.drain p₁) (Producer.drain p₂) :=
  (h.collectAll hp).rel

end Bisim

end Producer

namespace Grouped

variable {τ₁ τ₂ α ρ₁ ρ₂ : Type} [Grouped τ₁ α ρ₁] [Grouped τ₂ α ρ₂]

/-- Group streams related by `R` answer alike: opening a group and drawing and peeking in the open
one go in lockstep, a push back leaves related streams, the group offsets and the supplies are
equal, and the rests are related by `Rrest`. -/
structure Bisim (R : τ₁ → τ₂ → Prop) (Rrest : ρ₁ → ρ₂ → Prop) : Prop where
  openNext : ∀ {t₁ t₂}, R t₁ t₂ → Lockstep R (openNext t₁) (openNext t₂)
  drawInGroup : ∀ {t₁ t₂}, R t₁ t₂ → Lockstep R (drawInGroup t₁) (drawInGroup t₂)
  undrawInGroup : ∀ (a : α) {t₁ t₂}, R t₁ t₂ → R (undrawInGroup a t₁) (undrawInGroup a t₂)
  peekInGroup : ∀ {t₁ t₂}, R t₁ t₂ → Lockstep R (peekInGroup t₁) (peekInGroup t₂)
  groupOffset : ∀ {t₁ t₂}, R t₁ t₂ → groupOffset t₁ = groupOffset t₂
  supply : ∀ {t₁ t₂}, R t₁ t₂ → supply t₁ = supply t₂
  intoRest : ∀ {t₁ t₂}, R t₁ t₂ → Rrest (intoRest t₁) (intoRest t₂)

namespace Bisim

variable {R : τ₁ → τ₂ → Prop} {Rrest : ρ₁ → ρ₂ → Prop} {t₁ : τ₁} {t₂ : τ₂}

theorem readGroupUpTo (h : Bisim R Rrest) (n : Nat) (ht : R t₁ t₂) :
    Lockstep R (readGroupUpTo n t₁) (readGroupUpTo n t₂) := by
  induction n generalizing t₁ t₂ with
  | zero => exact ⟨rfl, ht⟩
  | succ n ih =>
    obtain ⟨a, u₁, u₂, h₁, h₂, hu⟩ := (h.drawInGroup ht).exists_eq
    rw [Grouped.readGroupUpTo, Grouped.readGroupUpTo, h₁, h₂]
    cases a with
    | none => exact ⟨rfl, hu⟩
    | some a =>
      obtain ⟨rest, w₁, w₂, g₁, g₂, hw⟩ := (ih hu).exists_eq
      simp only [g₁, g₂]
      exact ⟨rfl, hw⟩

theorem readGroup (h : Bisim R Rrest) (ht : R t₁ t₂) :
    Lockstep R (readGroup t₁) (readGroup t₂) := by
  unfold Grouped.readGroup
  rw [h.supply ht]
  exact h.readGroupUpTo _ ht

theorem drainUpTo (h : Bisim R Rrest) (n : Nat) (ht : R t₁ t₂) :
    Lockstep R (drainUpTo n t₁) (drainUpTo n t₂) := by
  induction n generalizing t₁ t₂ with
  | zero => exact ⟨rfl, ht⟩
  | succ n ih =>
    obtain ⟨a, u₁, u₂, h₁, h₂, hu⟩ := (h.drawInGroup ht).exists_eq
    rw [Grouped.drainUpTo, Grouped.drainUpTo, h₁, h₂]
    cases a with
    | none => exact ⟨rfl, hu⟩
    | some a =>
      obtain ⟨k, w₁, w₂, g₁, g₂, hw⟩ := (ih hu).exists_eq
      simp only [g₁, g₂]
      exact ⟨rfl, hw⟩

theorem drainGroup (h : Bisim R Rrest) (ht : R t₁ t₂) : R (drainGroup t₁) (drainGroup t₂) := by
  unfold Grouped.drainGroup
  rw [h.supply ht]
  exact (h.drainUpTo _ ht).rel

theorem readGroupsUpTo (h : Bisim R Rrest) (n : Nat) (ht : R t₁ t₂) :
    Lockstep R (readGroupsUpTo n t₁) (readGroupsUpTo n t₂) := by
  induction n generalizing t₁ t₂ with
  | zero => exact ⟨rfl, ht⟩
  | succ n ih =>
    obtain ⟨i, u₁, u₂, h₁, h₂, hu⟩ := (h.openNext ht).exists_eq
    rw [Grouped.readGroupsUpTo, Grouped.readGroupsUpTo, h₁, h₂]
    cases i with
    | none => exact ⟨rfl, hu⟩
    | some i =>
      obtain ⟨items, v₁, v₂, g₁, g₂, hv⟩ := (h.readGroup hu).exists_eq
      obtain ⟨rest, w₁, w₂, k₁, k₂, hw⟩ := (ih hv).exists_eq
      simp only [g₁, g₂, k₁, k₂]
      exact ⟨rfl, hw⟩

theorem readGroups (h : Bisim R Rrest) (ht : R t₁ t₂) :
    Lockstep R (readGroups t₁) (readGroups t₂) := by
  unfold Grouped.readGroups
  rw [h.supply ht]
  exact h.readGroupsUpTo _ ht

end Bisim

end Grouped

namespace View

variable {σ₁ σ₂ α β : Type} [Context σ₁ α] [Context σ₂ α] [Boundary β α] {R : σ₁ → σ₂ → Prop}

variable (R) in
/-- Two views with the same bound, counts and closing, over parents related by `R`. -/
structure Twin (v₁ : View σ₁ β) (v₂ : View σ₂ β) : Prop where
  parent : R v₁.parent v₂.parent
  bound : v₁.bound = v₂.bound
  admitted : v₁.admitted = v₂.admitted
  lent : v₁.lent = v₂.lent
  closed : v₁.closed = v₂.closed

theorem twin_ofBound {s₁ : σ₁} {s₂ : σ₂} (hs : R s₁ s₂) (b : β) :
    Twin R (ofBound s₁ b) (ofBound s₂ b) :=
  ⟨hs, rfl, rfl, rfl, rfl⟩

theorem twin_split {s₁ : σ₁} {s₂ : σ₂} (hs : R s₁ s₂) (b : β) :
    Twin R (Context.split b s₁) (Context.split b s₂) :=
  twin_ofBound hs b

variable {v₁ : View σ₁ β} {v₂ : View σ₂ β}

theorem Twin.restart (hv : Twin R v₁ v₂) : Twin R v₁.restart v₂.restart :=
  ⟨hv.parent, hv.bound, rfl, rfl, rfl⟩

theorem Twin.setBound (hv : Twin R v₁ v₂) (b : β) :
    Twin R { v₁ with bound := b } { v₂ with bound := b } :=
  ⟨hv.parent, rfl, hv.admitted, hv.lent, hv.closed⟩

theorem Twin.offset (hv : Twin R v₁ v₂) : v₁.offset = v₂.offset := by
  rw [View.offset, View.offset, hv.admitted, hv.lent]

omit [Boundary β α] in
theorem Twin.undraw (h : Context.Bisim R) (a : α) (hv : Twin R v₁ v₂) :
    Twin R (v₁.undraw a) (v₂.undraw a) :=
  ⟨h.undraw a hv.parent, hv.bound, hv.admitted, by simp [View.undraw, hv.lent], hv.closed⟩

/-- A draw through twin views reads the parents alike and takes the same branch on both. -/
theorem Twin.draw (h : Context.Bisim R) (hv : Twin R v₁ v₂) : Lockstep (Twin R) v₁.draw v₂.draw := by
  obtain ⟨hp, hb, ha, hl, hc⟩ := hv
  obtain ⟨a, t₁, t₂, h₁, h₂, ht⟩ := (h.draw hp).exists_eq
  unfold View.draw
  rw [hb, ha, hl, hc, h₁, h₂]
  split_ifs
  · exact ⟨rfl, ht, rfl, rfl, rfl, rfl⟩
  · exact ⟨rfl, hp, hb, ha, hl, hc⟩
  · exact ⟨rfl, hp, rfl, rfl, rfl, rfl⟩
  · cases a with
    | none => exact ⟨rfl, ht, rfl, rfl, rfl, rfl⟩
    | some a =>
      dsimp only
      rcases Boundary.offer v₂.bound a with ⟨_ | _, b⟩
      · exact ⟨rfl, h.undraw a ht, rfl, rfl, rfl, rfl⟩
      · exact ⟨rfl, ht, rfl, rfl, rfl, rfl⟩

theorem Twin.peek (h : Context.Bisim R) (hv : Twin R v₁ v₂) : Lockstep (Twin R) v₁.peek v₂.peek := by
  unfold View.peek
  rw [hv.lent]
  split_ifs
  · obtain ⟨a, w₁, w₂, h₁, h₂, hw⟩ := (hv.draw h).exists_eq
    rw [h₁, h₂]
    cases a with
    | none => exact ⟨rfl, hw⟩
    | some a =>
      -- the element drawn goes back, then the parents are peeked
      have hu := hw.undraw h a
      obtain ⟨b, p₁, p₂, g₁, g₂, hq⟩ := (h.peek hu.parent).exists_eq
      dsimp only
      rw [g₁, g₂]
      exact ⟨rfl, hq, hu.bound, hu.admitted, hu.lent, hu.closed⟩
  · obtain ⟨b, p₁, p₂, g₁, g₂, hq⟩ := (h.peek hv.parent).exists_eq
    rw [g₁, g₂]
    exact ⟨rfl, hq, hv.bound, hv.admitted, rfl, hv.closed⟩

/-- Twin views over contexts that answer alike answer alike. -/
theorem bisim (h : Context.Bisim R) : Context.Bisim (Twin (β := β) R) where
  draw hv := hv.draw h
  undraw a _ _ hv := hv.undraw h a
  peek hv := hv.peek h
  supply hv := h.supply hv.parent

/-- As producers, twin views pull alike and resume into related parents. -/
theorem producerBisim (h : Context.Bisim R) : Producer.Bisim (Twin (β := β) R) R where
  pull hv := hv.draw h
  supply hv := h.supply hv.parent
  finish hv := hv.parent

end View

namespace Groups

variable {σ₁ σ₂ α β : Type} [Context σ₁ α] [Context σ₂ α] [GroupingRule β α]
  {R : σ₁ → σ₂ → Prop}

variable (R) in
/-- Two groupings with twin views, as many groups opened and the same group open or not. -/
structure Twin (g₁ : Groups σ₁ β) (g₂ : Groups σ₂ β) : Prop where
  view : View.Twin R g₁.view g₂.view
  opened : g₁.opened = g₂.opened
  active : g₁.active = g₂.active

theorem twin_ofRule {s₁ : σ₁} {s₂ : σ₂} (hs : R s₁ s₂) (rule : β) :
    Twin R (ofRule s₁ rule) (ofRule s₂ rule) :=
  ⟨View.twin_ofBound hs rule, rfl, rfl⟩

variable {g₁ : Groups σ₁ β} {g₂ : Groups σ₂ β}

theorem Twin.openNext (h : Context.Bisim R) (hg : Twin R g₁ g₂) :
    Lockstep (Twin R) (Groups.openNext g₁) (Groups.openNext g₂) := by
  -- the view restarts with the rule reset, and the opening peek reads the parents alike
  have hv : View.Twin R
      { parent := g₁.view.restart.parent, bound := GroupingRule.reset (α := α) g₁.view.restart.bound,
        admitted := g₁.view.restart.admitted, lent := g₁.view.restart.lent,
        closed := g₁.view.restart.closed }
      { parent := g₂.view.restart.parent, bound := GroupingRule.reset (α := α) g₂.view.restart.bound,
        admitted := g₂.view.restart.admitted, lent := g₂.view.restart.lent,
        closed := g₂.view.restart.closed } := by
    have hr := hg.view.restart
    exact ⟨hr.parent, by rw [hr.bound], hr.admitted, hr.lent, hr.closed⟩
  obtain ⟨first, w₁, w₂, h₁, h₂, hw⟩ := (hv.peek h).exists_eq
  unfold Groups.openNext
  dsimp only
  rw [h₁, h₂, hg.opened]
  split
  · exact ⟨rfl, hw, rfl, rfl⟩
  · exact ⟨rfl, hw, rfl, rfl⟩

theorem Twin.drawInGroup (h : Context.Bisim R) (hg : Twin R g₁ g₂) :
    Lockstep (Twin R) (Groups.drawInGroup g₁) (Groups.drawInGroup g₂) := by
  unfold Groups.drawInGroup
  rw [hg.active]
  split
  · obtain ⟨a, w₁, w₂, h₁, h₂, hw⟩ := (hg.view.draw h).exists_eq
    rw [h₁, h₂]
    exact ⟨rfl, hw, hg.opened, rfl⟩
  · exact ⟨rfl, hg⟩

theorem Twin.peekInGroup (h : Context.Bisim R) (hg : Twin R g₁ g₂) :
    Lockstep (Twin R) (Groups.peekInGroup g₁) (Groups.peekInGroup g₂) := by
  unfold Groups.peekInGroup
  rw [hg.active]
  split
  · obtain ⟨a, w₁, w₂, h₁, h₂, hw⟩ := (hg.view.peek h).exists_eq
    rw [h₁, h₂]
    exact ⟨rfl, hw, hg.opened, rfl⟩
  · exact ⟨rfl, hg⟩

/-- Twin groupings of contexts that answer alike answer alike, and end into related contexts. -/
theorem bisim (h : Context.Bisim R) : Grouped.Bisim (Twin (β := β) R) R where
  openNext hg := hg.openNext h
  drawInGroup hg := hg.drawInGroup h
  undrawInGroup a _ _ hg := ⟨hg.view.undraw h a, hg.opened, rfl⟩
  peekInGroup hg := hg.peekInGroup h
  groupOffset hg := hg.view.offset
  supply hg := h.supply hg.view.parent
  intoRest hg := hg.view.parent

end Groups

section Windows

variable {τ₁ τ₂ α ρ₁ ρ₂ : Type} [Grouped τ₁ α ρ₁] [Grouped τ₂ α ρ₂] {R : τ₁ → τ₂ → Prop}
  {Rrest : ρ₁ → ρ₂ → Prop}

/-- Two borrows of related streams. -/
def Borrow.Twin (R : τ₁ → τ₂ → Prop) (b₁ : Borrow τ₁) (b₂ : Borrow τ₂) : Prop :=
  R b₁.stream b₂.stream

/-- Borrows of streams that answer alike answer alike, and end into the streams themselves. -/
theorem Borrow.bisim (h : Grouped.Bisim R Rrest) : Grouped.Bisim (Borrow.Twin R) R where
  openNext hb := (h.openNext hb).wrap Borrow.mk Borrow.mk id
  drawInGroup hb := (h.drawInGroup hb).wrap Borrow.mk Borrow.mk id
  undrawInGroup a _ _ hb := h.undrawInGroup a hb
  peekInGroup hb := (h.peekInGroup hb).wrap Borrow.mk Borrow.mk id
  groupOffset hb := h.groupOffset hb
  supply hb := h.supply hb
  intoRest hb := hb

variable (R) in
/-- Two takes of related streams with as many groups left and the same group open or not. -/
structure TakeGroups.Twin (t₁ : TakeGroups τ₁) (t₂ : TakeGroups τ₂) : Prop where
  inner : R t₁.inner t₂.inner
  remaining : t₁.remaining = t₂.remaining
  active : t₁.active = t₂.active

/-- Takes of streams that answer alike answer alike. -/
theorem TakeGroups.bisim (h : Grouped.Bisim R Rrest) : Grouped.Bisim (TakeGroups.Twin R) Rrest where
  openNext {t₁ t₂} ht := by
    show Lockstep _ (TakeGroups.openNext t₁) (TakeGroups.openNext t₂)
    unfold TakeGroups.openNext
    rw [ht.remaining]
    split
    · exact ⟨rfl, ht.inner, rfl, rfl⟩
    · obtain ⟨i, u₁, u₂, h₁, h₂, hu⟩ := (h.openNext ht.inner).exists_eq
      rw [h₁, h₂]
      cases i with
      | none => exact ⟨rfl, hu, rfl, rfl⟩
      | some i => exact ⟨rfl, hu, rfl, rfl⟩
  drawInGroup {t₁ t₂} ht := by
    show Lockstep _ (if t₁.active then _ else (none, t₁)) (if t₂.active then _ else (none, t₂))
    rw [ht.active]
    split
    · obtain ⟨a, u₁, u₂, h₁, h₂, hu⟩ := (h.drawInGroup ht.inner).exists_eq
      dsimp only
      rw [h₁, h₂]
      exact ⟨rfl, hu, ht.remaining, rfl⟩
    · exact ⟨rfl, ht⟩
  undrawInGroup a _ _ ht := ⟨h.undrawInGroup a ht.inner, ht.remaining, ht.active⟩
  peekInGroup {t₁ t₂} ht := by
    show Lockstep _ (if t₁.active then _ else (none, t₁)) (if t₂.active then _ else (none, t₂))
    rw [ht.active]
    split
    · obtain ⟨a, u₁, u₂, h₁, h₂, hu⟩ := (h.peekInGroup ht.inner).exists_eq
      dsimp only
      rw [h₁, h₂]
      exact ⟨rfl, hu, ht.remaining, rfl⟩
    · exact ⟨rfl, ht⟩
  groupOffset ht := h.groupOffset ht.inner
  supply ht := h.supply ht.inner
  intoRest ht := h.intoRest ht.inner

/-- Passing over the same number of groups of related streams opens the same group and leaves the
same count. -/
theorem DropGroups.skipThenOpen_lockstep (h : Grouped.Bisim R Rrest) (n : Nat) {t₁ : τ₁} {t₂ : τ₂}
    (ht : R t₁ t₂) : Lockstep (Lockstep R) (skipThenOpen n t₁) (skipThenOpen n t₂) := by
  induction n generalizing t₁ t₂ with
  | zero =>
    obtain ⟨i, u₁, u₂, h₁, h₂, hu⟩ := (h.openNext ht).exists_eq
    rw [skipThenOpen, skipThenOpen, h₁, h₂]
    exact ⟨rfl, rfl, hu⟩
  | succ n ih =>
    obtain ⟨i, u₁, u₂, h₁, h₂, hu⟩ := (h.openNext ht).exists_eq
    rw [skipThenOpen, skipThenOpen, h₁, h₂]
    cases i with
    | none => exact ⟨rfl, rfl, hu⟩
    | some i => exact ih (h.drainGroup hu)

variable (R) in
/-- Two drops of related streams with as many groups left to pass over. -/
structure DropGroups.Twin (d₁ : DropGroups τ₁) (d₂ : DropGroups τ₂) : Prop where
  inner : R d₁.inner d₂.inner
  skip : d₁.skip = d₂.skip

/-- Drops of streams that answer alike answer alike. -/
theorem DropGroups.bisim (h : Grouped.Bisim R Rrest) : Grouped.Bisim (DropGroups.Twin R) Rrest where
  openNext {d₁ d₂} hd := by
    obtain ⟨u₁, k⟩ := d₁
    obtain ⟨u₂, k₂⟩ := d₂
    obtain ⟨hu, rfl⟩ := hd
    -- the count left to pass over and the stream both come out of the lockstep
    refine (skipThenOpen_lockstep h k hu).wrap (fun q ↦ DropGroups.mk q.2 q.1)
      (fun q ↦ DropGroups.mk q.2 q.1) ?_
    exact fun hq ↦ ⟨hq.rel, hq.fst_eq⟩
  drawInGroup {d₁ d₂} hd :=
    (h.drawInGroup hd.inner).wrap (fun s ↦ { d₁ with inner := s }) (fun s ↦ { d₂ with inner := s })
      fun hu ↦ ⟨hu, hd.skip⟩
  undrawInGroup a _ _ hd := ⟨h.undrawInGroup a hd.inner, hd.skip⟩
  peekInGroup {d₁ d₂} hd :=
    (h.peekInGroup hd.inner).wrap (fun s ↦ { d₁ with inner := s }) (fun s ↦ { d₂ with inner := s })
      fun hu ↦ ⟨hu, hd.skip⟩
  groupOffset hd := h.groupOffset hd.inner
  supply hd := h.supply hd.inner
  intoRest hd := h.intoRest hd.inner

/-- Looking for a selected group in related streams, as many times on both, finds the same one. -/
theorem FilterGroups.openSelected_lockstep (h : Grouped.Bisim R Rrest) (select : Nat → Bool)
    (n : Nat) {t₁ : τ₁} {t₂ : τ₂} (ht : R t₁ t₂) :
    Lockstep R (openSelected select n t₁) (openSelected select n t₂) := by
  induction n generalizing t₁ t₂ with
  | zero => exact ⟨rfl, ht⟩
  | succ n ih =>
    obtain ⟨i, u₁, u₂, h₁, h₂, hu⟩ := (h.openNext ht).exists_eq
    rw [openSelected, openSelected, h₁, h₂]
    cases i with
    | none => exact ⟨rfl, hu⟩
    | some i =>
      dsimp only
      split
      · exact ⟨rfl, hu⟩
      · exact ih (h.drainGroup hu)

variable (R) in
/-- Two filters of related streams by the same condition. -/
structure FilterGroups.Twin (f₁ : FilterGroups τ₁) (f₂ : FilterGroups τ₂) : Prop where
  inner : R f₁.inner f₂.inner
  select : f₁.select = f₂.select

/-- Filters of streams that answer alike answer alike. -/
theorem FilterGroups.bisim (h : Grouped.Bisim R Rrest) :
    Grouped.Bisim (FilterGroups.Twin R) Rrest where
  openNext {f₁ f₂} hf := by
    obtain ⟨u₁, select⟩ := f₁
    obtain ⟨u₂, select₂⟩ := f₂
    obtain ⟨hu, rfl⟩ := hf
    -- both look as many times: the supplies are equal
    have hsel : Lockstep R (openSelected select (Grouped.supply u₁ + 1) u₁)
        (openSelected select (Grouped.supply u₂ + 1) u₂) := by
      rw [← h.supply hu]
      exact openSelected_lockstep h select _ hu
    exact hsel.wrap (FilterGroups.mk · select) (FilterGroups.mk · select) fun hv ↦ ⟨hv, rfl⟩
  drawInGroup {f₁ f₂} hf :=
    (h.drawInGroup hf.inner).wrap (fun s ↦ { f₁ with inner := s }) (fun s ↦ { f₂ with inner := s })
      fun hu ↦ ⟨hu, hf.select⟩
  undrawInGroup a _ _ hf := ⟨h.undrawInGroup a hf.inner, hf.select⟩
  peekInGroup {f₁ f₂} hf :=
    (h.peekInGroup hf.inner).wrap (fun s ↦ { f₁ with inner := s }) (fun s ↦ { f₂ with inner := s })
      fun hu ↦ ⟨hu, hf.select⟩
  groupOffset hf := h.groupOffset hf.inner
  supply hf := h.supply hf.inner
  intoRest hf := h.intoRest hf.inner

/-- A chain of windows on streams that answer alike: `P` holds of what two continuations make of
the two chains when it holds of what they make of any two streams that answer alike with the same
rest relation. -/
theorem Grouped.withWindows_rel {X₁ X₂ : Type} (P : X₁ → X₂ → Prop)
    {k₁ : {υ : Type} → [Grouped υ α ρ₁] → υ → X₁} {k₂ : {υ : Type} → [Grouped υ α ρ₂] → υ → X₂}
    (hk : ∀ {υ₁ υ₂ : Type} [Grouped υ₁ α ρ₁] [Grouped υ₂ α ρ₂] {R' : υ₁ → υ₂ → Prop},
      Grouped.Bisim R' Rrest → ∀ {u₁ u₂}, R' u₁ u₂ → P (k₁ u₁) (k₂ u₂))
    (ws : List GroupWindow) :
    ∀ {τ₁ τ₂ : Type} [Grouped τ₁ α ρ₁] [Grouped τ₂ α ρ₂] {R : τ₁ → τ₂ → Prop},
      Grouped.Bisim R Rrest → ∀ {t₁ t₂}, R t₁ t₂ →
        P (Grouped.withWindows ws t₁ k₁) (Grouped.withWindows ws t₂ k₂) := by
  induction ws with
  | nil => exact fun h _ _ ht ↦ hk h ht
  | cons w ws ih =>
    intro τ₁ τ₂ _ _ R h t₁ t₂ ht
    -- each window is one more layer of twins
    cases w with
    | take n =>
      exact ih (TakeGroups.bisim h)
        (⟨ht, rfl, rfl⟩ : TakeGroups.Twin R (Grouped.takeGroups n t₁) (Grouped.takeGroups n t₂))
    | drop n =>
      exact ih (DropGroups.bisim h)
        (⟨ht, rfl⟩ : DropGroups.Twin R (Grouped.dropGroups n t₁) (Grouped.dropGroups n t₂))
    | filter select =>
      exact ih (FilterGroups.bisim h)
        (⟨ht, rfl⟩ : FilterGroups.Twin R (Grouped.filterGroups select t₁)
          (Grouped.filterGroups select t₂))

end Windows

section Rejoining

variable {τ₁ τ₂ α ρ₁ ρ₂ : Type} [Grouped τ₁ α ρ₁] [Grouped τ₂ α ρ₂] {R : τ₁ → τ₂ → Prop}
  {Rrest : ρ₁ → ρ₂ → Prop}

variable (R) in
/-- The open groups, with the same index, of related streams. -/
structure Group.Twin (g₁ : Group τ₁) (g₂ : Group τ₂) : Prop where
  stream : R g₁.stream g₂.stream
  index : g₁.index = g₂.index

/-- The open groups of streams that answer alike answer alike as contexts. -/
theorem Group.bisim (h : Grouped.Bisim R Rrest) : Context.Bisim (Group.Twin R) where
  draw {g₁ g₂} hg :=
    (h.drawInGroup hg.stream).wrap (fun s ↦ { g₁ with stream := s })
      (fun s ↦ { g₂ with stream := s }) fun hu ↦ ⟨hu, hg.index⟩
  undraw a _ _ hg := ⟨h.undrawInGroup a hg.stream, hg.index⟩
  peek {g₁ g₂} hg :=
    (h.peekInGroup hg.stream).wrap (fun s ↦ { g₁ with stream := s })
      (fun s ↦ { g₂ with stream := s }) fun hu ↦ ⟨hu, hg.index⟩
  supply hg := h.supply hg.stream

/-- As producers, the open groups of streams that answer alike end into related streams. -/
theorem Group.producerBisim (h : Grouped.Bisim R Rrest) : Producer.Bisim (Group.Twin R) R where
  pull hg := (Group.bisim h).draw hg
  supply hg := h.supply hg.stream
  finish hg := hg.stream

variable (R) in
/-- Concatenations of related streams with a group open or not on both. -/
structure Rejoin.Twin (r₁ : Rejoin τ₁) (r₂ : Rejoin τ₂) : Prop where
  stream : R r₁.stream r₂.stream
  active : r₁.active = r₂.active

/-- Pulling from concatenations of streams that answer alike goes in lockstep. -/
theorem Rejoin.Twin.pullUpTo (h : Grouped.Bisim R Rrest) (n : Nat) {r₁ : Rejoin τ₁}
    {r₂ : Rejoin τ₂} (hr : Twin R r₁ r₂) : Lockstep (Twin R) (Rejoin.pullUpTo n r₁) (Rejoin.pullUpTo n r₂) := by
  induction n generalizing r₁ r₂ with
  | zero => exact ⟨rfl, hr⟩
  | succ n ih =>
    -- at the end of the open group, or with none open, the next group is opened
    have hopen : ∀ {u₁ : τ₁} {u₂ : τ₂}, R u₁ u₂ → Lockstep (Twin R)
        (Rejoin.pullUpTo (n + 1) { stream := u₁ }) (Rejoin.pullUpTo (n + 1) { stream := u₂ }) := by
      intro u₁ u₂ hu
      obtain ⟨i, v₁, v₂, h₁, h₂, hv⟩ := (h.openNext hu).exists_eq
      rw [Rejoin.pullUpTo, Rejoin.pullUpTo]
      simp only [Bool.false_eq_true, if_false]
      rw [h₁, h₂]
      cases i with
      | none => exact ⟨rfl, hv, rfl⟩
      | some i => exact ih ⟨hv, rfl⟩
    rw [Rejoin.pullUpTo, Rejoin.pullUpTo, ← hr.active]
    cases hb : r₁.active
    · exact hopen hr.stream
    · obtain ⟨a, u₁, u₂, h₁, h₂, hu⟩ := (h.drawInGroup hr.stream).exists_eq
      simp only [if_true]
      rw [h₁, h₂]
      cases a with
      | none => exact hopen hu
      | some a => exact ⟨rfl, hu, rfl⟩

/-- Concatenations of streams that answer alike hand out the same elements and end into related
rests. -/
theorem Rejoin.producerBisim (h : Grouped.Bisim R Rrest) : Producer.Bisim (Rejoin.Twin R) Rrest where
  pull {r₁ r₂} hr := by
    show Lockstep _ (Rejoin.pullUpTo (Grouped.supply r₁.stream + 2) r₁)
      (Rejoin.pullUpTo (Grouped.supply r₂.stream + 2) r₂)
    rw [h.supply hr.stream]
    exact hr.pullUpTo h _
  supply hr := h.supply hr.stream
  finish hr := h.intoRest hr.stream

variable (R) in
/-- Intercalations of related streams with the same separator, standing at the same place. -/
structure Intercalate.Twin (p₁ : Intercalate τ₁ α) (p₂ : Intercalate τ₂ α) : Prop where
  stream : R p₁.stream p₂.stream
  separator : p₁.separator = p₂.separator
  phase : p₁.phase = p₂.phase

/-- Pulling from intercalations of streams that answer alike goes in lockstep. -/
theorem Intercalate.Twin.pullUpTo (h : Grouped.Bisim R Rrest) (n : Nat)
    {p₁ : Intercalate τ₁ α} {p₂ : Intercalate τ₂ α} (hp : Twin R p₁ p₂) :
    Lockstep (Twin R) (Intercalate.pullUpTo n p₁) (Intercalate.pullUpTo n p₂) := by
  induction n generalizing p₁ p₂ with
  | zero => exact ⟨rfl, hp⟩
  | succ n ih =>
    obtain ⟨u₁, sep, phase⟩ := p₁
    obtain ⟨u₂, sep₂, phase₂⟩ := p₂
    obtain ⟨hu, rfl, rfl⟩ := hp
    rw [Intercalate.pullUpTo, Intercalate.pullUpTo]
    -- one case per phase of the machine
    cases phase with
    | start =>
      obtain ⟨i, v₁, v₂, h₁, h₂, hv⟩ := (h.openNext hu).exists_eq
      dsimp only
      rw [h₁, h₂]
      exact ih ⟨hv, rfl, rfl⟩
    | group =>
      obtain ⟨a, v₁, v₂, h₁, h₂, hv⟩ := (h.drawInGroup hu).exists_eq
      dsimp only
      rw [h₁, h₂]
      cases a with
      | some a => exact ⟨rfl, hv, rfl, rfl⟩
      | none =>
        obtain ⟨i, w₁, w₂, g₁, g₂, hw⟩ := (h.openNext hv).exists_eq
        dsimp only
        rw [g₁, g₂]
        exact ih ⟨hw, rfl, rfl⟩
    | separator pos =>
      dsimp only
      cases sep[pos]? with
      | some a => exact ⟨rfl, hu, rfl, rfl⟩
      | none => exact ih ⟨hu, rfl, rfl⟩
    | done => exact ⟨rfl, hu, rfl, rfl⟩

/-- Intercalations of streams that answer alike hand out the same elements and end into related
rests. -/
theorem Intercalate.producerBisim (h : Grouped.Bisim R Rrest) :
    Producer.Bisim (Intercalate.Twin R (α := α)) Rrest where
  pull {p₁ p₂} hp := by
    have hn : Intercalate.supply p₁ + 4 = Intercalate.supply p₂ + 4 := by
      rw [Intercalate.supply, Intercalate.supply, h.supply hp.stream, hp.separator]
    show Lockstep _ (Intercalate.pullUpTo (Intercalate.supply p₁ + 4) p₁)
      (Intercalate.pullUpTo (Intercalate.supply p₂ + 4) p₂)
    rw [hn]
    exact hp.pullUpTo h _
  supply {p₁ p₂} hp := by
    show Intercalate.supply p₁ = Intercalate.supply p₂
    rw [Intercalate.supply, Intercalate.supply, h.supply hp.stream, hp.separator]
  finish hp := h.intoRest hp.stream

/-- Folding the open groups of streams that answer alike gives the same value. -/
theorem FoldGroups.foldGroupUpTo_lockstep {β : Type} (h : Grouped.Bisim R Rrest)
    (step : β → α → β) (n : Nat) (acc : β) {t₁ : τ₁} {t₂ : τ₂} (ht : R t₁ t₂) :
    Lockstep R (foldGroupUpTo step n acc t₁) (foldGroupUpTo step n acc t₂) := by
  induction n generalizing acc t₁ t₂ with
  | zero => exact ⟨rfl, ht⟩
  | succ n ih =>
    obtain ⟨a, u₁, u₂, h₁, h₂, hu⟩ := (h.drawInGroup ht).exists_eq
    rw [foldGroupUpTo, foldGroupUpTo, h₁, h₂]
    cases a with
    | none => exact ⟨rfl, hu⟩
    | some a => exact ih _ hu

variable (R) in
/-- Folds of related streams with the same start and step. -/
structure FoldGroups.Twin {β : Type} (f₁ : FoldGroups τ₁ β α) (f₂ : FoldGroups τ₂ β α) : Prop where
  stream : R f₁.stream f₂.stream
  init : f₁.init = f₂.init
  step : f₁.step = f₂.step

/-- The folds of the groups of streams that answer alike are the same, and end into related
rests. -/
theorem FoldGroups.producerBisim {β : Type} (h : Grouped.Bisim R Rrest) :
    Producer.Bisim (FoldGroups.Twin R (β := β) (α := α)) Rrest where
  pull {f₁ f₂} hf := by
    obtain ⟨u₁, init, step⟩ := f₁
    obtain ⟨u₂, init₂, step₂⟩ := f₂
    obtain ⟨hu, rfl, rfl⟩ := hf
    obtain ⟨i, v₁, v₂, h₁, h₂, hv⟩ := (h.openNext hu).exists_eq
    show Lockstep _ (FoldGroups.pull _) (FoldGroups.pull _)
    rw [FoldGroups.pull, FoldGroups.pull]
    dsimp only
    rw [h₁, h₂]
    cases i with
    | none => exact ⟨rfl, hv, rfl, rfl⟩
    | some i =>
      obtain ⟨acc, w₁, w₂, g₁, g₂, hw⟩ :=
        (foldGroupUpTo_lockstep h step (Grouped.supply v₁ + 1) init hv).exists_eq
      dsimp only
      rw [← h.supply hv, g₁, g₂]
      exact ⟨rfl, hw, rfl, rfl⟩
  supply hf := h.supply hf.stream
  finish hf := h.intoRest hf.stream

end Rejoining

section Cursors

variable {π₁ π₂ α ρ₁ ρ₂ : Type} [Producer π₁ α ρ₁] [Producer π₂ α ρ₂] {R : π₁ → π₂ → Prop}
  {Rres : ρ₁ → ρ₂ → Prop}

variable (R) in
/-- Cursors over related producers with the same stack and counters. -/
structure Cursor.Twin (c₁ : Cursor π₁ α) (c₂ : Cursor π₂ α) : Prop where
  producer : R c₁.producer c₂.producer
  stack : c₁.stack = c₂.stack
  pulled : c₁.pulled = c₂.pulled
  exhausted : c₁.exhausted = c₂.exhausted

theorem Cursor.twin_ofProducer {p₁ : π₁} {p₂ : π₂} (hp : R p₁ p₂) :
    Cursor.Twin R (Cursor.ofProducer p₁ : Cursor π₁ α) (Cursor.ofProducer p₂) :=
  ⟨hp, rfl, rfl, rfl⟩

variable {c₁ : Cursor π₁ α} {c₂ : Cursor π₂ α}

theorem Cursor.Twin.offset (hc : Cursor.Twin R c₁ c₂) : c₁.offset = c₂.offset := by
  rw [Cursor.offset, Cursor.offset, hc.pulled, hc.stack]

theorem Cursor.Twin.pending (hc : Cursor.Twin R c₁ c₂) : c₁.pending = c₂.pending := by
  rw [Cursor.pending, Cursor.pending, hc.stack]

theorem Cursor.Twin.undraw (a : α) (hc : Cursor.Twin R c₁ c₂) :
    Cursor.Twin R (c₁.undraw a) (c₂.undraw a) :=
  ⟨hc.producer, congrArg (List.cons a) hc.stack, hc.pulled, hc.exhausted⟩

theorem Cursor.Twin.draw (h : Producer.Bisim R Rres) (hc : Cursor.Twin R c₁ c₂) :
    Lockstep (Cursor.Twin R) c₁.draw c₂.draw := by
  obtain ⟨p₁, stack, pulled, exhausted⟩ := c₁
  obtain ⟨p₂, stack₂, pulled₂, exhausted₂⟩ := c₂
  obtain ⟨hp, rfl, rfl, rfl⟩ := hc
  rw [Cursor.draw, Cursor.draw]
  -- the stack first, then the producer unless it has ended
  cases stack with
  | cons a rest => exact ⟨rfl, hp, rfl, rfl, rfl⟩
  | nil =>
    cases exhausted with
    | true => exact ⟨rfl, hp, rfl, rfl, rfl⟩
    | false =>
      obtain ⟨a, q₁, q₂, h₁, h₂, hq⟩ := (h.pull hp).exists_eq
      dsimp only
      rw [h₁, h₂]
      cases a with
      | none => exact ⟨rfl, hq, rfl, rfl, rfl⟩
      | some a => exact ⟨rfl, hq, rfl, rfl, rfl⟩

theorem Cursor.Twin.peek (h : Producer.Bisim R Rres) (hc : Cursor.Twin R c₁ c₂) :
    Lockstep (Cursor.Twin R) c₁.peek c₂.peek := by
  obtain ⟨a, d₁, d₂, h₁, h₂, hd⟩ := (hc.draw h).exists_eq
  obtain ⟨p₁, stack, pulled, exhausted⟩ := c₁
  obtain ⟨p₂, stack₂, pulled₂, exhausted₂⟩ := c₂
  obtain ⟨hp, rfl, rfl, rfl⟩ := hc
  rw [Cursor.peek, Cursor.peek]
  cases stack with
  | cons b rest => exact ⟨rfl, hp, rfl, rfl, rfl⟩
  | nil =>
    dsimp only
    rw [h₁, h₂]
    cases a with
    | none => exact ⟨rfl, hd⟩
    | some a => exact ⟨rfl, hd.undraw a⟩

/-- Cursors over producers that answer alike answer alike. -/
theorem Cursor.bisim (h : Producer.Bisim R Rres) : Context.Bisim (Cursor.Twin R (α := α)) where
  draw hc := hc.draw h
  undraw a _ _ hc := hc.undraw a
  peek hc := hc.peek h
  supply {c₁ c₂} hc := by
    show Cursor.supply c₁ = Cursor.supply c₂
    rw [Cursor.supply, Cursor.supply, hc.stack, hc.exhausted, h.supply hc.producer]

/-- As producers, cursors over producers that answer alike end into related results. -/
theorem Cursor.producerBisim (h : Producer.Bisim R Rres) :
    Producer.Bisim (Cursor.Twin R (α := α)) Rres where
  pull hc := hc.draw h
  supply hc := (Cursor.bisim h).supply hc
  finish hc := h.finish hc.producer

end Cursors

/-- Regrouping streams that answer alike with functions that go in lockstep on twin cursors gives
the same output and related contexts back. -/
theorem Grouped.Bisim.rejoinWith {σ₁ σ₂ τ₁ τ₂ α δ : Type} [Context σ₁ α] [Context σ₂ α]
    [Grouped τ₁ α σ₁] [Grouped τ₂ α σ₂] {R : τ₁ → τ₂ → Prop} {Rrest : σ₁ → σ₂ → Prop}
    (h : Grouped.Bisim R Rrest) (hrest : Context.Bisim Rrest)
    {f₁ : Cursor (Rejoin τ₁) α → δ × Cursor (Rejoin τ₁) α}
    {f₂ : Cursor (Rejoin τ₂) α → δ × Cursor (Rejoin τ₂) α}
    (hf : ∀ {c₁ c₂}, Cursor.Twin (Rejoin.Twin R) c₁ c₂ →
      Lockstep (Cursor.Twin (Rejoin.Twin R)) (f₁ c₁) (f₂ c₂))
    {t₁ : τ₁} {t₂ : τ₂} (ht : R t₁ t₂) :
    Lockstep Rrest (Grouped.rejoinWith f₁ t₁) (Grouped.rejoinWith f₂ t₂) := by
  obtain ⟨out, c₁, c₂, h₁, h₂, hc⟩ :=
    (hf (Cursor.twin_ofProducer (α := α) (⟨ht, rfl⟩ : Rejoin.Twin R (Grouped.concat t₁)
      (Grouped.concat t₂)))).exists_eq
  unfold Grouped.rejoinWith
  rw [h₁, h₂]
  refine ⟨rfl, ?_⟩
  dsimp only
  -- the pushed-back elements go back onto related rests
  rw [hc.pending]
  exact hrest.foldl_undraw _ ((Rejoin.producerBisim h).finish hc.producer)

end Spool
