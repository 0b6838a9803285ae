import Spool.Proofs.Groups
import Spool.Proofs.Windows

/-!
# Group streams conserve their stream

A group stream is built layer on layer over one context: the base `Groups` reads it through a
view; windows (`TakeGroups`, `DropGroups`, `FilterGroups`) and borrows wrap group streams; the open
group's handle is a context again, on which views and further groupings can be built. Whatever
layer an operation is made on, its effect on the list `root` that the bottom context reads as is
that of plain stack operations on that list.

`Context.Tracks root Inv` says so of a context: a draw takes off `root` exactly the element it
returns, a push back puts its element in front, and a peek changes nothing. `Grouped.Tracks` says
the same of a group stream's element operations, adds that opening a group only takes elements off
the front of `root` (the groups a window passes over, drained), and that the rest the stream ends
with reads as `root`. A context that reads as a list tracks it (`Context.Lifo.tracks`); views
(`View.tracks`), groupings (`Groups.tracks`), group handles (`Group.tracks`), and windows and
borrows (`Grouped.Tracks.wrap`, with `TakeGroups.tracks`, `DropGroups.tracks`,
`FilterGroups.tracks`, `Borrow.tracks`) pass tracking on. Draining a group takes off `root` exactly
what reading it returns (`Grouped.Tracks.drainGroup_root`). The base stream and the windows that
pass over nothing open in place (`Groups.opensInPlace`, `TakeGroups.opensInPlace`,
`Borrow.opensInPlace`).

The groups do not depend on how the stream got where it is: every operation keeps the base stream
sound (`Groups.keeps`), so from any state it reaches (`Grouped.Reaches`), reading every group reads
the groups the rule cuts the parent into as it stands, a group left part-read included
(`Groups.readGroups_eq_partition`). `Groups.stream_conservation` gathers these facts.
-/

set_option autoImplicit false

namespace Spool

namespace Context

variable {σ α : Type} [Context σ α]

/-- On the states satisfying `Inv`, every operation acts on the list `root` as the stack operation
it is: a draw takes off the element it returns, a push back puts its element in front, and a peek
leaves the list as it was. Every operation keeps `Inv`. -/
structure Tracks (root : σ → List α) (Inv : σ → Prop) : Prop where
  draw_root : ∀ s, Inv s → root s = (draw s).1.toList ++ root (draw s).2
  undraw_root : ∀ a s, Inv s → root (undraw a s) = a :: root s
  peek_root : ∀ s, Inv s → root (peek s).2 = root s
  draw_inv : ∀ s, Inv s → Inv (draw s).2
  undraw_inv : ∀ a s, Inv s → Inv (undraw a s)
  peek_inv : ∀ s, Inv s → Inv (peek s).2

/-- A context that reads as a list tracks that list. -/
theorem Lifo.tracks {toList : σ → List α} {Inv : σ → Prop} (h : Lifo toList Inv) :
    Tracks toList Inv where
  draw_root s hs := by
    rw [h.draw_snd s hs, h.draw_fst s hs]
    cases toList s <;> rfl
  undraw_root := h.undraw_toList
  peek_root := h.peek_snd
  draw_inv := h.draw_inv
  undraw_inv := h.undraw_inv
  peek_inv := h.peek_inv

end Context

namespace View

variable {γ β α : Type} [Context γ α] [Boundary β α] {root : γ → List α} {I : γ → Prop}

/-- A draw through a view is a draw from the parent, possibly followed by a push back of the
element the bound refuses: the parent loses exactly the element returned. -/
theorem draw_root (h : Context.Tracks root I) {v : View γ β} (hv : I v.parent) :
    root v.parent = v.draw.1.toList ++ root v.draw.2.parent ∧ I v.draw.2.parent := by
  have hd₁ := h.draw_root _ hv
  have hd₂ := h.draw_inv _ hv
  rcases draw_cases v with ⟨-, hd⟩ | ⟨-, -, hd⟩ | ⟨-, -, -, hd⟩ | ⟨-, -, -, hn, hd⟩ |
    ⟨a, p, b, -, -, -, hp, -, hd⟩ | ⟨a, p, b, -, -, -, hp, -, hd⟩ <;> rw [hd]
  · exact ⟨hd₁, hd₂⟩
  · exact ⟨rfl, hv⟩
  · exact ⟨rfl, hv⟩
  · rw [hn] at hd₁
    exact ⟨hd₁, hd₂⟩
  · rw [hp] at hd₁ hd₂
    exact ⟨hd₁, hd₂⟩
  · -- refused: the element drawn from the parent goes back onto it
    rw [hp] at hd₁ hd₂
    exact ⟨by simp [h.undraw_root a p hd₂, hd₁], h.undraw_inv a p hd₂⟩

/-- A peek through a view leaves the parent's list as it was. -/
theorem peek_root (h : Context.Tracks root I) {v : View γ β} (hv : I v.parent) :
    root v.peek.2.parent = root v.parent ∧ I v.peek.2.parent := by
  unfold peek
  split
  · obtain ⟨hd₁, hd₂⟩ := draw_root h hv
    rcases hd : v.draw with ⟨_ | a, w⟩ <;> rw [hd] at hd₁ hd₂
    · exact ⟨hd₁.symm, hd₂⟩
    · -- a hidden draw and push back, then a peek of the parent
      have hu := h.undraw_root a w.parent hd₂
      have hi := h.undraw_inv a w.parent hd₂
      exact ⟨(h.peek_root _ hi).trans (hu.trans hd₁.symm), h.peek_inv _ hi⟩
  · exact ⟨h.peek_root _ hv, h.peek_inv _ hv⟩

/-- A view passes every operation on to its parent as the same stack operation. -/
theorem tracks (h : Context.Tracks root I) :
    Context.Tracks (σ := View γ β) (fun v ↦ root v.parent) (fun v ↦ I v.parent) where
  draw_root _ hv := (draw_root h hv).1
  undraw_root a v hv := h.undraw_root a v.parent hv
  peek_root _ hv := (peek_root h hv).1
  draw_inv _ hv := (draw_root h hv).2
  undraw_inv a v hv := h.undraw_inv a v.parent hv
  peek_inv _ hv := (peek_root h hv).2

end View

namespace Grouped

variable {τ α ρ : Type} [Grouped τ α ρ]

/-- `Inv` is kept by every operation of the stream. -/
structure Keeps (Inv : τ → Prop) : Prop where
  openNext_inv : ∀ s, Inv s → Inv (openNext s).2
  drawInGroup_inv : ∀ s, Inv s → Inv (drawInGroup s).2
  undrawInGroup_inv : ∀ a s, Inv s → Inv (undrawInGroup a s)
  peekInGroup_inv : ∀ s, Inv s → Inv (peekInGroup s).2

/-- The states a stream reaches from `s` by its own operations, in any order, whatever layer
built on it makes them. -/
inductive Reaches (s : τ) : τ → Prop
  | refl : Reaches s s
  | openNext {t : τ} : Reaches s t → Reaches s (openNext t).2
  | drawInGroup {t : τ} : Reaches s t → Reaches s (drawInGroup t).2
  | undrawInGroup {t : τ} (a : α) : Reaches s t → Reaches s (undrawInGroup a t)
  | peekInGroup {t : τ} : Reaches s t → Reaches s (peekInGroup t).2

/-- What every operation keeps holds of every state reached. -/
theorem Keeps.reaches {Inv : τ → Prop} (h : Keeps Inv) {s t : τ} (hs : Inv s)
    (hst : Reaches s t) : Inv t := by
  induction hst with
  | refl => exact hs
  | openNext _ ih => exact h.openNext_inv _ ih
  | drawInGroup _ ih => exact h.drawInGroup_inv _ ih
  | undrawInGroup a _ ih => exact h.undrawInGroup_inv a _ ih
  | peekInGroup _ ih => exact h.peekInGroup_inv _ ih

/-- On the states satisfying `Inv`, which every operation keeps, the group stream's operations act
on the list `root` as stack operations: a draw from the open group takes off the element it
returns, a push back puts its element in front, a peek changes nothing, and opening a group only
takes elements off the front. The rest the stream ends with reads, by `rootRest`, as `root`. -/
structure Tracks (root : τ → List α) (rootRest : ρ → List α) (Inv : τ → Prop) : Prop
    extends Keeps Inv where
  openNext_root : ∀ s, Inv s → root (openNext s).2 <:+ root s
  drawInGroup_root : ∀ s, Inv s → root s = (drawInGroup s).1.toList ++ root (drawInGroup s).2
  undrawInGroup_root : ∀ a s, Inv s → root (undrawInGroup a s) = a :: root s
  peekInGroup_root : ∀ s, Inv s → root (peekInGroup s).2 = root s
  intoRest_root : ∀ s, Inv s → rootRest (intoRest s) = root s

/-- Opening a group takes nothing off `root`. -/
def OpensInPlace (root : τ → List α) (Inv : τ → Prop) : Prop :=
  ∀ s, Inv s → root (openNext s).2 = root s

namespace Tracks

variable {root : τ → List α} {rootRest : ρ → List α} {Inv : τ → Prop}

/-- Reading at most `n` elements of the open group takes exactly them off `root`. -/
theorem readGroupUpTo_root (h : Tracks root rootRest Inv) (n : Nat) {s : τ} (hs : Inv s) :
    root s = (readGroupUpTo n s).1 ++ root (readGroupUpTo n s).2 ∧
      Inv (readGroupUpTo n s).2 := by
  induction n generalizing s with
  | zero => exact ⟨rfl, hs⟩
  | succ n ih =>
    have hd₁ := h.drawInGroup_root s hs
    have hd₂ := h.drawInGroup_inv s hs
    unfold readGroupUpTo
    rcases hd : drawInGroup s with ⟨_ | a, s'⟩ <;> rw [hd] at hd₁ hd₂
    · exact ⟨hd₁, hd₂⟩
    · obtain ⟨ih₁, ih₂⟩ := ih hd₂
      exact ⟨by rw [hd₁, ih₁]; rfl, ih₂⟩

/-- Draining a group takes off `root` exactly what reading it would return. -/
theorem drainGroup_root (h : Tracks root rootRest Inv) {s : τ} (hs : Inv s) :
    root s = (readGroup s).1 ++ root (drainGroup s) ∧ Inv (drainGroup s) := by
  rw [drainGroup_eq]
  exact h.readGroupUpTo_root _ hs

/-- Draining a group only takes elements off the front of `root`. -/
theorem drainGroup_suffix (h : Tracks root rootRest Inv) {s : τ} (hs : Inv s) :
    root (drainGroup s) <:+ root s :=
  ⟨_, (h.drainGroup_root hs).1.symm⟩

end Tracks

section Wrapping

variable {υ ρ' : Type} [Grouped υ α ρ']

/-- A stream `υ` built on a stream `τ`, which `inner` gives: a draw or a peek is that of the stream
underneath, or else answers nothing and leaves it alone, and a push back is passed on to it. -/
structure Wraps (inner : υ → τ) : Prop where
  draw_eq : ∀ u, (drawInGroup u).1 = (drawInGroup (inner u)).1 ∧
      inner (drawInGroup u).2 = (drawInGroup (inner u)).2 ∨
    (drawInGroup u).1 = none ∧ inner (drawInGroup u).2 = inner u
  undraw_eq : ∀ a u, inner (undrawInGroup a u) = undrawInGroup a (inner u)
  peek_eq : ∀ u, (peekInGroup u).1 = (peekInGroup (inner u)).1 ∧
      inner (peekInGroup u).2 = (peekInGroup (inner u)).2 ∨
    (peekInGroup u).1 = none ∧ inner (peekInGroup u).2 = inner u

variable {root : τ → List α} {rootRest : ρ → List α} {Inv : τ → Prop}

/-- A stream built on a tracked stream tracks the same list, as long as its openings only take
elements off the front and its rest reads as that list. -/
theorem Tracks.wrap (h : Tracks root rootRest Inv) {inner : υ → τ} (hw : Wraps inner)
    {rootRest' : ρ' → List α}
    (hopen : ∀ u, Inv (inner u) →
      root (inner (openNext u).2) <:+ root (inner u) ∧ Inv (inner (openNext u).2))
    (hrest : ∀ u, Inv (inner u) → rootRest' (intoRest u) = root (inner u)) :
    Tracks (fun u ↦ root (inner u)) rootRest' (fun u ↦ Inv (inner u)) where
  openNext_root u hu := (hopen u hu).1
  openNext_inv u hu := (hopen u hu).2
  drawInGroup_root u hu := by
    rcases hw.draw_eq u with ⟨hd₁, hd₂⟩ | ⟨hd₁, hd₂⟩
    · rw [hd₁, hd₂]
      exact h.drawInGroup_root _ hu
    · rw [hd₁, hd₂]
      rfl
  drawInGroup_inv u hu := by
    rcases hw.draw_eq u with ⟨-, hd₂⟩ | ⟨-, hd₂⟩
    · rw [hd₂]
      exact h.drawInGroup_inv _ hu
    · rwa [hd₂]
  undrawInGroup_root a u hu := by
    rw [hw.undraw_eq]
    exact h.undrawInGroup_root a _ hu
  undrawInGroup_inv a u hu := by
    rw [hw.undraw_eq]
    exact h.undrawInGroup_inv a _ hu
  peekInGroup_root u hu := by
    rcases hw.peek_eq u with ⟨-, hp₂⟩ | ⟨-, hp₂⟩
    · rw [hp₂]
      exact h.peekInGroup_root _ hu
    · rw [hp₂]
  peekInGroup_inv u hu := by
    rcases hw.peek_eq u with ⟨-, hp₂⟩ | ⟨-, hp₂⟩
    · rw [hp₂]
      exact h.peekInGroup_inv _ hu
    · rwa [hp₂]
  intoRest_root := hrest

end Wrapping

end Grouped

namespace Groups

variable {γ β α : Type} [Context γ α] [GroupingRule β α] {root : γ → List α} {I : γ → Prop}

/-- Opening a group restarts the view, resets its rule and peeks: the parent's list is left as it
was. -/
theorem openNext_root (h : Context.Tracks root I) {g : Groups γ β} (hg : I g.view.parent) :
    root (openNext g).2.view.parent = root g.view.parent ∧ I (openNext g).2.view.parent := by
  have hp := View.peek_root (v := reopened (α := α) g) h hg
  rw [openNext_eq]
  split <;> exact hp

/-- A grouping passes every element operation on to its view, and through it to the parent. -/
theorem tracks (h : Context.Tracks root I) :
    Grouped.Tracks (τ := Groups γ β) (fun g ↦ root g.view.parent) root
      (fun g ↦ I g.view.parent) where
  openNext_root _ hg := ⟨[], (openNext_root h hg).1⟩
  drawInGroup_root g hg := by
    cases ha : g.active with
    | false => rw [drawInGroup_of_inactive ha]; rfl
    | true => rw [drawInGroup_of_active ha]; exact (View.draw_root h hg).1
  undrawInGroup_root a g hg := h.undraw_root a g.view.parent hg
  peekInGroup_root g hg := by
    show root (peekInGroup g).2.view.parent = _
    unfold peekInGroup
    cases g.active
    · rfl
    · exact (View.peek_root h hg).1
  intoRest_root _ _ := rfl
  openNext_inv _ hg := (openNext_root h hg).2
  drawInGroup_inv g hg := by
    cases ha : g.active with
    | false => rw [drawInGroup_of_inactive ha]; exact hg
    | true => rw [drawInGroup_of_active ha]; exact (View.draw_root h hg).2
  undrawInGroup_inv a g hg := h.undraw_inv a g.view.parent hg
  peekInGroup_inv g hg := by
    show I (peekInGroup g).2.view.parent
    unfold peekInGroup
    cases g.active
    · exact hg
    · exact (View.peek_root h hg).2

/-- The base stream opens its groups in place. -/
theorem opensInPlace (h : Context.Tracks root I) :
    Grouped.OpensInPlace (τ := Groups γ β) (fun g ↦ root g.view.parent)
      (fun g ↦ I g.view.parent) :=
  fun _ hg ↦ (openNext_root h hg).1

section Sound

open GroupingRule

variable {toList : γ → List α}

/-- Every operation of the base stream keeps it sound. -/
theorem keeps (h : Context.Lifo toList I) {r₀ : β} (hr : Restarts α r₀) :
    Grouped.Keeps (τ := Groups γ β) (Sound toList I r₀) where
  openNext_inv _ hg := (openNext_spec h hr hg).2.1
  drawInGroup_inv _ hg := (drawInGroup_spec h hr hg).2.2
  undrawInGroup_inv a g hg := ⟨(View.undraw_spec h a hg.1).2.1, hg.2⟩
  peekInGroup_inv g hg := by
    show Sound toList I r₀ (peekInGroup g).2
    unfold peekInGroup
    cases g.active
    · exact hg
    · -- the peek's offers keep the rule's reset, as in `openNext_spec`
      exact ⟨(View.peek_spec h hg.1).2.2.1,
        View.bound_peek (Q := fun b ↦ reset (α := α) b = r₀)
          (fun b a hb ↦ hr.reset_offer b a hb) hg.2⟩

/-- Reading every group from any sound state reads the groups the rule cuts the parent into as
it stands then: an open group, read in part or not at all, is cut again from its first unread
element. Afterwards every one of them is opened and the parent is empty. -/
theorem readGroups_eq_partition (h : Context.Lifo toList I) {r₀ : β} (hr : Restarts α r₀)
    {g : Groups γ β} (hg : Sound toList I r₀ g) :
    (Grouped.readGroups g).1 = Boundary.partition r₀ (toList g.view.parent) ∧
      (Grouped.readGroups g).2.opened =
        g.opened + (Boundary.partition r₀ (toList g.view.parent)).length ∧
      toList (Grouped.readGroups g).2.view.parent = [] := by
  -- opening a group does not look at whether one is open, so neither does reading them all
  have hsame : Grouped.readGroups g = Grouped.readGroups { g with active := false } := rfl
  obtain ⟨hr₁, hr₂, hr₃⟩ := (reads h hr).readGroups_spec (s := { g with active := false }) hg rfl
  rw [hsame, hr₁]
  exact ⟨Boundary.map_groupsFrom _ _ _, seen_of_ended h hr hr₃ hr₂⟩

end Sound

end Groups

namespace Group

variable {τ α ρ : Type} [Grouped τ α ρ] {root : τ → List α} {rootRest : ρ → List α}
  {I : τ → Prop}

/-- The open group's handle is a context whose operations are the stream's. -/
theorem tracks (h : Grouped.Tracks root rootRest I) :
    Context.Tracks (σ := Group τ) (fun g ↦ root g.stream) (fun g ↦ I g.stream) where
  draw_root g hg := h.drawInGroup_root g.stream hg
  undraw_root a g hg := h.undrawInGroup_root a g.stream hg
  peek_root g hg := h.peekInGroup_root g.stream hg
  draw_inv g hg := h.drawInGroup_inv g.stream hg
  undraw_inv a g hg := h.undrawInGroup_inv a g.stream hg
  peek_inv g hg := h.peekInGroup_inv g.stream hg

end Group

namespace TakeGroups

variable {τ α ρ : Type} [Grouped τ α ρ] {root : τ → List α} {rootRest : ρ → List α}
  {Inv : τ → Prop}

/-- Once `remaining` is spent, opening asks nothing of the stream underneath. -/
theorem inner_openNext (t : TakeGroups τ) :
    (Grouped.openNext t).2.inner =
      if t.remaining = 0 then t.inner else (Grouped.openNext t.inner).2 := by
  show (openNext t).2.inner = _
  unfold openNext
  split
  · rfl
  · rcases Grouped.openNext t.inner with ⟨_ | i, s⟩ <;> rfl

/-- With no delivered group open, draws and peeks answer nothing; push backs always go through. -/
theorem wraps : Grouped.Wraps (fun t : TakeGroups τ ↦ t.inner) where
  draw_eq t := by
    rw [drawInGroup_eq]
    cases t.active
    · exact Or.inr ⟨rfl, rfl⟩
    · exact Or.inl ⟨rfl, rfl⟩
  undraw_eq _ _ := rfl
  peek_eq t := by
    rw [peekInGroup_eq]
    cases t.active
    · exact Or.inr ⟨rfl, rfl⟩
    · exact Or.inl ⟨rfl, rfl⟩

theorem tracks (h : Grouped.Tracks root rootRest Inv) :
    Grouped.Tracks (fun t : TakeGroups τ ↦ root t.inner) rootRest (fun t ↦ Inv t.inner) := by
  refine h.wrap wraps (fun t ht ↦ ?_) fun _ ht ↦ h.intoRest_root _ ht
  rw [inner_openNext]
  split
  · exact ⟨List.suffix_refl _, ht⟩
  · exact ⟨h.openNext_root _ ht, h.openNext_inv _ ht⟩

/-- Taking groups passes over none: over a stream that opens in place, so does the window. -/
theorem opensInPlace (h : Grouped.OpensInPlace root Inv) :
    Grouped.OpensInPlace (fun t : TakeGroups τ ↦ root t.inner) (fun t ↦ Inv t.inner) := by
  intro t ht
  show root (Grouped.openNext t).2.inner = root t.inner
  rw [inner_openNext]
  split
  · rfl
  · exact h _ ht

end TakeGroups

namespace DropGroups

variable {τ α ρ : Type} [Grouped τ α ρ] {root : τ → List α} {rootRest : ρ → List α}
  {Inv : τ → Prop}

/-- Passing over groups drains them: only elements off the front of `root` go. -/
theorem skipThenOpen_root (h : Grouped.Tracks root rootRest Inv) (n : Nat) {s : τ} (hs : Inv s) :
    root (skipThenOpen n s).2.2 <:+ root s ∧ Inv (skipThenOpen n s).2.2 := by
  induction n generalizing s with
  | zero => exact ⟨h.openNext_root s hs, h.openNext_inv s hs⟩
  | succ n ih =>
    have ho₁ := h.openNext_root s hs
    have ho₂ := h.openNext_inv s hs
    rcases ho : Grouped.openNext s with ⟨_ | i, s'⟩ <;> rw [ho] at ho₁ ho₂
    · rw [skipThenOpen_succ_none ho]
      exact ⟨ho₁, ho₂⟩
    · rw [skipThenOpen_succ_some ho]
      obtain ⟨ih₁, ih₂⟩ := ih (h.drainGroup_root ho₂).2
      exact ⟨ih₁.trans ((h.drainGroup_suffix ho₂).trans ho₁), ih₂⟩

theorem wraps : Grouped.Wraps (fun d : DropGroups τ ↦ d.inner) where
  draw_eq _ := Or.inl ⟨rfl, rfl⟩
  undraw_eq _ _ := rfl
  peek_eq _ := Or.inl ⟨rfl, rfl⟩

theorem tracks (h : Grouped.Tracks root rootRest Inv) :
    Grouped.Tracks (fun d : DropGroups τ ↦ root d.inner) rootRest (fun d ↦ Inv d.inner) :=
  h.wrap wraps (fun d hd ↦ skipThenOpen_root h d.skip hd) fun _ hd ↦ h.intoRest_root _ hd

end DropGroups

namespace FilterGroups

variable {τ α ρ : Type} [Grouped τ α ρ] {root : τ → List α} {rootRest : ρ → List α}
  {Inv : τ → Prop}

/-- The groups not selected are drained: only elements off the front of `root` go. -/
theorem openSelected_root (h : Grouped.Tracks root rootRest Inv) (select : Nat → Bool) (n : Nat)
    {s : τ} (hs : Inv s) :
    root (openSelected select n s).2 <:+ root s ∧ Inv (openSelected select n s).2 := by
  induction n generalizing s with
  | zero => exact ⟨List.suffix_refl _, hs⟩
  | succ n ih =>
    have ho₁ := h.openNext_root s hs
    have ho₂ := h.openNext_inv s hs
    rcases ho : Grouped.openNext s with ⟨_ | i, s'⟩ <;> rw [ho] at ho₁ ho₂
    · rw [openSelected_succ_none select ho]
      exact ⟨ho₁, ho₂⟩
    · rw [openSelected_succ_some select ho]
      split
      · exact ⟨ho₁, ho₂⟩
      · obtain ⟨ih₁, ih₂⟩ := ih (h.drainGroup_root ho₂).2
        exact ⟨ih₁.trans ((h.drainGroup_suffix ho₂).trans ho₁), ih₂⟩

theorem wraps : Grouped.Wraps (fun f : FilterGroups τ ↦ f.inner) where
  draw_eq _ := Or.inl ⟨rfl, rfl⟩
  undraw_eq _ _ := rfl
  peek_eq _ := Or.inl ⟨rfl, rfl⟩

theorem tracks (h : Grouped.Tracks root rootRest Inv) :
    Grouped.Tracks (fun f : FilterGroups τ ↦ root f.inner) rootRest (fun f ↦ Inv f.inner) :=
  h.wrap wraps (fun f hf ↦ openSelected_root h f.select _ hf) fun _ hf ↦ h.intoRest_root _ hf

end FilterGroups

namespace Borrow

variable {τ α ρ : Type} [Grouped τ α ρ] {root : τ → List α} {rootRest : ρ → List α}
  {Inv : τ → Prop}

theorem wraps : Grouped.Wraps (fun b : Borrow τ ↦ b.stream) where
  draw_eq _ := Or.inl ⟨rfl, rfl⟩
  undraw_eq _ _ := rfl
  peek_eq _ := Or.inl ⟨rfl, rfl⟩

/-- A borrow tracks what the borrowed stream tracks, and its rest is that stream, which goes on
from where the borrow left it. -/
theorem tracks (h : Grouped.Tracks root rootRest Inv) :
    Grouped.Tracks (fun b : Borrow τ ↦ root b.stream) root (fun b ↦ Inv b.stream) :=
  h.wrap wraps (fun _ hb ↦ ⟨h.openNext_root _ hb, h.openNext_inv _ hb⟩) fun _ _ ↦ rfl

theorem opensInPlace (h : Grouped.OpensInPlace root Inv) :
    Grouped.OpensInPlace (fun b : Borrow τ ↦ root b.stream) (fun b ↦ Inv b.stream) :=
  fun _ hb ↦ h _ hb

end Borrow

namespace Groups

open GroupingRule

variable {γ β α : Type} [Context γ α] [GroupingRule β α] {toList : γ → List α} {I : γ → Prop}

/-- Group streams conserve the context they are built on. The groups of a context that reads as
a list track, through every operation, the list their rest reads as, and open their groups in
place; windows, borrows and the open group's handle built on a tracked stream, and views and
groupings built on a tracked context, track the same list, takes and borrows opening in place
over what opens in place. And reading every group from any state the groups reach reads the
groups the rule cuts the parent into as it stands then. -/
theorem stream_conservation (h : Context.Lifo toList I) {rule : β}
    (hr : Restarts α (reset (α := α) rule)) {s : γ} (hs : I s) :
    (∃ Inv : Groups γ β → Prop, Inv (ofRule s rule) ∧
      Grouped.Tracks (fun g ↦ toList (Grouped.intoRest g)) toList Inv ∧
      Grouped.OpensInPlace (fun g ↦ toList (Grouped.intoRest g)) Inv) ∧
    (∀ {τ ρ : Type} [Grouped τ α ρ] {root : τ → List α} {rootRest : ρ → List α}
      {Inv : τ → Prop}, Grouped.Tracks root rootRest Inv →
        Grouped.Tracks (fun t : TakeGroups τ ↦ root t.inner) rootRest (fun t ↦ Inv t.inner) ∧
        Grouped.Tracks (fun d : DropGroups τ ↦ root d.inner) rootRest (fun d ↦ Inv d.inner) ∧
        Grouped.Tracks (fun f : FilterGroups τ ↦ root f.inner) rootRest (fun f ↦ Inv f.inner) ∧
        Grouped.Tracks (fun b : Borrow τ ↦ root b.stream) root (fun b ↦ Inv b.stream) ∧
        Context.Tracks (fun g : Group τ ↦ root g.stream) (fun g ↦ Inv g.stream) ∧
        (Grouped.OpensInPlace root Inv →
          Grouped.OpensInPlace (fun t : TakeGroups τ ↦ root t.inner) (fun t ↦ Inv t.inner) ∧
          Grouped.OpensInPlace (fun b : Borrow τ ↦ root b.stream) (fun b ↦ Inv b.stream))) ∧
    (∀ {σ : Type} [Context σ α] {root : σ → List α} {J : σ → Prop}, Context.Tracks root J →
      (∀ {β' : Type} [Boundary β' α],
        Context.Tracks (σ := View σ β') (fun v ↦ root v.parent) (fun v ↦ J v.parent)) ∧
      (∀ {β' : Type} [GroupingRule β' α],
        Grouped.Tracks (τ := Groups σ β') (fun g ↦ root g.view.parent) root
          (fun g ↦ J g.view.parent))) ∧
    (∀ g, Grouped.Reaches (ofRule s rule) g →
      (Grouped.readGroups g).1 = Boundary.partition (reset (α := α) rule) (toList g.view.parent) ∧
      (Grouped.readGroups g).2.opened =
        g.opened + (Boundary.partition (reset (α := α) rule) (toList g.view.parent)).length ∧
      toList (Grouped.readGroups g).2.view.parent = []) := by
  refine ⟨⟨fun g ↦ I g.view.parent, hs, tracks h.tracks, opensInPlace h.tracks⟩, ?_, ?_, ?_⟩
  · intro τ ρ _ root rootRest Inv ht
    exact ⟨TakeGroups.tracks ht, DropGroups.tracks ht, FilterGroups.tracks ht, Borrow.tracks ht,
      Group.tracks ht, fun hp ↦ ⟨TakeGroups.opensInPlace hp, Borrow.opensInPlace hp⟩⟩
  · intro σ _ root J hJ
    exact ⟨View.tracks hJ, tracks hJ⟩
  · intro g hg
    exact readGroups_eq_partition h hr ((keeps h hr).reaches (sound_ofRule hs rule) hg)

/-- Chunks of two over a cursor on a list: the fresh stream reads the chunks of the list. -/
theorem stream_conservation_of_chunks :
    (Grouped.readGroups (ofRule (Cursor.ofProducer (Source.ofList [1, 2, 3] ()) : Cursor _ Nat)
      (Chunks.ofSize 2))).1 = Boundary.partition (reset (α := Nat) (Chunks.ofSize 2)) [1, 2, 3] :=
  ((stream_conservation (Cursor.lifo Source.streams) (Chunks.restarts 2) trivial).2.2.2 _
    .refl).1

end Groups

end Spool
