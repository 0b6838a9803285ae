import Spool.Proofs.Regroup

/-!
# How far a group stream reads ahead

A group stream over a cursor pulls the cursor's producer lazily, but not only for the elements it
hands out. A group whose bound is still open once it has admitted its elements ends only when the
view asks the cursor for one more element: that element is refused and waits on the cursor's
stack, where the next group's opening peek finds it, or the pull finds the end. A group whose
bound closes by itself (a count run down) ends without that pull. Opening a group peeks at its
first element, which is then waiting on the stack again.

`Cursor.ahead` counts what the cursor has pulled beyond what it has handed out: the elements on
its stack and the pull that found the end, so that a cursor over a producer streaming `l` has
pulled `l.length + ahead` less what it still reads as (`PulledFrom.pulls_add_length`).
`Groups.Lookahead` says the cursor under a group stream is never more than one pull ahead: inside
an open group by the element lent to the view, and once the view has ended by exactly one pull if
its bound is still open and none otherwise. Every opening and every draw keeps it
(`lookahead_openNext`, `lookahead_drawInGroup`), for every rule whose refusals leave the bound open
(`Boundary.OpenAfterRefusal`), which the four rules do.

`Groups.pullShape` reads the base stream as its groups, as `Groups.shape` does, and records at each
point a reading can stop how many pulls the cursor has then made: a group `g` read from the start
state `r₀` and followed by `rest` leaves `l.length - rest.length` elements pulled, one more if the
bound is still open after `g` (`Boundary.peeksPast`), and the end leaves every element pulled and
one more pull. `Groups.pullReads` is the `Grouped.Reads` instance, so every reader and every window
of the library carries these counts. Between groups, what is seen (`pullsSeen`) is the pulls made
and the pull that closing the open group still makes (`closingPull`); it is the pulls made once
the view has ended or no group is open (`Quiet`).
-/

set_option autoImplicit false

namespace Spool

namespace Cursor

variable {π α ρ : Type} [Producer π α ρ]

/-- How far the cursor has pulled its producer beyond what it has handed out: the elements waiting
on its stack, and the pull that found the end. -/
def ahead (c : Cursor π α) : Nat :=
  c.stack.length + if c.exhausted then 1 else 0

@[simp] theorem ahead_undraw (a : α) (c : Cursor π α) : (undraw a c).ahead = c.ahead + 1 := by
  cases hx : c.exhausted <;> simp [ahead, undraw, hx]

/-- A draw that answers nothing leaves the cursor one pull ahead: the pull that found the end. -/
theorem ahead_draw_of_none {c : Cursor π α} (hd : (draw c).1 = none) : (draw c).2.ahead = 1 := by
  obtain ⟨hs, hx⟩ := ended_of_draw_none hd
  simp [ahead, hs, hx]

/-- A draw that hands out an element, from a cursor at most one pull ahead, leaves nothing
ahead. -/
theorem ahead_draw_of_some {c : Cursor π α} (hc : c.ahead ≤ 1) {a : α}
    (hd : (draw c).1 = some a) : (draw c).2.ahead = 0 := by
  cases hs : c.stack with
  | cons b rest =>
    -- the element on the stack was all that was ahead
    rw [draw_of_cons hs]
    cases hx : c.exhausted <;> simp_all [ahead]
  | nil =>
    cases hx : c.exhausted with
    | true =>
      rw [draw_of_exhausted hs hx] at hd
      cases hd
    | false =>
      rcases hp : Producer.pull c.producer with ⟨_ | b, q⟩
      · rw [draw_of_pull_none hs hx hp] at hd
        cases hd
      · rw [draw_of_pull_some hs hx hp]
        simp [ahead, hs, hx]

/-- A peek at a cursor with an element waiting changes nothing. -/
theorem peek_undraw (a : α) (c : Cursor π α) : peek (undraw a c) = (some a, undraw a c) :=
  rfl

/-- A cursor one pull ahead that still reads as something holds that pull on its stack. -/
theorem stack_of_ahead_eq_one {toList : π → List α} {c : Cursor π α} (hc : c.ahead = 1)
    (hl : contents toList c ≠ []) : ∃ x, c.stack = [x] ∧ c.exhausted = false := by
  cases hs : c.stack with
  | nil =>
    -- with nothing on the stack, the pull ahead found the end, and nothing is left
    have hx : c.exhausted = true := by
      cases hx : c.exhausted <;> simp_all [ahead]
    exact absurd (by simp [contents, hs, hx]) hl
  | cons x rest =>
    cases hx : c.exhausted <;> simp_all [ahead]

section Finite

variable {toList : π → List α} {Inv : π → Prop} {p₀ : π} {c : Cursor π α}

/-- A cursor over a producer that streams a list reads as that list and keeps its pull accounting
from `p₀`. -/
theorem lifo_pulledFrom (h : Producer.Streams toList Inv) (p₀ : π) :
    Context.Lifo (contents toList) (fun c : Cursor π α ↦ Inv c.producer ∧ PulledFrom p₀ c) :=
  (lifo h).and_inv (fun _ _ hc ↦ hc.draw) (fun a _ _ hc ↦ hc.undraw a) (fun _ _ hc ↦ hc.peek)

namespace PulledFrom

theorem pulled_le_length (h : Producer.Streams toList Inv) (hp : Inv p₀)
    (hc : PulledFrom p₀ c) : c.pulled ≤ (toList p₀).length := by
  by_contra hlt
  -- the pull made at the list's length would have yielded an element past its end
  have hsome := hc.yielded (toList p₀).length (by omega)
  simp [h.pull_advance _ hp] at hsome

/-- Every pull the cursor has made is an element it has handed out, an element or an end it holds
ahead, or one of the elements it still reads as. -/
theorem pulls_add_length (h : Producer.Streams toList Inv) (hp : Inv p₀)
    (hc : PulledFrom p₀ c) :
    c.pulls + (contents toList c).length = (toList p₀).length + c.ahead := by
  have hle := hc.pulled_le_length h hp
  rw [hc.contents_eq h hp]
  simp only [pulls, ahead, List.length_append, List.length_drop]
  omega

/-- Every pull but the one that found the end yielded an element. -/
theorem pulled_eq_min (h : Producer.Streams toList Inv) (hp : Inv p₀) (hc : PulledFrom p₀ c) :
    c.pulled = min c.pulls (toList p₀).length := by
  have hle := hc.pulled_le_length h hp
  unfold pulls
  cases hx : c.exhausted with
  | true =>
    rw [hc.pulled_eq_length h hp hx]
    simp
  | false => simpa using hle

end PulledFrom

end Finite

end Cursor

namespace Boundary

variable {β α : Type} [Boundary β α]

/-- The bound once it has admitted the elements of `l`, one after another. -/
def admitAll (b : β) : List α → β
  | [] => b
  | a :: l => admitAll (offer b a).2 l

@[simp] theorem admitAll_nil (b : β) : admitAll b ([] : List α) = b := rfl

@[simp] theorem admitAll_cons (b : β) (a : α) (l : List α) :
    admitAll b (a :: l) = admitAll (offer b a).2 l :=
  rfl

/-- One more read from the parent after a group admitted from `b`: the bound is still open once
it has admitted the group, so the view asks for the next element, which is refused, or finds the
end. -/
def peeksPast (b : β) (g : List α) : Nat :=
  if isOpen (α := α) (admitAll b g) then 1 else 0

variable (β α) in
/-- Refusing an element leaves an open bound open. -/
def OpenAfterRefusal : Prop :=
  ∀ (b b' : β) (a : α), isOpen (α := α) b = true → offer b a = (false, b') →
    isOpen (α := α) b' = true

end Boundary

theorem RunsBy.openAfterRefusal (α : Type) : Boundary.OpenAfterRefusal (RunsBy α) α :=
  fun _ _ _ _ _ ↦ rfl

theorem AdjacentBy.openAfterRefusal (α : Type) : Boundary.OpenAfterRefusal (AdjacentBy α) α :=
  fun _ _ _ _ _ ↦ rfl

theorem Partitions.openAfterRefusal (α : Type) : Boundary.OpenAfterRefusal (Partitions α) α :=
  fun _ _ _ _ _ ↦ rfl

/-- A count refuses only once it has run down, so it never refuses while open. -/
theorem Chunks.openAfterRefusal (α : Type) : Boundary.OpenAfterRefusal Chunks α := by
  intro b b' a hb hoff
  have hleft : 0 < b.left := of_decide_eq_true hb
  rw [Chunks.offer_eq, if_neg (by omega)] at hoff
  cases hoff

namespace View

variable {γ β α : Type} [Boundary β α]

variable (toList : γ → List α) in
/-- The bound as it stands once the view has read everything its bound admits of the parent; once
the view has ended, the bound as it is. -/
def lastBound (v : View γ β) : β :=
  if v.closed then v.bound
  else Boundary.admitAll v.bound (Boundary.span v.bound ((toList v.parent).drop v.lent))

variable [Context γ α] {toList : γ → List α} {I : γ → Prop}

/-- A draw through a backed view leaves its last bound as open as it was: the elements it admits
were part of the span, and a refusal leaves the bound open. -/
theorem isOpen_lastBound_draw (h : Context.Lifo toList I) (ho : Boundary.OpenAfterRefusal β α)
    {v : View γ β} (hv : Backed toList I v) :
    Boundary.isOpen (α := α) (lastBound toList v.draw.2) =
      Boundary.isOpen (α := α) (lastBound toList v) := by
  obtain ⟨hinv, hlen⟩ := hv
  rcases draw_cases v with ⟨hl, hd⟩ | ⟨hl, hc, hd⟩ | ⟨hl, hc, hb, hd⟩ | ⟨hl, hc, hb, hn, hd⟩ |
    ⟨a, p, b, hl, hc, hb, hp, hoff, hd⟩ | ⟨a, p, b, hl, hc, hb, hp, hoff, hd⟩ <;> rw [hd]
  · -- a lent element comes back: the parent loses its head, which the view had lent
    obtain ⟨x, rest, hP⟩ : ∃ x rest, toList v.parent = x :: rest := by
      cases hP : toList v.parent with
      | nil => rw [hP] at hlen; simp at hlen; omega
      | cons x rest => exact ⟨x, rest, rfl⟩
    obtain ⟨-, hd₂, -⟩ := h.draw_cons hinv hP
    obtain ⟨k, hk⟩ : ∃ k, v.lent = k + 1 := ⟨v.lent - 1, by omega⟩
    simp [lastBound, hd₂, hP, hk]
  · -- a closed bound ends the view without reading
    simp [lastBound, hc, span_of_not_isOpen hb]
  · -- the parent is empty
    have hnil : toList v.parent = [] :=
      List.head?_eq_none_iff.mp ((h.draw_fst _ hinv).symm.trans hn)
    simp [lastBound, hc, hl, hnil]
  all_goals
    obtain ⟨l, hP⟩ : ∃ l, toList v.parent = a :: l := by
      have hfst := h.draw_fst _ hinv
      rw [hp] at hfst
      cases hP : toList v.parent with
      | nil => simp [hP] at hfst
      | cons x l =>
        simp only [hP, List.head?_cons, Option.some.injEq] at hfst
        exact ⟨l, by rw [hfst]⟩
    obtain ⟨-, hd₂, -⟩ := h.draw_cons hinv hP
    rw [hp] at hd₂
    dsimp only at hd₂
  · -- admitted: the bound moves past the element on both sides
    simp [lastBound, hc, hl, hP, Boundary.span_cons_of_admit hb hoff, hd₂, hoff]
  · -- refused: the view ends, and its bound stays open
    simp [lastBound, hc, hl, hP, Boundary.span_cons_of_refuse hoff, ho _ _ _ hb hoff, hb]

theorem peek_of_draw_none {v : View γ β} (hl : v.lent = 0) {w : View γ β}
    (hd : v.draw = (none, w)) : v.peek = (none, w) := by
  unfold peek
  rw [if_pos hl, hd]

/-- With nothing lent, a peek draws the element, lends it back and peeks at the parent. -/
theorem peek_of_draw_some {v : View γ β} (hl : v.lent = 0) {a : α} {w : View γ β}
    (hd : v.draw = (some a, w)) :
    v.peek = ((Context.peek (w.undraw a).parent).1,
      { w.undraw a with parent := (Context.peek (w.undraw a).parent).2 }) := by
  unfold peek
  rw [if_pos hl, hd]

end View

namespace Grouped.Shape

variable {α ω ω' : Type}

/-- The same groups, with what is seen given anew: `f` of each group to come and of what was seen
once it was read, `d` once the open group is read, and `z` once no group is left. -/
def relabel (f : List α → ω → ω') (d z : ω') (x : Shape α ω) : Shape α ω' where
  cur := x.cur
  done := d
  next := x.next.map fun e ↦ (e.1, e.2.1, f e.2.1 e.2.2)
  final := z
  next_ne_nil e he := by
    obtain ⟨e', he', rfl⟩ := List.mem_map.mp he
    exact x.next_ne_nil e' he'

variable {f : List α → ω → ω'} {d z : ω'} {x : Shape α ω}

@[simp] theorem groups_relabel : (x.relabel f d z).groups = x.groups := by
  simp [groups, relabel]

theorem openNext_relabel_of_nil (hx : x.next = []) :
    (x.relabel f d z).openNext = (none, (x.relabel f d z).ended) :=
  openNext_of_nil (by simp [relabel, hx])

/-- Opening the group `(i, g, o)` of a relabelled shape sees `f g` of `o` once it is read. -/
theorem openNext_relabel_of_cons {i : Nat} {g : List α} {o : ω} {gs : List (Nat × List α × ω)}
    (hx : x.next = (i, g, o) :: gs) :
    (x.relabel f d z).openNext = (some i, x.openNext.2.relabel f (f g o) z) := by
  have hn : (x.relabel f d z).next =
      (i, g, f g o) :: gs.map fun e ↦ (e.1, e.2.1, f e.2.1 e.2.2) := by
    simp [relabel, hx]
  obtain ⟨hy₁, hy₂, hy₃, hy₄, hy₅⟩ := openNext_of_cons hn
  obtain ⟨-, hx₂, -, hx₄, -⟩ := openNext_of_cons hx
  exact Prod.ext hy₁ (Shape.ext (hy₂.trans hx₂.symm) hy₃ (by rw [hy₄]; simp [relabel, hx₄]) hy₅)

end Grouped.Shape

namespace Groups

variable {π α ρ β : Type} [Producer π α ρ] [GroupingRule β α]

open Boundary GroupingRule

/-- The cursor under a group stream is at most one pull ahead. Inside an open group it is ahead by
the element lent to the view; once the view has ended nothing is lent, and it is one pull ahead
exactly when the bound is still open: the refused element waits on the stack, or the end was
found. -/
structure Lookahead (g : Groups (Cursor π α) β) : Prop where
  ahead_le : g.view.parent.ahead ≤ 1
  open_ahead : g.active = true → g.view.closed = false → g.view.parent.ahead = g.view.lent
  closed_ahead : g.active = true → g.view.closed = true →
    g.view.lent = 0 ∧ g.view.parent.ahead = if isOpen (α := α) g.view.bound then 1 else 0

namespace Lookahead

variable {g : Groups (Cursor π α) β}

theorem of_inactive (ha : g.active = false) (h : g.view.parent.ahead ≤ 1) : Lookahead g :=
  ⟨h, fun h' ↦ absurd (ha.symm.trans h') (by simp), fun h' ↦ absurd (ha.symm.trans h') (by simp)⟩

theorem of_open (hc : g.view.closed = false) (hl : g.view.lent ≤ 1)
    (h : g.view.parent.ahead = g.view.lent) : Lookahead g :=
  ⟨h ▸ hl, fun _ _ ↦ h, fun _ h' ↦ absurd (hc.symm.trans h') (by simp)⟩

theorem of_closed (hc : g.view.closed = true) (hl : g.view.lent = 0)
    (h : g.view.parent.ahead = if isOpen (α := α) g.view.bound then 1 else 0) : Lookahead g :=
  ⟨by rw [h]; split <;> omega, fun _ h' ↦ absurd (hc.symm.trans h') (by simp), fun _ _ ↦ ⟨hl, h⟩⟩

end Lookahead

/-- A cursor at most one pull ahead, with no group opened yet. -/
theorem lookahead_ofRule {c : Cursor π α} (hc : c.ahead ≤ 1) (rule : β) :
    Lookahead (ofRule c rule) :=
  Lookahead.of_inactive rfl hc

/-- A draw keeps the cursor's lookahead, for a rule whose refusals leave its bound open. -/
theorem lookahead_drawInGroup (ho : OpenAfterRefusal β α) {toList : π → List α}
    {g : Groups (Cursor π α) β}
    (hlent : g.view.lent ≤ (Cursor.contents toList g.view.parent).length) (hg : Lookahead g) :
    Lookahead (Grouped.drawInGroup g).2 := by
  obtain ⟨hle, hopen, hclosed⟩ := hg
  cases ha : g.active with
  | false =>
    rw [drawInGroup_of_inactive ha]
    exact ⟨hle, hopen, hclosed⟩
  | true =>
    rw [drawInGroup_of_active ha]
    rcases View.draw_cases g.view with ⟨hl, hd⟩ | ⟨hl, hc, hd⟩ | ⟨hl, hc, hb, hd⟩ |
      ⟨hl, hc, hb, hn, hd⟩ | ⟨a, p, b, hl, hc, hb, hp, hoff, hd⟩ |
      ⟨a, p, b, hl, hc, hb, hp, hoff, hd⟩ <;> rw [hd]
    · -- the lent element waits alone on the stack and comes back
      have hc : g.view.closed = false := by
        cases hc : g.view.closed
        · rfl
        · have := (hclosed ha hc).1
          omega
      have hahead := hopen ha hc
      have hne : Cursor.contents toList g.view.parent ≠ [] := by
        intro hnil
        rw [hnil] at hlent
        simp at hlent
        omega
      obtain ⟨x, hs, hx⟩ := Cursor.stack_of_ahead_eq_one (by omega) hne
      have hpop : Context.draw g.view.parent = (some x, { g.view.parent with stack := [] }) :=
        Cursor.draw_of_cons hs
      rw [hpop]
      exact Lookahead.of_open hc (show g.view.lent - 1 ≤ 1 by omega)
        (by simp [Cursor.ahead, hx]; omega)
    · exact ⟨hle, hopen, hclosed⟩
    · -- a closed bound ends the view, with nothing read and nothing ahead
      exact Lookahead.of_closed rfl hl (by simp [hb, hopen ha hc, hl])
    · -- the end is found: that pull is ahead, and the bound is still open
      exact Lookahead.of_closed rfl hl (by rw [if_pos hb]; exact Cursor.ahead_draw_of_none hn)
    · -- admitted: the pull is handed out at once
      have hp' : (Cursor.draw g.view.parent).1 = some a := by
        show (Context.draw g.view.parent).1 = some a
        rw [hp]
      have hp'' : p = (Cursor.draw g.view.parent).2 := by
        show p = (Context.draw g.view.parent).2
        rw [hp]
      exact Lookahead.of_open hc (by simp [hl]) (by simp [hl, hp'', Cursor.ahead_draw_of_some hle hp'])
    · -- refused: the element goes back on the stack, and the bound stays open
      have hp' : (Cursor.draw g.view.parent).1 = some a := by
        show (Context.draw g.view.parent).1 = some a
        rw [hp]
      have hp'' : p = (Cursor.draw g.view.parent).2 := by
        show p = (Context.draw g.view.parent).2
        rw [hp]
      have hundraw : (Context.undraw a p : Cursor π α).ahead = 1 := by
        show (Cursor.undraw a p).ahead = 1
        rw [Cursor.ahead_undraw, hp'', Cursor.ahead_draw_of_some hle hp']
      exact Lookahead.of_closed rfl hl (by simp [hundraw, ho _ _ _ hb hoff])

/-- What opening a group leaves under the view: no group open and the end found, or the group's
first element `a`, drawn from the cursor, admitted by the start state and lent back, so that it
waits on the stack with the bound moved past it. -/
theorem openNext_cases {r₀ : β} (hr : Restarts α r₀) {g : Groups (Cursor π α) β}
    (hb : reset (α := α) g.view.bound = r₀) :
    ((Grouped.openNext g).1 = none ∧ (Grouped.openNext g).2.active = false ∧
        (Cursor.draw g.view.parent).1 = none ∧
        (Grouped.openNext g).2.view.parent = (Cursor.draw g.view.parent).2) ∨
    (∃ a, (Cursor.draw g.view.parent).1 = some a ∧ (Grouped.openNext g).1 = some g.opened ∧
      (Grouped.openNext g).2.active = true ∧ (Grouped.openNext g).2.view.closed = false ∧
      (Grouped.openNext g).2.view.lent = 1 ∧ (Grouped.openNext g).2.view.bound = (offer r₀ a).2 ∧
      (Grouped.openNext g).2.view.parent = Cursor.undraw a (Cursor.draw g.view.parent).2) := by
  have hopen : Grouped.openNext g = openNext g := rfl
  have hw : (reopened (α := α) g).bound = r₀ := hb
  have hwl : (reopened (α := α) g).lent = 0 := rfl
  rw [hopen, openNext_eq]
  rcases View.draw_cases (reopened (α := α) g) with ⟨hl, -⟩ | ⟨-, hc, -⟩ | ⟨-, -, hb', -⟩ |
    ⟨-, -, -, hn, hd⟩ | ⟨a, p, b, -, -, -, hp, hoff, hd⟩ | ⟨a, p, b, -, -, -, -, hoff, -⟩
  · simp [hwl] at hl
  · cases hc
  · rw [hw, hr.isOpen_start] at hb'
    cases hb'
  · -- the cursor has nothing left
    left
    rw [View.peek_of_draw_none hwl hd]
    exact ⟨rfl, rfl, hn, rfl⟩
  · -- the first element is admitted, lent back, and peeked at where it waits
    right
    have hp' : Cursor.draw g.view.parent = (some a, p) := hp
    have hpk : Context.peek (Context.undraw a p : Cursor π α) = (some a, Cursor.undraw a p) :=
      Cursor.peek_undraw a p
    rw [hw] at hoff
    rw [View.peek_of_draw_some hwl hd]
    refine ⟨a, by rw [hp'], ?_⟩
    simp [View.undraw, hpk, hoff, hp', hwl]
    rfl
  · -- the start state admits every first element
    rw [hw] at hoff
    have hadmit := hr.admit_start a
    rw [hoff] at hadmit
    cases hadmit

/-- Opening a group keeps the cursor's lookahead: the opening peek leaves the group's first
element lent and waiting on the stack, or finds the end. -/
theorem lookahead_openNext {r₀ : β} (hr : Restarts α r₀) {g : Groups (Cursor π α) β}
    (hb : reset (α := α) g.view.bound = r₀) (hg : Lookahead g) :
    Lookahead (Grouped.openNext g).2 := by
  rcases openNext_cases hr hb with ⟨-, ha, hn, hp⟩ | ⟨a, hd, -, -, hc, hl, -, hp⟩
  · exact Lookahead.of_inactive ha (by rw [hp, Cursor.ahead_draw_of_none hn])
  · refine Lookahead.of_open hc (by omega) ?_
    rw [hp, hl, Cursor.ahead_undraw, Cursor.ahead_draw_of_some hg.ahead_le hd]

/-- A group just opened will have left its bound where admitting the whole group from the start
state leaves it. -/
theorem lastBound_openNext {r₀ : β} (hr : Restarts α r₀) {g : Groups (Cursor π α) β}
    (hb : reset (α := α) g.view.bound = r₀) {i : Nat} (hi : (Grouped.openNext g).1 = some i)
    (toList : π → List α) :
    View.lastBound (Cursor.contents toList) (Grouped.openNext g).2.view =
      admitAll r₀ (View.contents (Cursor.contents toList) (Grouped.openNext g).2.view) := by
  rcases openNext_cases hr hb with ⟨hn, -⟩ | ⟨a, -, -, -, hc, hl, hbound, hp⟩
  · rw [hn] at hi
    cases hi
  · simp [View.lastBound, View.contents, hc, hl, hbound, hp]

section Modes

variable {γ : Type} [Context γ α] {g : Groups γ β}

/-- Nothing is left to close: no group is open, or the view has ended. -/
def Quiet (g : Groups γ β) : Prop :=
  g.active = false ∨ g.view.closed = true

/-- Inside an open group, with the view not ended and nothing lent. -/
def Reading (g : Groups γ β) : Prop :=
  g.active = true ∧ g.view.closed = false ∧ g.view.lent = 0

/-- An opening that finds no group leaves no group open. -/
theorem quiet_of_openNext_none (hn : (Grouped.openNext g).1 = none) :
    Quiet (Grouped.openNext g).2 := by
  have hopen : Grouped.openNext g = openNext g := rfl
  rw [hopen, openNext_eq] at hn ⊢
  split
  · rename_i hs
    rw [if_pos hs] at hn
    cases hn
  · exact Or.inl rfl

/-- A draw that answers nothing, from a backed view, leaves the stream quiet: an open group
answers nothing only once its view has ended. -/
theorem quiet_of_drawInGroup_none {toList : γ → List α} {I : γ → Prop}
    (h : Context.Lifo toList I) (hv : View.Backed toList I g.view)
    (hd : (Grouped.drawInGroup g).1 = none) : Quiet (Grouped.drawInGroup g).2 := by
  cases ha : g.active with
  | false =>
    rw [drawInGroup_of_inactive ha]
    exact Or.inl ha
  | true =>
    rw [drawInGroup_of_active ha] at hd ⊢
    rcases View.draw_cases g.view with ⟨hl, hdr⟩ | ⟨-, hc, hdr⟩ | ⟨-, -, -, hdr⟩ |
      ⟨-, -, -, -, hdr⟩ | ⟨a, p, b, -, -, -, -, -, hdr⟩ | ⟨a, p, b, -, -, -, -, -, hdr⟩ <;>
      rw [hdr] at hd ⊢
    · -- a lent element is there to draw back
      exfalso
      have hne : toList g.view.parent ≠ [] := by
        intro hnil
        have hle := hv.2
        rw [hnil] at hle
        simp at hle
        omega
      obtain ⟨x, l, hP⟩ := List.exists_cons_of_ne_nil hne
      rw [(h.draw_cons hv.1 hP).1] at hd
      cases hd
    · exact Or.inr hc
    · exact Or.inr rfl
    · exact Or.inr rfl
    · cases hd
    · exact Or.inr rfl

end Modes

section Pulls

/-- The pull that closing the open group still makes: with nothing lent, the view not ended and
its bound open, the next draw asks the cursor for an element. -/
def closingPull (g : Groups (Cursor π α) β) : Nat :=
  if g.active = true ∧ g.view.closed = false ∧ g.view.lent = 0 ∧
      isOpen (α := α) g.view.bound = true then 1 else 0

theorem closingPull_of_quiet {g : Groups (Cursor π α) β} (hq : Quiet g) : closingPull g = 0 := by
  unfold closingPull
  rcases hq with ha | hc
  · simp [ha]
  · simp [hc]

/-- A draw that hands out an element leaves the stream reading, with nothing lent: it drew the
lent element back, or an element the bound admitted. -/
theorem reading_of_drawInGroup_some {g : Groups (Cursor π α) β} (hk : Lookahead g) {a : α}
    (hd : (Grouped.drawInGroup g).1 = some a) : Reading (Grouped.drawInGroup g).2 := by
  cases ha : g.active with
  | false =>
    rw [drawInGroup_of_inactive ha] at hd
    cases hd
  | true =>
    rw [drawInGroup_of_active ha] at hd ⊢
    rcases View.draw_cases g.view with ⟨hl, hdr⟩ | ⟨-, -, hdr⟩ | ⟨-, -, -, hdr⟩ |
      ⟨-, -, -, -, hdr⟩ | ⟨b, p, b', hl, hc, -, -, -, hdr⟩ | ⟨b, p, b', -, -, -, -, -, hdr⟩ <;>
      rw [hdr] at hd ⊢
    · -- the lent element came back; only one was lent
      have hc : g.view.closed = false := by
        cases hc : g.view.closed
        · rfl
        · have := (hk.closed_ahead ha hc).1
          omega
      have hone := hk.open_ahead ha hc
      have hle := hk.ahead_le
      exact ⟨ha, hc, show g.view.lent - 1 = 0 by omega⟩
    · cases hd
    · cases hd
    · cases hd
    · exact ⟨ha, hc, hl⟩
    · cases hd

variable (toList : π → List α) (p₀ : π) (r₀ : β)

/-- How many pulls the cursor will have made once the open group is read to its end, and what the
cursor reads as. -/
def pullsSeen (g : Groups (Cursor π α) β) : Nat × List α :=
  (g.view.parent.pulls + closingPull g, Cursor.contents toList g.view.parent)

/-- What is seen once a group `grp` read from `r₀`, with `o.2` following it, is read: every
element before `o.2` pulled, and one more pull if the bound is still open after the group. -/
def pullsAfter (grp : List α) (o : Nat × List α) : Nat × List α :=
  ((toList p₀).length + peeksPast r₀ grp - o.2.length, o.2)

/-- What is seen once the open group is read: as for a group to come, from the view's last bound
and what follows the group; with no group open, the pulls made and what the cursor reads as. -/
def pullsDone (g : Groups (Cursor π α) β) : Nat × List α :=
  if g.active then
    ((toList p₀).length +
        (if isOpen (α := α) (View.lastBound (Cursor.contents toList) g.view) then 1 else 0) -
        (after (Cursor.contents toList) g).length,
      after (Cursor.contents toList) g)
  else (g.view.parent.pulls, Cursor.contents toList g.view.parent)

/-- The base stream read as its groups, as `shape` reads it, seeing at each point where a reading
can stop how many pulls the cursor will then have made and what it then reads as. -/
def pullShape (g : Groups (Cursor π α) β) : Grouped.Shape α (Nat × List α) :=
  (shape (Cursor.contents toList) r₀ g).relabel (pullsAfter toList p₀ r₀) (pullsDone toList p₀ g)
    ((toList p₀).length + 1, [])

variable (PInv : π → Prop)

/-- The stream is sound over a cursor that streams the list of `p₀` and keeps its pull accounting,
and the cursor is at most one pull ahead. -/
def PullInv (g : Groups (Cursor π α) β) : Prop :=
  Sound (Cursor.contents toList) (fun c ↦ PInv c.producer ∧ Cursor.PulledFrom p₀ c) r₀ g ∧
    Lookahead g

end Pulls

section PullReads

variable {toList : π → List α} {PInv : π → Prop} {p₀ : π} {r₀ : β}

/-- A draw leaves what is seen once the open group is read as it was: what follows the group
stays in place, and the last bound stays as open. -/
theorem pullsDone_drawInGroup (h : Producer.Streams toList PInv) (ho : OpenAfterRefusal β α)
    {g : Groups (Cursor π α) β} (hg : PullInv toList p₀ r₀ PInv g) :
    pullsDone toList p₀ (Grouped.drawInGroup g).2 = pullsDone toList p₀ g := by
  cases ha : g.active with
  | false => rw [drawInGroup_of_inactive ha]
  | true =>
    have hl := Cursor.lifo_pulledFrom h p₀
    have hback := hg.1.1
    rw [drawInGroup_of_active ha]
    have hafter : after (Cursor.contents toList) { g with view := g.view.draw.2 } =
        after (Cursor.contents toList) g := by
      simp [after, ha, View.beyond_draw hl hback]
    unfold pullsDone
    rw [hafter]
    simp only [ha, if_true, View.isOpen_lastBound_draw hl ho hback]

/-- Opening the group `(i, grp, o)` sees, once it is read, what `pullsAfter` gives for it. -/
theorem pullsDone_openNext_of_cons (h : Producer.Streams toList PInv) (hr : Restarts α r₀)
    {g : Groups (Cursor π α) β} (hg : PullInv toList p₀ r₀ PInv g)
    (hc : (shape (Cursor.contents toList) r₀ g).cur = []) {i : Nat} {grp : List α}
    {o : Nat × List α} {gs : List (Nat × List α × (Nat × List α))}
    (hx : (shape (Cursor.contents toList) r₀ g).next = (i, grp, o) :: gs) :
    pullsDone toList p₀ (Grouped.openNext g).2 = pullsAfter toList p₀ r₀ grp o := by
  obtain ⟨h₁, h₂, -⟩ := openNext_shape (Cursor.lifo_pulledFrom h p₀) hr hg.1 hc
  obtain ⟨hx₁, hx₂, hx₃, -, -⟩ := Grouped.Shape.openNext_of_cons hx
  have hi : (Grouped.openNext g).1 = some i := h₁.trans hx₁
  have ha : (Grouped.openNext g).2.active = true := by
    rcases openNext_cases hr hg.1.2 with ⟨hn, -⟩ | ⟨_, _, _, ha, _⟩
    · rw [hn] at hi
      cases hi
    · exact ha
  -- the group opened is `grp`, and `o.2` follows it
  have hcur : View.contents (Cursor.contents toList) (Grouped.openNext g).2.view = grp := by
    have hcur := congrArg Grouped.Shape.cur h₂
    rw [hx₂] at hcur
    simpa only [shape, ha, if_true] using hcur
  have hdone : after (Cursor.contents toList) (Grouped.openNext g).2 = o.2 := by
    have hdone := congrArg Grouped.Shape.done h₂
    rw [hx₃] at hdone
    rw [← hdone]
    rfl
  simp only [pullsDone, ha, if_true, pullsAfter, lastBound_openNext hr hg.1.2 hi, hcur, hdone,
    peeksPast]

/-- An opening that finds no group leaves every element pulled, and one more pull. -/
theorem pullsDone_openNext_of_none (h : Producer.Streams toList PInv) (hp : PInv p₀)
    (hr : Restarts α r₀) {g : Groups (Cursor π α) β} (hg : PullInv toList p₀ r₀ PInv g)
    (hn : (Grouped.openNext g).1 = none) :
    pullsDone toList p₀ (Grouped.openNext g).2 = ((toList p₀).length + 1, []) := by
  rcases openNext_cases hr hg.1.2 with ⟨-, ha, hd, hpar⟩ | ⟨a, -, hi, -⟩
  · obtain ⟨hs, hx⟩ := Cursor.ended_of_draw_none hd
    have hpf : Cursor.PulledFrom p₀ (Cursor.draw g.view.parent).2 := hg.1.1.1.2.draw
    have hlen := hpf.pulled_eq_length h hp hx
    simp [pullsDone, ha, hpar, Cursor.pulls, Cursor.contents, hs, hx, hlen]
  · rw [hi] at hn
    cases hn

/-- Between groups, what is seen is the pulls the cursor will have made once the open group is
read: the pulls made and, if the view has not ended, the pull that ends it. -/
theorem pullsSeen_of_cur_nil (h : Producer.Streams toList PInv) (hp : PInv p₀)
    {g : Groups (Cursor π α) β} (hg : PullInv toList p₀ r₀ PInv g)
    (hc : (shape (Cursor.contents toList) r₀ g).cur = []) :
    pullsSeen toList g = pullsDone toList p₀ g := by
  have hcount := hg.1.1.1.2.pulls_add_length h hp
  have hafter := after_of_cur_nil (Cursor.contents toList) r₀ hc
  cases ha : g.active with
  | false => simp [pullsSeen, pullsDone, closingPull, ha]
  | true =>
    have hcont : View.contents (Cursor.contents toList) g.view = [] := by
      simpa [shape, ha] using hc
    -- nothing is lent, as nothing is left of the group
    have hlent : g.view.lent = 0 := by
      have htake := (List.append_eq_nil_iff.mp hcont).1
      rcases List.take_eq_nil_iff.mp htake with hz | hnil
      · exact hz
      · have hle := hg.1.1.2
        rw [hnil] at hle
        simpa using hle
    cases hcl : g.view.closed with
    | true =>
      obtain ⟨-, hahead⟩ := hg.2.closed_ahead ha hcl
      simp only [pullsSeen, pullsDone, closingPull, ha, hcl, hafter, View.lastBound, if_true,
        Bool.true_eq_false, false_and, and_false, if_false, Prod.mk.injEq, and_true]
      split <;> simp_all <;> omega
    | false =>
      have hahead := hg.2.open_ahead ha hcl
      have hspan : Boundary.span g.view.bound (Cursor.contents toList g.view.parent) = [] := by
        simpa [View.contents, hlent, hcl] using hcont
      simp only [pullsSeen, pullsDone, closingPull, ha, hcl, hlent, hafter, View.lastBound,
        List.drop_zero, hspan, admitAll_nil, if_true, Prod.mk.injEq, and_true]
      split <;> simp_all <;> omega

variable (toList PInv p₀ r₀) in
/-- The base stream over a cursor reads as its groups, and sees at each stop the pulls made and
what the cursor reads as. -/
theorem pullReads (h : Producer.Streams toList PInv) (hp : PInv p₀) (hr : Restarts α r₀)
    (ho : OpenAfterRefusal β α) :
    Grouped.Reads (pullsSeen toList) (pullShape toList p₀ r₀) (PullInv toList p₀ r₀ PInv) where
  drawInGroup_spec g hg := by
    obtain ⟨h₁, h₂, h₃⟩ := drawInGroup_spec (Cursor.lifo_pulledFrom h p₀) hr hg.1
    refine ⟨h₁, ?_, h₃, lookahead_drawInGroup ho hg.1.1.2 hg.2⟩
    rw [pullShape, h₂, pullsDone_drawInGroup h ho hg]
    rfl
  openNext_spec g hg hc := by
    obtain ⟨h₁, h₂, h₃⟩ := openNext_shape (Cursor.lifo_pulledFrom h p₀) hr hg.1 hc
    have hk := lookahead_openNext hr hg.1.2 hg.2
    cases hx : (shape (Cursor.contents toList) r₀ g).next with
    | nil =>
      rw [Grouped.Shape.openNext_of_nil hx] at h₁ h₂
      have hn : (Grouped.openNext g).1 = none := h₁
      have hrel : (pullShape toList p₀ r₀ g).openNext = (none, (pullShape toList p₀ r₀ g).ended) :=
        Grouped.Shape.openNext_relabel_of_nil hx
      refine ⟨by rw [hn, hrel], ?_, h₃, hk⟩
      rw [hrel, pullShape, h₂, pullsDone_openNext_of_none h hp hr hg hn]
      rfl
    | cons e gs =>
      obtain ⟨i, grp, o⟩ := e
      rw [pullShape, Grouped.Shape.openNext_relabel_of_cons hx]
      obtain ⟨hx₁, -⟩ := Grouped.Shape.openNext_of_cons hx
      refine ⟨h₁.trans hx₁, ?_, h₃, hk⟩
      rw [pullShape, h₂, pullsDone_openNext_of_cons h hr hg hc hx]
  obs_spec g hg hc := pullsSeen_of_cur_nil h hp hg hc
  length_le_supply g hg := by
    have hle := (reads (Cursor.lifo_pulledFrom h p₀) hr).length_le_supply g hg.1
    rw [pullShape, Grouped.Shape.groups_relabel]
    exact hle

end PullReads

end Groups

end Spool
