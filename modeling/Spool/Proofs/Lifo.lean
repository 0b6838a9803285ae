import Spool.Context.Cursor
import Spool.Producer.Source

/-!
# Contexts that read as lists

A context is a stream with pushback. On the states it can reach it should behave as a list: `draw`
takes the head, `undraw` puts an element in front and `peek` shows the head without changing
anything. `Context.Lifo toList Inv` says this of a context, for the states that satisfy `Inv`, read
as lists by `toList`. `Producer.Streams toList Inv` says the same of a producer, which can only be
pulled.

The derived operations of a context then have list meanings: `isEnd` tests for the empty list,
`skip` drops the head, `drawIf` takes the head when it satisfies the condition, `drawAll` takes the
whole list and `foldAll` folds it from the left. A source reads as the list of its positions not
yet pulled, and a cursor reads as its pushback stack followed by the list its producer streams
(`Cursor.lifo`).
-/

set_option autoImplicit false

namespace Spool

namespace Context

variable {σ α : Type} [Context σ α]

/-- On the states satisfying `Inv`, the context behaves as the list `toList s`: a draw returns the
head and leaves the tail, a push back puts the element in front, a peek returns the head and
leaves the list as it was, and `supply` bounds the length. Every operation keeps `Inv`. -/
structure Lifo (toList : σ → List α) (Inv : σ → Prop) : Prop where
  draw_fst : ∀ s, Inv s → (draw s).1 = (toList s).head?
  draw_snd : ∀ s, Inv s → toList (draw s).2 = (toList s).tail
  draw_inv : ∀ s, Inv s → Inv (draw s).2
  undraw_toList : ∀ a s, Inv s → toList (undraw a s) = a :: toList s
  undraw_inv : ∀ a s, Inv s → Inv (undraw a s)
  peek_fst : ∀ s, Inv s → (peek s).1 = (toList s).head?
  peek_snd : ∀ s, Inv s → toList (peek s).2 = toList s
  peek_inv : ∀ s, Inv s → Inv (peek s).2
  length_le_supply : ∀ s, Inv s → (toList s).length ≤ supply s

namespace Lifo

variable {toList : σ → List α} {Inv : σ → Prop}

/-- A draw from a state whose list is `a :: l` returns `a` and leaves `l`. -/
theorem draw_cons (h : Lifo toList Inv) {s : σ} {a : α} {l : List α} (hs : Inv s)
    (hl : toList s = a :: l) :
    (draw s).1 = some a ∧ toList (draw s).2 = l ∧ Inv (draw s).2 := by
  refine ⟨?_, ?_, h.draw_inv s hs⟩
  · rw [h.draw_fst s hs, hl]
    rfl
  · rw [h.draw_snd s hs, hl]
    rfl

/-- A draw from a state whose list is empty returns nothing and leaves the list empty. -/
theorem draw_nil (h : Lifo toList Inv) {s : σ} (hs : Inv s) (hl : toList s = []) :
    (draw s).1 = none ∧ toList (draw s).2 = [] ∧ Inv (draw s).2 := by
  refine ⟨?_, ?_, h.draw_inv s hs⟩
  · rw [h.draw_fst s hs, hl]
    rfl
  · rw [h.draw_snd s hs, hl]
    rfl

/-- `isEnd` tells whether the list is empty and changes nothing. -/
theorem isEnd_spec (h : Lifo toList Inv) {s : σ} (hs : Inv s) :
    (isEnd s).1 = (toList s).isEmpty ∧ toList (isEnd s).2 = toList s ∧ Inv (isEnd s).2 := by
  refine ⟨?_, h.peek_snd s hs, h.peek_inv s hs⟩
  show (peek s).1.isNone = _
  rw [h.peek_fst s hs]
  cases toList s <;> rfl

/-- `skip` tells whether the list was not empty and drops its head. -/
theorem skip_spec (h : Lifo toList Inv) {s : σ} (hs : Inv s) :
    (skip s).1 = !(toList s).isEmpty ∧ toList (skip s).2 = (toList s).tail ∧
      Inv (skip s).2 := by
  refine ⟨?_, h.draw_snd s hs, h.draw_inv s hs⟩
  show (draw s).1.isSome = _
  rw [h.draw_fst s hs]
  cases toList s <;> rfl

/-- `drawIf` takes the head when it satisfies the condition, and otherwise leaves the list as it
was. -/
theorem drawIf_spec (h : Lifo toList Inv) (p : α → Bool) {s : σ} (hs : Inv s) :
    (drawIf p s).1 = (toList s).head?.filter p ∧
      toList (drawIf p s).2 = (if (toList s).head?.any p then (toList s).tail else toList s) ∧
      Inv (drawIf p s).2 := by
  unfold drawIf
  cases hl : toList s with
  | nil =>
    obtain ⟨hfst, hsnd, hinv⟩ := h.draw_nil hs hl
    rcases hd : draw s with ⟨_ | a, s'⟩ <;> rw [hd] at hfst hsnd hinv
    · exact ⟨rfl, hsnd, hinv⟩
    · cases hfst
  | cons a l =>
    obtain ⟨hfst, hsnd, hinv⟩ := h.draw_cons hs hl
    rcases hd : draw s with ⟨_ | b, s'⟩ <;> rw [hd] at hfst hsnd hinv
    · cases hfst
    · cases hfst
      dsimp only at hsnd hinv
      by_cases hp : p a
      · simp [Option.filter, hp, hsnd, hinv]
      · simp [Option.filter, hp, h.undraw_toList a s' hinv, hsnd, h.undraw_inv a s' hinv]

/-- At most `n` draws take the first `n` elements of the list. -/
theorem drawUpTo_spec (h : Lifo toList Inv) (n : Nat) {s : σ} (hs : Inv s) :
    (drawUpTo n s).1 = (toList s).take n ∧ toList (drawUpTo n s).2 = (toList s).drop n ∧
      Inv (drawUpTo n s).2 := by
  induction n generalizing s with
  | zero => exact ⟨rfl, rfl, hs⟩
  | succ n ih =>
    unfold drawUpTo
    cases hl : toList s with
    | nil =>
      obtain ⟨hfst, hsnd, hinv⟩ := h.draw_nil hs hl
      rcases hd : draw s with ⟨_ | a, s'⟩ <;> rw [hd] at hfst hsnd hinv
      · exact ⟨rfl, hsnd, hinv⟩
      · cases hfst
    | cons a l =>
      obtain ⟨hfst, hsnd, hinv⟩ := h.draw_cons hs hl
      rcases hd : draw s with ⟨_ | b, s'⟩ <;> rw [hd] at hfst hsnd hinv
      · cases hfst
      · cases hfst
        obtain ⟨ih₁, ih₂, ih₃⟩ := ih hinv
        rw [hsnd] at ih₁ ih₂
        exact ⟨by simp [ih₁], ih₂, ih₃⟩

/-- `drawAll` takes the whole list and leaves it empty. -/
theorem drawAll_spec (h : Lifo toList Inv) {s : σ} (hs : Inv s) :
    (drawAll s).1 = toList s ∧ toList (drawAll s).2 = [] ∧ Inv (drawAll s).2 := by
  have hlen : (toList s).length ≤ supply s + 1 := by
    have := h.length_le_supply s hs
    omega
  obtain ⟨h₁, h₂, h₃⟩ := h.drawUpTo_spec (supply s + 1) hs
  exact ⟨h₁.trans (List.take_of_length_le hlen), h₂.trans (List.drop_of_length_le hlen), h₃⟩

/-- At most `n` draws folded into `acc` fold the first `n` elements of the list. -/
theorem foldUpTo_spec {β : Type} (h : Lifo toList Inv) (step : β → α → β) (n : Nat) (acc : β)
    {s : σ} (hs : Inv s) :
    (foldUpTo step n acc s).1 = ((toList s).take n).foldl step acc ∧
      toList (foldUpTo step n acc s).2 = (toList s).drop n ∧ Inv (foldUpTo step n acc s).2 := by
  induction n generalizing s acc with
  | zero => exact ⟨rfl, rfl, hs⟩
  | succ n ih =>
    unfold foldUpTo
    cases hl : toList s with
    | nil =>
      obtain ⟨hfst, hsnd, hinv⟩ := h.draw_nil hs hl
      rcases hd : draw s with ⟨_ | a, s'⟩ <;> rw [hd] at hfst hsnd hinv
      · exact ⟨rfl, hsnd, hinv⟩
      · cases hfst
    | cons a l =>
      obtain ⟨hfst, hsnd, hinv⟩ := h.draw_cons hs hl
      rcases hd : draw s with ⟨_ | b, s'⟩ <;> rw [hd] at hfst hsnd hinv
      · cases hfst
      · cases hfst
        obtain ⟨ih₁, ih₂, ih₃⟩ := ih (step acc a) hinv
        rw [hsnd] at ih₁ ih₂
        exact ⟨by simp [ih₁], ih₂, ih₃⟩

/-- `foldAll` folds the whole list from the left and leaves it empty. -/
theorem foldAll_spec {β : Type} (h : Lifo toList Inv) (step : β → α → β) (init : β) {s : σ}
    (hs : Inv s) :
    (foldAll step init s).1 = (toList s).foldl step init ∧ toList (foldAll step init s).2 = [] ∧
      Inv (foldAll step init s).2 := by
  have hlen : (toList s).length ≤ supply s + 1 := by
    have := h.length_le_supply s hs
    omega
  obtain ⟨h₁, h₂, h₃⟩ := h.foldUpTo_spec step (supply s + 1) init hs
  refine ⟨?_, h₂.trans (List.drop_of_length_le hlen), h₃⟩
  show (foldUpTo step (supply s + 1) init s).1 = _
  rw [h₁, List.take_of_length_le hlen]

end Lifo

end Context

namespace Producer

variable {π α ρ : Type} [Producer π α ρ]

/-- On the states satisfying `Inv`, the producer streams the list `toList p`: a pull returns the
head and leaves the tail, and `supply` bounds the length. Pulls keep `Inv`. -/
structure Streams (toList : π → List α) (Inv : π → Prop) : Prop where
  pull_fst : ∀ p, Inv p → (pull p).1 = (toList p).head?
  pull_snd : ∀ p, Inv p → toList (pull p).2 = (toList p).tail
  pull_inv : ∀ p, Inv p → Inv (pull p).2
  length_le_supply : ∀ p, Inv p → (toList p).length ≤ supply p

namespace Streams

variable {toList : π → List α} {Inv : π → Prop}

/-- At most `n` pulls take the first `n` elements of the list. -/
theorem pullUpTo_spec (h : Streams toList Inv) (n : Nat) {p : π} (hp : Inv p) :
    (pullUpTo n p).1 = (toList p).take n ∧ toList (pullUpTo n p).2 = (toList p).drop n ∧
      Inv (pullUpTo n p).2 := by
  induction n generalizing p with
  | zero => exact ⟨rfl, rfl, hp⟩
  | succ n ih =>
    unfold pullUpTo
    have hfst := h.pull_fst p hp
    have hsnd := h.pull_snd p hp
    have hinv := h.pull_inv p hp
    rcases hd : pull p with ⟨_ | a, p'⟩ <;> rw [hd] at hfst hsnd hinv
    · cases hl : toList p with
      | nil => simp [hl] at hsnd; exact ⟨rfl, hsnd, hinv⟩
      | cons b l => simp [hl] at hfst
    · cases hl : toList p with
      | nil => simp [hl] at hfst
      | cons b l =>
        simp only [hl, List.head?_cons, Option.some.injEq, List.tail_cons] at hfst hsnd
        subst hfst
        obtain ⟨ih₁, ih₂, ih₃⟩ := ih hinv
        rw [hsnd] at ih₁ ih₂
        exact ⟨by simp [ih₁], ih₂, ih₃⟩

/-- Reading a producer to its end yields its whole list and leaves it empty. -/
theorem elements_spec (h : Streams toList Inv) {p : π} (hp : Inv p) :
    (elements p).1 = toList p ∧ toList (elements p).2 = [] ∧ Inv (elements p).2 := by
  have hlen : (toList p).length ≤ supply p + 1 := by
    have := h.length_le_supply p hp
    omega
  obtain ⟨h₁, h₂, h₃⟩ := h.pullUpTo_spec (supply p + 1) hp
  exact ⟨h₁.trans (List.take_of_length_le hlen), h₂.trans (List.drop_of_length_le hlen), h₃⟩

/-- `collectAll` yields the whole list, then the result of the producer read to its end. -/
theorem collectAll_spec (h : Streams toList Inv) {p : π} (hp : Inv p) :
    (collectAll p).1 = toList p ∧ (collectAll p).2 = finish (elements p).2 :=
  ⟨(h.elements_spec hp).1, rfl⟩

/-- Pulling past the end stops right after a pull that answers `none`, made from a state with
nothing left. -/
theorem pullUpTo_ends (h : Streams toList Inv) {n : Nat} {p : π} (hp : Inv p)
    (hn : (toList p).length < n) :
    ∃ q, Inv q ∧ toList q = [] ∧ pull q = (none, (pullUpTo n p).2) := by
  induction n generalizing p with
  | zero => omega
  | succ n ih =>
    unfold pullUpTo
    have hfst := h.pull_fst p hp
    have hsnd := h.pull_snd p hp
    have hinv := h.pull_inv p hp
    rcases hd : pull p with ⟨_ | a, p'⟩ <;> rw [hd] at hfst hsnd hinv
    · exact ⟨p, hp, List.head?_eq_none_iff.mp hfst.symm, hd⟩
    · have hne : 0 < (toList p).length := by
        cases hl : toList p with
        | nil => rw [hl] at hfst; cases hfst
        | cons b l => simp
      have hlen : (toList p').length < n := by
        rw [hsnd, List.length_tail]
        omega
      exact ih hinv hlen

/-- `collectAll` yields the whole list, and its result is that of the producer left by a pull
that answered `none` from a state with nothing left. -/
theorem collectAll_ends (h : Streams toList Inv) {p : π} (hp : Inv p) :
    (collectAll p).1 = toList p ∧
      ∃ q, Inv q ∧ toList q = [] ∧ (pull q).1 = none ∧ (collectAll p).2 = finish (pull q).2 := by
  have hlen : (toList p).length < supply p + 1 := by
    have := h.length_le_supply p hp
    omega
  obtain ⟨q, hq, hnil, hpull⟩ := h.pullUpTo_ends hp hlen
  refine ⟨(h.elements_spec hp).1, q, hq, hnil, by rw [hpull], ?_⟩
  rw [hpull]
  rfl

/-- `collectAll` yields what is left, and the result the invariant fixes. -/
theorem collectAll_eq (h : Streams toList Inv) {R : ρ} (hfin : ∀ p, Inv p → finish p = R)
    {p : π} (hp : Inv p) : collectAll p = (toList p, R) := by
  obtain ⟨h₁, q, hq, -, -, h₂⟩ := h.collectAll_ends hp
  exact Prod.ext h₁ (h₂.trans (hfin _ (h.pull_inv q hq)))

end Streams

end Producer

namespace Source

variable {α ρ : Type}

/-- The elements of a source not yet pulled. -/
def remaining (s : Source α ρ) : List α :=
  (List.ofFn s.item).drop s.pulled

theorem pull_spec (s : Source α ρ) :
    (Source.pull s).1 = s.remaining.head? ∧ (Source.pull s).2.remaining = s.remaining.tail ∧
      (Source.pull s).2.result = s.result := by
  unfold Source.pull
  by_cases hlt : s.pulled < s.count
  · rw [dif_pos hlt]
    simp [remaining, List.tail_drop, hlt]
  · rw [dif_neg hlt]
    simp only [remaining, List.tail_drop]
    rw [List.drop_of_length_le (by simp; omega), List.drop_of_length_le (by simp; omega)]
    simp

/-- A source streams the elements it has not yielded yet. -/
theorem streams : Producer.Streams (π := Source α ρ) remaining (fun _ ↦ True) where
  pull_fst s _ := (pull_spec s).1
  pull_snd s _ := (pull_spec s).2.1
  pull_inv _ _ := trivial
  length_le_supply s _ := by
    show ((List.ofFn s.item).drop s.pulled).length ≤ s.count - s.pulled
    simp

/-- A source streams the elements it has not yielded yet, and keeps its result. -/
theorem streams_to (R : ρ) :
    Producer.Streams (π := Source α ρ) remaining (fun s ↦ s.result = R) where
  pull_fst s _ := (pull_spec s).1
  pull_snd s _ := (pull_spec s).2.1
  pull_inv s hs := (pull_spec s).2.2.trans hs
  length_le_supply s _ := streams.length_le_supply s trivial

/-- Pulling never changes the result of a source. -/
theorem finish_pullUpTo (n : Nat) (s : Source α ρ) :
    Producer.finish (Producer.pullUpTo n s).2 = s.result := by
  induction n generalizing s with
  | zero => rfl
  | succ n ih =>
    unfold Producer.pullUpTo
    have hres : (Producer.pull s).2.result = s.result := (pull_spec s).2.2
    rcases hd : Producer.pull s with ⟨_ | a, s'⟩ <;> rw [hd] at hres
    · exact hres
    · exact (ih s').trans hres

@[simp] theorem remaining_ofList (items : List α) (result : ρ) :
    (ofList items result).remaining = items := by
  simp [remaining, ofList, List.ofFn_getElem]

end Source

namespace Cursor

variable {π α ρ : Type} [Producer π α ρ]

/-- The list a cursor reads as: its pushback stack, then what its producer still streams, unless
the producer has already ended. -/
def contents (toList : π → List α) (c : Cursor π α) : List α :=
  c.stack ++ if c.exhausted then [] else toList c.producer

variable {toList : π → List α} {Inv : π → Prop}

theorem draw_spec (h : Producer.Streams toList Inv) (c : Cursor π α) (hc : Inv c.producer) :
    (draw c).1 = (contents toList c).head? ∧
      contents toList (draw c).2 = (contents toList c).tail ∧ Inv (draw c).2.producer := by
  unfold draw contents
  cases hs : c.stack with
  | cons a rest => simp [hc]
  | nil =>
    cases hx : c.exhausted with
    | true => simp [hs, hx, hc]
    | false =>
      have hfst := h.pull_fst c.producer hc
      have hsnd := h.pull_snd c.producer hc
      have hinv := h.pull_inv c.producer hc
      rcases hd : Producer.pull c.producer with ⟨_ | a, p⟩ <;> rw [hd] at hfst hsnd hinv <;>
        dsimp only at hfst hsnd hinv
      · have hnil : toList c.producer = [] := List.head?_eq_none_iff.mp hfst.symm
        simp [hnil, hinv]
      · simp [hfst, hsnd, hinv]

@[simp] theorem contents_undraw (a : α) (c : Cursor π α) :
    contents toList (undraw a c) = a :: contents toList c :=
  rfl

/-- A peek returns the head of the list and leaves the list as it was. -/
theorem peek_spec (h : Producer.Streams toList Inv) (c : Cursor π α) (hc : Inv c.producer) :
    (peek c).1 = (contents toList c).head? ∧ contents toList (peek c).2 = contents toList c ∧
      Inv (peek c).2.producer := by
  unfold peek
  cases hs : c.stack with
  | cons a rest => simp [contents, hs, hc]
  | nil =>
    have hd := draw_spec h c hc
    rcases hdr : draw c with ⟨_ | a, c'⟩ <;> rw [hdr] at hd <;> dsimp only at hd
    · obtain ⟨hfst, hsnd, hinv⟩ := hd
      have hnil : contents toList c = [] := List.head?_eq_none_iff.mp hfst.symm
      simp [hnil, hsnd, hinv]
    · obtain ⟨hfst, hsnd, hinv⟩ := hd
      cases hl : contents toList c with
      | nil => simp [hl] at hfst
      | cons b l =>
        simp only [hl, List.head?_cons, Option.some.injEq, List.tail_cons] at hfst hsnd
        subst hfst
        exact ⟨rfl, by simp [hsnd], hinv⟩

/-- A cursor over a producer that streams a list reads as its pushback stack followed by that
list. -/
theorem lifo (h : Producer.Streams toList Inv) :
    Context.Lifo (σ := Cursor π α) (contents toList) (fun c ↦ Inv c.producer) where
  draw_fst c hc := (draw_spec h c hc).1
  draw_snd c hc := (draw_spec h c hc).2.1
  draw_inv c hc := (draw_spec h c hc).2.2
  undraw_toList a c _ := contents_undraw a c
  undraw_inv _ _ hc := hc
  peek_fst c hc := (peek_spec h c hc).1
  peek_snd c hc := (peek_spec h c hc).2.1
  peek_inv c hc := (peek_spec h c hc).2.2
  length_le_supply c hc := by
    show (contents toList c).length ≤ supply c
    unfold contents supply
    cases c.exhausted
    · simpa using h.length_le_supply c.producer hc
    · simp

/-- Read as a producer, a cursor streams the same list. -/
theorem streams (h : Producer.Streams toList Inv) :
    Producer.Streams (π := Cursor π α) (contents toList) (fun c ↦ Inv c.producer) where
  pull_fst c hc := (draw_spec h c hc).1
  pull_snd c hc := (draw_spec h c hc).2.1
  pull_inv c hc := (draw_spec h c hc).2.2
  length_le_supply c hc := (lifo h).length_le_supply c hc

end Cursor

end Spool
