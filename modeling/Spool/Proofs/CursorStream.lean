import Mathlib.Data.Seq.Basic
import Spool.Proofs.Lifo

/-!
# Cursors read as streams

A producer, pulled again and again from a state `p`, yields a sequence of elements that ends at its
first `none` or goes on for ever: `Producer.yields p`, a `Stream'.Seq`. A cursor over any producer,
finite or not, reads as its pushback stack, newest first, followed by what its producer still
yields, unless the producer has already ended (`Cursor.stream`). On every state of every cursor a
draw takes the head of that sequence, a push back puts its element in front and a peek shows the
head and changes nothing (`Cursor.lifoSeq`), so every context operation acts on the sequence as on
a stack.

The cursor pulls lazily. Each draw or peek pulls the producer once when the stack is empty and the
producer has not ended, and not otherwise; a push back never pulls (`Cursor.pulls_draw`,
`Cursor.pulls_undraw`, `Cursor.pulls_peek`). So a cursor started on `p₀` has pulled it exactly once
per element it has received, and once more, finding the end, only if it is exhausted
(`Cursor.PulledFrom`); what it reads as is its stack followed by the elements of `p₀` not yet
pulled (`Cursor.PulledFrom.stream_eq`).

For a producer that streams a finite list, the cursor pulls all of it before it is exhausted, and
reading the cursor to its end yields its stack, the elements not yet pulled and then the result the
producer itself ends with (`Cursor.PulledFrom.collectAll_eq`). `Cursor.Drawn` follows a script of
draws, peeks and push backs of the element drawn last: the elements drawn and not pushed back,
followed by what the cursor reads as, are what the producer yields (`Cursor.Drawn.append_stream`),
so with the rest read to the end they are the whole list (`Cursor.Drawn.collectAll`).
`Cursor.refines_lazy_stream` gathers these facts.
-/

set_option autoImplicit false

namespace Spool

open Stream'

namespace Producer

variable {π α ρ : Type} [Producer π α ρ]

/-- The state after `k` pulls. -/
def advance (k : Nat) (p : π) : π :=
  (fun q ↦ (pull q).2)^[k] p

/-- The elements yielded from the state `p`, pulled one after another up to the first `none`. -/
def yields (p : π) : Seq α :=
  Seq.corec (fun q ↦ (pull q).1.map fun a ↦ (a, (pull q).2)) p

@[simp] theorem advance_zero (p : π) : advance 0 p = p := rfl

theorem advance_succ (k : Nat) (p : π) : advance (k + 1) p = advance k (pull p).2 :=
  Function.iterate_succ_apply _ k p

theorem advance_succ' (k : Nat) (p : π) : advance (k + 1) p = (pull (advance k p)).2 :=
  Function.iterate_succ_apply' _ k p

theorem yields_of_pull_none {p : π} (h : (pull p).1 = none) : yields p = Seq.nil :=
  Seq.corec_nil _ _ (by simp [h])

theorem yields_of_pull_some {p : π} {a : α} (h : (pull p).1 = some a) :
    yields p = Seq.cons a (yields (pull p).2) :=
  Seq.corec_cons (by simp [h])

@[simp] theorem head_yields (p : π) : (yields p).head = (pull p).1 := by
  rcases h : (pull p).1 with _ | a
  · rw [yields_of_pull_none h, Seq.head_nil]
  · rw [yields_of_pull_some h, Seq.head_cons]

/-- After `k` pulls that each yielded an element, what is left to yield is the sequence less its
first `k` elements. -/
theorem yields_advance {k : Nat} {p : π}
    (h : ∀ j < k, (pull (advance j p)).1.isSome) : yields (advance k p) = (yields p).drop k := by
  induction k generalizing p with
  | zero => rfl
  | succ k ih =>
    obtain ⟨a, ha⟩ := Option.isSome_iff_exists.mp (h 0 (Nat.zero_lt_succ k))
    have hrest : ∀ j < k, (pull (advance j (pull p).2)).1.isSome := fun j hj ↦ by
      simpa [advance_succ] using h (j + 1) (by omega)
    rw [advance_succ, ih hrest, yields_of_pull_some (p := p) ha, Seq.drop_succ_cons]

namespace Streams

variable {toList : π → List α} {Inv : π → Prop}

/-- A producer streams its list on the states of `Inv` that also satisfy a property its pulls
keep. -/
theorem and_inv (h : Streams toList Inv) {K : π → Prop} (hK : ∀ p, Inv p → K p → K (pull p).2) :
    Streams toList (fun p ↦ Inv p ∧ K p) where
  pull_fst p hp := h.pull_fst p hp.1
  pull_snd p hp := h.pull_snd p hp.1
  pull_inv p hp := ⟨h.pull_inv p hp.1, hK p hp.1 hp.2⟩
  length_le_supply p hp := h.length_le_supply p hp.1

/-- After `k` pulls the producer streams its list less the first `k` elements. -/
theorem advance_spec (h : Streams toList Inv) (k : Nat) {p : π} (hp : Inv p) :
    toList (advance k p) = (toList p).drop k ∧ Inv (advance k p) := by
  induction k with
  | zero => exact ⟨rfl, hp⟩
  | succ k ih =>
    rw [advance_succ', h.pull_snd _ ih.2, ih.1, List.tail_drop]
    exact ⟨rfl, h.pull_inv _ ih.2⟩

/-- The pull after `k` pulls answers the `k`-th element of the list. -/
theorem pull_advance (h : Streams toList Inv) (k : Nat) {p : π} (hp : Inv p) :
    (pull (advance k p)).1 = (toList p)[k]? := by
  obtain ⟨hl, hinv⟩ := h.advance_spec k hp
  rw [h.pull_fst _ hinv, hl, List.head?_drop]

/-- A producer that streams a list yields exactly that list. -/
theorem yields_eq (h : Streams toList Inv) {p : π} (hp : Inv p) :
    yields p = Seq.ofList (toList p) := by
  generalize hl : toList p = l
  induction l generalizing p with
  | nil =>
    rw [yields_of_pull_none (by rw [h.pull_fst p hp, hl]; rfl)]
    rfl
  | cons a l ih =>
    have hfst : (pull p).1 = some a := by rw [h.pull_fst p hp, hl]; rfl
    have hrest : toList (pull p).2 = l := by rw [h.pull_snd p hp, hl]; rfl
    rw [yields_of_pull_some hfst, ih (h.pull_inv p hp) hrest, Seq.ofList_cons]

/-- Pulling past the end leaves the producer after one pull per element and one more. -/
theorem pullUpTo_snd (h : Streams toList Inv) {n : Nat} {p : π} (hp : Inv p)
    (hn : (toList p).length < n) : (pullUpTo n p).2 = advance ((toList p).length + 1) p := by
  induction n generalizing p with
  | zero => omega
  | succ n ih =>
    unfold pullUpTo
    have hfst := h.pull_fst p hp
    have hsnd := h.pull_snd p hp
    rcases hd : pull p with ⟨_ | a, p'⟩ <;> rw [hd] at hfst hsnd <;> dsimp only at hfst hsnd
    · have hnil : toList p = [] := List.head?_eq_none_iff.mp hfst.symm
      rw [hnil, List.length_nil, Nat.zero_add, advance_succ, advance_zero, hd]
    · have hp' : Inv p' := by simpa [hd] using h.pull_inv p hp
      have hlen : (toList p).length = (toList p').length + 1 := by
        rw [hsnd, List.length_tail]
        have : 0 < (toList p).length := List.length_pos_iff.mpr (by
          intro hnil; rw [hnil] at hfst; cases hfst)
        omega
      rw [hlen, advance_succ, hd]
      exact ih hp' (by omega)

/-- The result of a producer read to its end is its result after one pull per element and one
more. -/
theorem drain_eq (h : Streams toList Inv) {p : π} (hp : Inv p) :
    drain p = finish (advance ((toList p).length + 1) p) := by
  have hlen : (toList p).length < supply p + 1 := by
    have := h.length_le_supply p hp
    omega
  rw [drain, elements, h.pullUpTo_snd hp hlen]

end Streams

end Producer

namespace Context

variable {σ α : Type} [Context σ α]

/-- On the states satisfying `Inv`, the context behaves as the sequence `toSeq s`, finite or
infinite: a draw returns the head and leaves the tail, a push back puts the element in front, and a
peek returns the head and leaves the sequence as it was. Every operation keeps `Inv`. -/
structure LifoSeq (toSeq : σ → Seq α) (Inv : σ → Prop) : Prop where
  draw_fst : ∀ s, Inv s → (draw s).1 = (toSeq s).head
  draw_snd : ∀ s, Inv s → toSeq (draw s).2 = (toSeq s).tail
  draw_inv : ∀ s, Inv s → Inv (draw s).2
  undraw_toSeq : ∀ a s, Inv s → toSeq (undraw a s) = Seq.cons a (toSeq s)
  undraw_inv : ∀ a s, Inv s → Inv (undraw a s)
  peek_fst : ∀ s, Inv s → (peek s).1 = (toSeq s).head
  peek_snd : ∀ s, Inv s → toSeq (peek s).2 = toSeq s
  peek_inv : ∀ s, Inv s → Inv (peek s).2

namespace LifoSeq

variable {toSeq : σ → Seq α} {Inv : σ → Prop}

/-- `isEnd` tells whether the sequence is empty and changes nothing. -/
theorem isEnd_spec (h : LifoSeq toSeq Inv) {s : σ} (hs : Inv s) :
    (isEnd s).1 = (toSeq s).head.isNone ∧ toSeq (isEnd s).2 = toSeq s ∧ Inv (isEnd s).2 :=
  ⟨by rw [← h.peek_fst s hs]; rfl, h.peek_snd s hs, h.peek_inv s hs⟩

/-- `skip` tells whether the sequence was not empty and drops its head. -/
theorem skip_spec (h : LifoSeq toSeq Inv) {s : σ} (hs : Inv s) :
    (skip s).1 = (toSeq s).head.isSome ∧ toSeq (skip s).2 = (toSeq s).tail ∧ Inv (skip s).2 :=
  ⟨by rw [← h.draw_fst s hs]; rfl, h.draw_snd s hs, h.draw_inv s hs⟩

/-- `drawIf` takes the head when it satisfies the condition, and otherwise leaves the sequence as
it was. -/
theorem drawIf_spec (h : LifoSeq toSeq Inv) (p : α → Bool) {s : σ} (hs : Inv s) :
    (drawIf p s).1 = (toSeq s).head.filter p ∧
      toSeq (drawIf p s).2 = (if (toSeq s).head.any p then (toSeq s).tail else toSeq s) ∧
      Inv (drawIf p s).2 := by
  have hfst := h.draw_fst s hs
  have hsnd := h.draw_snd s hs
  have hinv := h.draw_inv s hs
  unfold drawIf
  rcases hd : draw s with ⟨_ | a, s'⟩ <;> rw [hd] at hfst hsnd hinv <;> dsimp only at hfst hsnd hinv
  · -- nothing is left
    have hnil : toSeq s = Seq.nil := Seq.head_eq_none hfst.symm
    exact ⟨by simp [hnil], by simp [hsnd, hnil], hinv⟩
  · -- the head is drawn, and goes back when it fails the condition
    have hcons : toSeq s = Seq.cons a (toSeq s') := by
      rw [hsnd]
      exact Seq.head_eq_some hfst.symm
    by_cases hp : p a
    · simp [hcons, Option.filter, hp, hinv]
    · simp [hcons, Option.filter, hp, h.undraw_toSeq a s' hinv, h.undraw_inv a s' hinv]

end LifoSeq

/-- `Inv` is kept by draws, push backs and peeks, and so by every operation built from them. -/
structure Keeps (Inv : σ → Prop) : Prop where
  draw_inv : ∀ s, Inv s → Inv (draw s).2
  undraw_inv : ∀ a s, Inv s → Inv (undraw a s)
  peek_inv : ∀ s, Inv s → Inv (peek s).2

namespace Keeps

variable {Inv : σ → Prop}

theorem isEnd (h : Keeps Inv) {s : σ} (hs : Inv s) : Inv (isEnd s).2 :=
  h.peek_inv s hs

theorem skip (h : Keeps Inv) {s : σ} (hs : Inv s) : Inv (skip s).2 :=
  h.draw_inv s hs

theorem drawIf (h : Keeps Inv) (p : α → Bool) {s : σ} (hs : Inv s) : Inv (drawIf p s).2 := by
  have hd := h.draw_inv s hs
  unfold Context.drawIf
  rcases hr : draw s with ⟨_ | a, s'⟩ <;> rw [hr] at hd
  · exact hd
  · by_cases hp : p a
    · simpa [hp] using hd
    · simpa [hp] using h.undraw_inv a s' hd

theorem drawUpTo (h : Keeps Inv) (n : Nat) {s : σ} (hs : Inv s) : Inv (drawUpTo n s).2 := by
  induction n generalizing s with
  | zero => exact hs
  | succ n ih =>
    have hd := h.draw_inv s hs
    unfold Context.drawUpTo
    rcases hr : draw s with ⟨_ | a, s'⟩ <;> rw [hr] at hd
    · exact hd
    · exact ih hd

theorem drawAll (h : Keeps Inv) {s : σ} (hs : Inv s) : Inv (drawAll s).2 :=
  h.drawUpTo _ hs

theorem foldUpTo {β : Type} (h : Keeps Inv) (step : β → α → β) (n : Nat) (acc : β) {s : σ}
    (hs : Inv s) : Inv (foldUpTo step n acc s).2 := by
  induction n generalizing s acc with
  | zero => exact hs
  | succ n ih =>
    have hd := h.draw_inv s hs
    unfold Context.foldUpTo
    rcases hr : draw s with ⟨_ | a, s'⟩ <;> rw [hr] at hd
    · exact hd
    · exact ih _ hd

theorem foldAll {β : Type} (h : Keeps Inv) (step : β → α → β) (init : β) {s : σ} (hs : Inv s) :
    Inv (foldAll step init s).2 :=
  h.foldUpTo step _ init hs

end Keeps

end Context

namespace Cursor

variable {π α ρ : Type} [Producer π α ρ]

open Producer

/-- What a cursor reads as: its pushback stack, newest first, then what its producer still yields,
unless the producer has already ended. -/
def stream (c : Cursor π α) : Seq α :=
  Seq.append (Seq.ofList c.stack) (if c.exhausted then Seq.nil else yields c.producer)

@[simp] theorem stream_undraw (a : α) (c : Cursor π α) :
    (undraw a c).stream = Seq.cons a c.stream := by
  show Seq.append (Seq.ofList (a :: c.stack)) _ = _
  rw [Seq.ofList_cons, Seq.cons_append]
  rfl

@[simp] theorem stream_ofProducer (p : π) : (ofProducer p : Cursor π α).stream = yields p := by
  simp [stream, ofProducer, Seq.nil_append]

theorem draw_of_cons {c : Cursor π α} {a : α} {rest : List α} (hs : c.stack = a :: rest) :
    draw c = (some a, { c with stack := rest }) := by
  simp [draw, hs]

theorem draw_of_exhausted {c : Cursor π α} (hs : c.stack = []) (hx : c.exhausted = true) :
    draw c = (none, c) := by
  simp [draw, hs, hx]

theorem draw_of_pull_none {c : Cursor π α} {q : π} (hs : c.stack = [])
    (hx : c.exhausted = false) (hp : pull c.producer = (none, q)) :
    draw c = (none, { c with producer := q, exhausted := true }) := by
  simp [draw, hs, hx, hp]

theorem draw_of_pull_some {c : Cursor π α} {a : α} {q : π} (hs : c.stack = [])
    (hx : c.exhausted = false) (hp : pull c.producer = (some a, q)) :
    draw c = (some a, { c with producer := q, pulled := c.pulled + 1 }) := by
  simp [draw, hs, hx, hp]

/-- A draw takes the head of what the cursor reads as and leaves the tail, whatever the state. -/
theorem draw_stream (c : Cursor π α) :
    (draw c).1 = c.stream.head ∧ (draw c).2.stream = c.stream.tail := by
  cases hs : c.stack with
  | cons a rest => simp [draw_of_cons hs, stream, hs, Seq.cons_append]
  | nil =>
    cases hx : c.exhausted with
    | true => simp [draw_of_exhausted hs hx, stream, hs, hx]
    | false =>
      rcases hp : pull c.producer with ⟨_ | a, q⟩
      · -- the producer ends here
        have hnil : yields c.producer = Seq.nil := yields_of_pull_none (by rw [hp])
        simp [draw_of_pull_none hs hx hp, stream, hs, hx, hnil]
      · -- the producer yields its next element
        have hcons : yields c.producer = Seq.cons a (yields q) := by
          rw [yields_of_pull_some (by rw [hp]), hp]
        simp [draw_of_pull_some hs hx hp, stream, hs, hx, hcons]

/-- A peek shows the head of what the cursor reads as and changes nothing it reads as. -/
theorem peek_stream (c : Cursor π α) :
    (peek c).1 = c.stream.head ∧ (peek c).2.stream = c.stream := by
  unfold peek
  cases hs : c.stack with
  | cons a rest => simp [stream, hs, Seq.cons_append]
  | nil =>
    obtain ⟨hfst, hsnd⟩ := draw_stream c
    rcases hd : draw c with ⟨_ | a, c'⟩ <;> rw [hd] at hfst hsnd <;> dsimp only at hfst hsnd ⊢
    · -- nothing is left, and the failed draw changes nothing the cursor reads as
      have hnil : c.stream = Seq.nil := Seq.head_eq_none hfst.symm
      exact ⟨hfst, by rw [hsnd, hnil, Seq.tail_nil]⟩
    · -- the element drawn goes back in front of the tail
      exact ⟨hfst, by rw [stream_undraw, hsnd]; exact (Seq.head_eq_some hfst.symm).symm⟩

/-- Every cursor, over every producer, reads as its stream on every state. -/
theorem lifoSeq : Context.LifoSeq (σ := Cursor π α) stream (fun _ ↦ True) where
  draw_fst c _ := (draw_stream c).1
  draw_snd c _ := (draw_stream c).2
  draw_inv _ _ := trivial
  undraw_toSeq a c _ := stream_undraw a c
  undraw_inv _ _ _ := trivial
  peek_fst c _ := (peek_stream c).1
  peek_snd c _ := (peek_stream c).2
  peek_inv _ _ := trivial

/-- How many times the cursor has pulled its producer: once per element received, and once more
if it found the end. -/
def pulls (c : Cursor π α) : Nat :=
  c.pulled + if c.exhausted then 1 else 0

/-- A draw pulls the producer once when the stack is empty and the producer has not ended, and
not otherwise. -/
theorem pulls_draw (c : Cursor π α) :
    (draw c).2.pulls = c.pulls + if c.stack.isEmpty && !c.exhausted then 1 else 0 := by
  cases hs : c.stack with
  | cons a rest => simp [draw_of_cons hs, pulls]
  | nil =>
    cases hx : c.exhausted with
    | true => simp [draw_of_exhausted hs hx]
    | false =>
      rcases hp : pull c.producer with ⟨_ | a, q⟩
      · simp [draw_of_pull_none hs hx hp, pulls, hx]
      · simp [draw_of_pull_some hs hx hp, pulls, hx]

@[simp] theorem pulls_undraw (a : α) (c : Cursor π α) : (undraw a c).pulls = c.pulls :=
  rfl

/-- A peek pulls exactly as a draw does: the element it pulls waits on the stack. -/
theorem pulls_peek (c : Cursor π α) :
    (peek c).2.pulls = c.pulls + if c.stack.isEmpty && !c.exhausted then 1 else 0 := by
  have hd := pulls_draw c
  unfold peek
  cases hs : c.stack with
  | cons a rest => simp
  | nil =>
    rw [hs] at hd
    rcases hr : draw c with ⟨_ | a, c'⟩ <;> rw [hr] at hd
    · exact hd
    · exact hd

/-- The cursor has pulled its producer, from the state `p₀`, `pulls c` times and stands where those
pulls leave it: each of the first `pulled` pulls yielded an element, and the pull after them, made
only once the cursor is exhausted, yielded none. -/
structure PulledFrom (p₀ : π) (c : Cursor π α) : Prop where
  producer_eq : c.producer = advance c.pulls p₀
  yielded : ∀ k < c.pulled, (pull (advance k p₀)).1.isSome
  ended : c.exhausted = true → (pull (advance c.pulled p₀)).1 = none

namespace PulledFrom

variable {p₀ : π}

theorem ofProducer (p₀ : π) : PulledFrom p₀ (ofProducer p₀ : Cursor π α) :=
  ⟨rfl, fun _ hk ↦ absurd hk (Nat.not_lt_zero _), fun hx ↦ absurd hx (by simp [Cursor.ofProducer])⟩

theorem draw {c : Cursor π α} (h : PulledFrom p₀ c) : PulledFrom p₀ (draw c).2 := by
  obtain ⟨hprod, hyield, hend⟩ := h
  cases hs : c.stack with
  | cons a rest => rw [draw_of_cons hs]; exact ⟨hprod, hyield, hend⟩
  | nil =>
    cases hx : c.exhausted with
    | true => rw [draw_of_exhausted hs hx]; exact ⟨hprod, hyield, hend⟩
    | false =>
      -- the producer stands after `pulled` pulls, and this draw pulls it once more
      have hat : c.producer = advance c.pulled p₀ := by simpa [pulls, hx] using hprod
      rcases hp : pull c.producer with ⟨_ | a, q⟩
      · rw [draw_of_pull_none hs hx hp]
        refine ⟨?_, hyield, fun _ ↦ by rw [← hat, hp]⟩
        show q = advance (c.pulled + 1) p₀
        rw [advance_succ', ← hat, hp]
      · rw [draw_of_pull_some hs hx hp]
        refine ⟨?_, fun k hk ↦ ?_, fun h ↦ absurd h (by simp [hx])⟩
        · show q = advance (c.pulled + 1 + if c.exhausted then 1 else 0) p₀
          rw [hx, if_neg (by simp), Nat.add_zero, advance_succ', ← hat, hp]
        · rcases Nat.lt_succ_iff_lt_or_eq.mp hk with hk | rfl
          · exact hyield k hk
          · rw [← hat, hp]
            rfl

theorem undraw {c : Cursor π α} (h : PulledFrom p₀ c) (a : α) : PulledFrom p₀ (undraw a c) :=
  ⟨h.producer_eq, h.yielded, h.ended⟩

theorem peek {c : Cursor π α} (h : PulledFrom p₀ c) : PulledFrom p₀ (peek c).2 := by
  have hd := h.draw
  unfold Cursor.peek
  cases hs : c.stack with
  | cons a rest => exact h
  | nil =>
    rcases hr : Cursor.draw c with ⟨_ | a, c'⟩ <;> rw [hr] at hd
    · exact hd
    · exact hd.undraw a

/-- Every operation keeps the pull accounting. -/
theorem keeps (p₀ : π) : Context.Keeps (σ := Cursor π α) (PulledFrom p₀) :=
  ⟨fun _ h ↦ h.draw, fun a _ h ↦ h.undraw a, fun _ h ↦ h.peek⟩

/-- What the cursor reads as is its stack, then the elements of `p₀` not yet pulled. -/
theorem stream_eq {c : Cursor π α} (h : PulledFrom p₀ c) :
    c.stream = Seq.append (Seq.ofList c.stack) ((yields p₀).drop c.pulled) := by
  unfold stream
  congr 1
  cases hx : c.exhausted with
  | true =>
    rw [← yields_advance h.yielded, yields_of_pull_none (h.ended hx)]
    rfl
  | false =>
    have hat : c.producer = advance c.pulled p₀ := by simpa [pulls, hx] using h.producer_eq
    rw [← yields_advance h.yielded, ← hat]
    rfl

end PulledFrom

/-- A draw that answers `none` leaves the cursor exhausted, with nothing pushed back. -/
theorem ended_of_draw_none {c : Cursor π α} (h : (draw c).1 = none) :
    (draw c).2.stack = [] ∧ (draw c).2.exhausted = true := by
  cases hs : c.stack with
  | cons a rest => rw [draw_of_cons hs] at h; cases h
  | nil =>
    cases hx : c.exhausted with
    | true => rw [draw_of_exhausted hs hx]; exact ⟨hs, hx⟩
    | false =>
      rcases hp : pull c.producer with ⟨_ | a, q⟩
      · rw [draw_of_pull_none hs hx hp]; exact ⟨hs, rfl⟩
      · rw [draw_of_pull_some hs hx hp] at h; cases h

section Finite

variable {toList : π → List α} {Inv : π → Prop}

/-- Over a producer that streams a list, what a cursor reads as is the list it reads as. -/
theorem stream_eq_contents (h : Streams toList Inv) {c : Cursor π α} (hc : Inv c.producer) :
    c.stream = Seq.ofList (contents toList c) := by
  unfold stream contents
  rw [Seq.ofList_append]
  cases c.exhausted
  · rw [if_neg (by simp), if_neg (by simp), h.yields_eq hc]
  · rw [if_pos rfl, if_pos rfl, Seq.ofList_nil]

namespace PulledFrom

variable {p₀ : π} {c : Cursor π α}

theorem producer_inv (h : Streams toList Inv) (hp : Inv p₀) (hc : PulledFrom p₀ c) :
    Inv c.producer := by
  rw [hc.producer_eq]
  exact (h.advance_spec _ hp).2

/-- An exhausted cursor over a producer that streams a list has pulled all of it. -/
theorem pulled_eq_length (h : Streams toList Inv) (hp : Inv p₀) (hc : PulledFrom p₀ c)
    (hx : c.exhausted = true) : c.pulled = (toList p₀).length := by
  have hend : (toList p₀).length ≤ c.pulled := by
    simpa [h.pull_advance _ hp] using hc.ended hx
  by_contra hne
  -- the pull at the list's length yielded an element, past the end of the list
  have hsome := hc.yielded (toList p₀).length (by omega)
  simp [h.pull_advance _ hp] at hsome

/-- Over a producer that streams a list, the cursor reads as its stack and then the elements of
the list not yet pulled. -/
theorem contents_eq (h : Streams toList Inv) (hp : Inv p₀) (hc : PulledFrom p₀ c) :
    contents toList c = c.stack ++ (toList p₀).drop c.pulled := by
  unfold contents
  cases hx : c.exhausted with
  | true => simp [hc.pulled_eq_length h hp hx]
  | false =>
    have hat : c.producer = advance c.pulled p₀ := by simpa [pulls, hx] using hc.producer_eq
    rw [if_neg (by simp), hat, (h.advance_spec _ hp).1]

/-- A cursor over a producer that streams a list, read to its end, yields its stack and the
elements not yet pulled, and then the result the producer itself ends with. -/
theorem collectAll_eq (h : Streams toList Inv) (hp : Inv p₀) (hc : PulledFrom p₀ c) :
    Producer.collectAll c = (c.stack ++ (toList p₀).drop c.pulled, drain p₀) := by
  -- read as a producer, the cursor streams its contents and keeps the pull accounting
  have hs : Streams (π := Cursor π α) (contents toList)
      (fun c ↦ Inv c.producer ∧ PulledFrom p₀ c) :=
    (Cursor.streams h).and_inv fun _ _ hc ↦ hc.draw
  obtain ⟨hitems, q, ⟨-, hq⟩, -, hnone, hres⟩ := hs.collectAll_ends ⟨hc.producer_inv h hp, hc⟩
  -- the last pull found the end, so it left the cursor exhausted after the whole list
  have hx : (Cursor.draw q).2.exhausted = true := (ended_of_draw_none hnone).2
  have hq' : PulledFrom p₀ (Cursor.draw q).2 := hq.draw
  refine Prod.ext (hitems.trans (hc.contents_eq h hp)) (hres.trans ?_)
  show finish (Cursor.draw q).2.producer = drain p₀
  rw [hq'.producer_eq, pulls, hx, if_pos rfl, hq'.pulled_eq_length h hp hx, h.drain_eq hp]

end PulledFrom

end Finite

/-- The run of a script of draws, peeks and push backs of the element drawn last, on a cursor
started on `p₀`. `taken` lists the elements drawn and not pushed back, in the order drawn. -/
inductive Drawn (p₀ : π) : List α → Cursor π α → Prop
  | start : Drawn p₀ [] (ofProducer p₀)
  | draw {taken : List α} {c : Cursor π α} :
      Drawn p₀ taken c → Drawn p₀ (taken ++ (draw c).1.toList) (draw c).2
  | peek {taken : List α} {c : Cursor π α} : Drawn p₀ taken c → Drawn p₀ taken (peek c).2
  | pushBack {taken : List α} {c : Cursor π α} {a : α} :
      Drawn p₀ (taken ++ [a]) c → Drawn p₀ taken (undraw a c)

/-- A sequence is its head, if any, followed by its tail. -/
theorem append_head_tail (s : Seq α) : Seq.append (Seq.ofList s.head.toList) s.tail = s := by
  rcases hs : s.head with _ | a
  · rw [Seq.head_eq_none hs, Seq.tail_nil]
    exact Seq.nil_append _
  · rw [Option.toList_some, Seq.ofList_cons, Seq.ofList_nil, Seq.cons_append, Seq.nil_append]
    exact (Seq.head_eq_some hs).symm

namespace Drawn

variable {p₀ : π} {taken : List α} {c : Cursor π α}

/-- No element is lost: what was drawn and kept, followed by what the cursor reads as, is what the
producer yields. -/
theorem append_stream (h : Drawn p₀ taken c) :
    Seq.append (Seq.ofList taken) c.stream = yields p₀ := by
  induction h with
  | start => rw [stream_ofProducer, Seq.ofList_nil, Seq.nil_append]
  | @draw taken c _ ih =>
    rw [Seq.ofList_append, Seq.append_assoc, (draw_stream c).1, (draw_stream c).2,
      append_head_tail, ih]
  | @peek taken c _ ih => rw [(peek_stream c).2, ih]
  | @pushBack taken c a _ ih =>
    rw [stream_undraw, ← ih, Seq.ofList_append, Seq.append_assoc, Seq.ofList_cons, Seq.ofList_nil,
      Seq.cons_append, Seq.nil_append]

theorem pulledFrom (h : Drawn p₀ taken c) : PulledFrom p₀ c := by
  induction h with
  | start => exact PulledFrom.ofProducer p₀
  | draw _ ih => exact ih.draw
  | peek _ ih => exact ih.peek
  | pushBack _ ih => exact ih.undraw _

/-- Over a producer that streams a list, what was drawn and kept, followed by what reading the
cursor to its end yields, is the whole list, and the result is the producer's own. -/
theorem collectAll {toList : π → List α} {Inv : π → Prop} (h : Streams toList Inv) (hp : Inv p₀)
    (hd : Drawn p₀ taken c) :
    taken ++ (Producer.collectAll c).1 = toList p₀ ∧ (Producer.collectAll c).2 = drain p₀ := by
  have hc := hd.pulledFrom
  rw [hc.collectAll_eq h hp, ← hc.contents_eq h hp]
  refine ⟨Seq.ofList_injective ?_, rfl⟩
  rw [Seq.ofList_append, ← stream_eq_contents h (hc.producer_inv h hp), hd.append_stream,
    h.yields_eq hp]

end Drawn

/-- A cursor refines a lazy stack over its producer and loses nothing.

Every state of every cursor reads as a sequence on which draws, push backs and peeks act as on a
stack. A cursor started on `p₀` reads as what `p₀` yields and has pulled nothing; every operation
keeps its pull accounting, and only a draw or a peek on an empty stack before the producer ended
pulls, once; so the cursor reads as its pending elements, last first, followed by the elements of
`p₀` not yet pulled. Along every script of draws, peeks and push backs of the element drawn last,
the elements kept followed by what the cursor reads as are what `p₀` yields. When `p₀` streams a
finite list, the cursor reads as a list on which every operation acts as on a stack, and reading it
to its end yields its pending elements and the rest of the list, then `p₀`'s own result. -/
theorem refines_lazy_stream :
    Context.LifoSeq (σ := Cursor π α) stream (fun _ ↦ True) ∧
    (∀ p₀ : π, (ofProducer p₀ : Cursor π α).stream = yields p₀ ∧
      PulledFrom p₀ (ofProducer p₀ : Cursor π α) ∧
      Context.Keeps (σ := Cursor π α) (PulledFrom p₀)) ∧
    (∀ c : Cursor π α,
      (draw c).2.pulls = c.pulls + (if c.stack.isEmpty && !c.exhausted then 1 else 0) ∧
      (peek c).2.pulls = c.pulls + (if c.stack.isEmpty && !c.exhausted then 1 else 0) ∧
      ∀ a, (undraw a c).pulls = c.pulls) ∧
    (∀ (p₀ : π) (c : Cursor π α), PulledFrom p₀ c →
      c.stream = Seq.append (Seq.ofList c.pending.reverse) ((yields p₀).drop c.pulled)) ∧
    (∀ (p₀ : π) (taken : List α) (c : Cursor π α), Drawn p₀ taken c →
      Seq.append (Seq.ofList taken) c.stream = yields p₀) ∧
    (∀ (toList : π → List α) (Inv : π → Prop), Streams toList Inv → ∀ p₀, Inv p₀ →
      Context.Lifo (σ := Cursor π α) (contents toList) (fun c ↦ Inv c.producer) ∧
      (∀ c : Cursor π α, PulledFrom p₀ c →
        Producer.collectAll c = (c.pending.reverse ++ (toList p₀).drop c.pulled, drain p₀)) ∧
      ∀ (taken : List α) (c : Cursor π α), Drawn p₀ taken c →
        taken ++ (Producer.collectAll c).1 = toList p₀ ∧ (Producer.collectAll c).2 = drain p₀) := by
  refine ⟨lifoSeq, fun p₀ ↦ ⟨stream_ofProducer p₀, PulledFrom.ofProducer p₀, PulledFrom.keeps p₀⟩,
    fun c ↦ ⟨pulls_draw c, pulls_peek c, fun a ↦ pulls_undraw a c⟩, fun p₀ c hc ↦ ?_,
    fun p₀ taken c hd ↦ hd.append_stream, fun toList Inv h p₀ hp ↦ ⟨lifo h, fun c hc ↦ ?_,
    fun taken c hd ↦ hd.collectAll h hp⟩⟩
  · rw [pending, List.reverse_reverse]
    exact hc.stream_eq
  · rw [pending, List.reverse_reverse]
    exact hc.collectAll_eq h hp

/-- Drawing 1 and 2 from a source of `[1, 2, 3]` ending with `7` and pushing 2 back keeps `[1]`,
and reading the cursor to its end then yields `[2, 3]` and `7`. -/
theorem refines_lazy_stream_of_list :
    let c := undraw 2 (draw (draw (ofProducer (Source.ofList [1, 2, 3] 7) :
      Cursor (Source Nat Nat) Nat)).2).2
    [1] ++ (Producer.collectAll c).1 = [1, 2, 3] ∧ (Producer.collectAll c).2 = 7 := by
  intro c
  obtain ⟨-, -, -, -, -, hfinite⟩ := refines_lazy_stream (π := Source Nat Nat) (α := Nat)
  have hd : Drawn (Source.ofList [1, 2, 3] 7) ([1] ++ [2])
      (draw (draw (ofProducer (Source.ofList [1, 2, 3] 7))).2).2 :=
    Drawn.start.draw.draw
  exact (hfinite Source.remaining (fun s ↦ s.result = 7) (Source.streams_to 7) _ rfl).2.2 [1] c
    hd.pushBack

end Cursor

end Spool
