import Spool.Context.View
import Spool.Proofs.Lifo

/-!
# Views read as lists

A view over a parent that reads as a list `P` reads as a list too. Its first `lent` elements are
the parent's first `lent` elements, pushed back through the view and not drawn again; after them,
unless the view has ended, come the elements of the rest of `P` that the bound admits one by one
from its current state, `Boundary.span`. This is `View.contents`, and `View.lifo` shows that every
operation of the view acts on it as on a list, on the views whose parent holds the lent elements
(`View.Backed`).

The parent is the view's contents followed by what lies beyond the bound (`View.beyond`): the
element that ended the view went back to the parent, and so did everything pushed back through it.
A draw through the view is a draw from the parent (`View.draw_parent`), a push back is a push back
onto it, and a peek leaves it as it was, although a peek with nothing lent advances the bound.
Restarting the view or giving it another bound keeps it backed, and so does running anything that
keeps a nested view backed, so views nest to any depth.
-/

set_option autoImplicit false

namespace Spool

namespace Boundary

variable {β α : Type} [Boundary β α]

/-- The longest prefix of `l` that the bound admits element by element from its state `b`. A bound
that is not open admits nothing. -/
def span (b : β) : List α → List α
  | [] => []
  | a :: l =>
    if isOpen (α := α) b then
      match offer b a with
      | (true, b') => a :: span b' l
      | (false, _) => []
    else []

@[simp] theorem span_nil (b : β) : span b ([] : List α) = [] := rfl

theorem span_cons_of_not_isOpen {b : β} (hb : isOpen (α := α) b = false) (a : α) (l : List α) :
    span b (a :: l) = [] := by
  simp [span, hb]

theorem span_cons_of_admit {b b' : β} {a : α} (hb : isOpen (α := α) b = true)
    (ha : offer b a = (true, b')) (l : List α) : span b (a :: l) = a :: span b' l := by
  simp [span, hb, ha]

theorem span_cons_of_refuse {b b' : β} {a : α} (ha : offer b a = (false, b')) (l : List α) :
    span b (a :: l) = [] := by
  simp [span, ha]

/-- What a bound admits is a prefix of what it is offered. -/
theorem isPrefix_span (b : β) (l : List α) : span b l <+: l := by
  induction l generalizing b with
  | nil => exact List.prefix_refl []
  | cons a l ih =>
    unfold span
    split
    · split
      · exact List.cons_prefix_cons.mpr ⟨rfl, ih _⟩
      · exact List.nil_prefix
    · exact List.nil_prefix

theorem length_span_le (b : β) (l : List α) : (span b l).length ≤ l.length :=
  (isPrefix_span b l).length_le

end Boundary

namespace View

variable {γ β α : Type} [Boundary β α]

section Contents

variable (toList : γ → List α)

/-- What a view reads as: the parent's first `lent` elements, then, unless the view has ended,
what the bound admits of the rest of the parent. -/
def contents (v : View γ β) : List α :=
  (toList v.parent).take v.lent ++
    if v.closed then [] else Boundary.span v.bound ((toList v.parent).drop v.lent)

/-- What lies in the parent beyond the view: after the lent elements, the elements the bound has
not admitted, starting with the one that ended the view. -/
def beyond (v : View γ β) : List α :=
  if v.closed then (toList v.parent).drop v.lent
  else (toList v.parent).drop
    (v.lent + (Boundary.span v.bound ((toList v.parent).drop v.lent)).length)

/-- The parent is the view's contents followed by what lies beyond the view. -/
theorem contents_append_beyond (v : View γ β) :
    contents toList v ++ beyond toList v = toList v.parent := by
  unfold contents beyond
  split
  · simp
  · obtain ⟨t, ht⟩ := Boundary.isPrefix_span v.bound ((toList v.parent).drop v.lent)
    rw [List.append_assoc, ← List.drop_drop]
    generalize Boundary.span v.bound ((toList v.parent).drop v.lent) = S at ht ⊢
    rw [← ht, List.drop_left, ht, List.take_append_drop]

/-- What lies beyond the view is what follows its contents in the parent. -/
theorem beyond_eq_drop (v : View γ β) :
    beyond toList v = (toList v.parent).drop (contents toList v).length := by
  have hsplit := contents_append_beyond toList v
  rw [← hsplit, List.drop_left]

/-- A fresh view reads as what its bound admits of the parent. -/
@[simp] theorem contents_ofBound (s : γ) (b : β) :
    contents toList (ofBound s b) = Boundary.span b (toList s) := by
  simp [contents, ofBound]

/-- A restarted view reads as what its bound, in its current state, admits of the parent. -/
@[simp] theorem contents_restart (v : View γ β) :
    contents toList v.restart = Boundary.span v.bound (toList v.parent) := by
  simp [contents, restart]

/-- Only the list the parent reads as matters to the contents. -/
theorem contents_congr_parent {v : View γ β} {p : γ} (hp : toList p = toList v.parent) :
    contents toList { v with parent := p } = contents toList v := by
  simp [contents, hp]

end Contents

variable [Context γ α] {toList : γ → List α} {I : γ → Prop}

variable (toList I) in
/-- The parent is in a state of its own invariant and holds the elements lent to it. -/
def Backed (v : View γ β) : Prop :=
  I v.parent ∧ v.lent ≤ (toList v.parent).length

omit [Boundary β α] [Context γ α] in
theorem backed_ofBound {s : γ} (hs : I s) (b : β) : Backed toList I (ofBound s b) :=
  ⟨hs, Nat.zero_le _⟩

omit [Boundary β α] [Context γ α] in
theorem backed_restart {v : View γ β} (hv : Backed toList I v) : Backed toList I v.restart :=
  ⟨hv.1, Nat.zero_le _⟩

omit [Boundary β α] [Context γ α] in
/-- Another bound, such as one reset or resized through `bound_mut`, keeps a view backed. -/
theorem backed_setBound {v : View γ β} (hv : Backed toList I v) (b : β) :
    Backed toList I { v with bound := b } :=
  hv

omit [Context γ α] in
/-- With nothing lent and the view open, a closed bound answers nothing of any list. -/
theorem span_of_not_isOpen {b : β} (ho : Boundary.isOpen (α := α) b = false) (l : List α) :
    Boundary.span b l = [] := by
  cases l with
  | nil => rfl
  | cons a l => exact Boundary.span_cons_of_not_isOpen ho a l

/-- What one draw through a view can do: hand back a lent element from the parent; answer nothing
because the view has ended, its bound is closed or the parent is empty; hand out an element the
bound admits; or push the element the bound refuses back onto the parent and end the view. -/
theorem draw_cases (v : View γ β) :
    (0 < v.lent ∧ v.draw = ((Context.draw v.parent).1,
        { v with parent := (Context.draw v.parent).2, lent := v.lent - 1 })) ∨
    (v.lent = 0 ∧ v.closed = true ∧ v.draw = (none, v)) ∨
    (v.lent = 0 ∧ v.closed = false ∧ Boundary.isOpen (α := α) v.bound = false ∧
      v.draw = (none, { v with closed := true })) ∨
    (v.lent = 0 ∧ v.closed = false ∧ Boundary.isOpen (α := α) v.bound = true ∧
      (Context.draw v.parent).1 = none ∧
      v.draw = (none, { v with parent := (Context.draw v.parent).2, closed := true })) ∨
    (∃ a p b, v.lent = 0 ∧ v.closed = false ∧ Boundary.isOpen (α := α) v.bound = true ∧
      Context.draw v.parent = (some a, p) ∧ Boundary.offer v.bound a = (true, b) ∧
      v.draw = (some a, { v with parent := p, bound := b, admitted := v.admitted + 1 })) ∨
    (∃ a p b, v.lent = 0 ∧ v.closed = false ∧ Boundary.isOpen (α := α) v.bound = true ∧
      Context.draw v.parent = (some a, p) ∧ Boundary.offer v.bound a = (false, b) ∧
      v.draw = (none, { v with parent := Context.undraw a p, bound := b, closed := true })) := by
  unfold draw
  by_cases hl : 0 < v.lent
  · exact Or.inl ⟨hl, by simp [hl]⟩
  have h0 : v.lent = 0 := by omega
  cases hc : v.closed
  · cases ho : Boundary.isOpen (α := α) v.bound
    · exact Or.inr (Or.inr (Or.inl ⟨h0, rfl, rfl, by simp [h0]⟩))
    · rcases hp : Context.draw v.parent with ⟨_ | a, p⟩
      · exact Or.inr (Or.inr (Or.inr (Or.inl ⟨h0, rfl, rfl, rfl, by simp [h0]⟩)))
      · rcases hb : Boundary.offer v.bound a with ⟨_ | _, b⟩
        · exact Or.inr (Or.inr (Or.inr (Or.inr (Or.inr ⟨a, p, b, h0, rfl, rfl, rfl, hb,
            by simp [h0, hb]⟩))))
        · exact Or.inr (Or.inr (Or.inr (Or.inr (Or.inl ⟨a, p, b, h0, rfl, rfl, rfl, hb,
            by simp [h0, hb]⟩))))
  · exact Or.inr (Or.inl ⟨h0, rfl, by simp [h0]⟩)

/-- One draw through a backed view: it returns the head of the contents and leaves their tail, the
view stays backed, and the parent loses exactly the element returned. -/
theorem draw_spec (h : Context.Lifo toList I) {v : View γ β} (hv : Backed toList I v) :
    v.draw.1 = (contents toList v).head? ∧ contents toList v.draw.2 = (contents toList v).tail ∧
      Backed toList I v.draw.2 ∧ toList v.parent = v.draw.1.toList ++ toList v.draw.2.parent := by
  obtain ⟨hinv, hlen⟩ := hv
  rcases draw_cases v with ⟨hl, hd⟩ | ⟨hl, hc, hd⟩ | ⟨hl, hc, ho, hd⟩ | ⟨hl, hc, ho, hn, hd⟩ |
    ⟨a, p, b, hl, hc, ho, hp, hb, hd⟩ | ⟨a, p, b, hl, hc, ho, hp, hb, hd⟩ <;> rw [hd]
  · -- a lent element: it is the parent's head
    obtain ⟨k, hk⟩ : ∃ k, v.lent = k + 1 := ⟨v.lent - 1, by omega⟩
    obtain ⟨x, rest, hP⟩ : ∃ x rest, toList v.parent = x :: rest := by
      cases hP : toList v.parent with
      | nil => rw [hP] at hlen; simp at hlen; omega
      | cons x rest => exact ⟨x, rest, rfl⟩
    obtain ⟨hd₁, hd₂, hd₃⟩ := h.draw_cons hinv hP
    rw [hP, hk] at hlen
    have hk' : k ≤ rest.length := by simp only [List.length_cons] at hlen; omega
    simp [contents, hk, hP, hd₁, hd₂, hd₃, Backed, hk']
  · -- the view has ended
    simp [hl, hc, contents, Backed, hinv]
  · -- a closed bound ends the view without reading the parent
    simp [hl, hc, contents, span_of_not_isOpen ho, Backed, hinv]
  · -- the parent is empty
    have hnil : toList v.parent = [] :=
      List.head?_eq_none_iff.mp ((h.draw_fst _ hinv).symm.trans hn)
    obtain ⟨-, hd₂, hd₃⟩ := h.draw_nil hinv hnil
    simp [hl, hc, contents, hnil, hd₂, hd₃, Backed]
  all_goals
    obtain ⟨l, hP⟩ : ∃ l, toList v.parent = a :: l := by
      have hfst := h.draw_fst _ hinv
      rw [hp] at hfst
      cases hP : toList v.parent with
      | nil => simp [hP] at hfst
      | cons x l =>
        simp only [hP, List.head?_cons, Option.some.injEq] at hfst
        exact ⟨l, by rw [hfst]⟩
    obtain ⟨-, hd₂, hd₃⟩ := h.draw_cons hinv hP
    rw [hp] at hd₂ hd₃
    dsimp only at hd₂ hd₃
  · -- admitted: the element is drawn from the parent
    simp [hl, hc, contents, hP, Boundary.span_cons_of_admit ho hb, Backed, hd₂, hd₃]
  · -- refused: the element goes back to the parent and the view ends
    simp [hl, hc, contents, hP, Boundary.span_cons_of_refuse hb, Backed, h.undraw_inv a p hd₃,
      h.undraw_toList a p hd₃, hd₂]

/-- A push back through a view goes onto the parent and in front of the view's contents. -/
theorem undraw_spec (h : Context.Lifo toList I) (a : α) {v : View γ β}
    (hv : Backed toList I v) :
    contents toList (v.undraw a) = a :: contents toList v ∧ Backed toList I (v.undraw a) ∧
      toList (v.undraw a).parent = a :: toList v.parent := by
  have hP := h.undraw_toList a v.parent hv.1
  refine ⟨?_, ⟨h.undraw_inv a v.parent hv.1, ?_⟩, hP⟩
  · simp [contents, undraw, hP]
  · simp only [undraw, hP, List.length_cons]
    exact Nat.succ_le_succ hv.2

/-- A peek through a view returns the head of its contents and changes neither the contents nor
the parent. With nothing lent it draws and pushes back, which advances the bound, but the
contents come out the same. -/
theorem peek_spec (h : Context.Lifo toList I) {v : View γ β} (hv : Backed toList I v) :
    v.peek.1 = (contents toList v).head? ∧ contents toList v.peek.2 = contents toList v ∧
      Backed toList I v.peek.2 ∧ toList v.peek.2.parent = toList v.parent := by
  unfold peek
  split
  · rename_i h0
    obtain ⟨hd₁, hd₂, hd₃, hd₄⟩ := draw_spec h hv
    rcases hd : v.draw with ⟨_ | a, w⟩ <;> rw [hd] at hd₁ hd₂ hd₃ hd₄ <;> dsimp only at *
    · have hnil : contents toList v = [] := List.head?_eq_none_iff.mp hd₁.symm
      simp only [Option.toList, List.nil_append] at hd₄
      simp [hnil, hd₂, hd₃, hd₄]
    · obtain ⟨hu₁, ⟨hu₂, hu₃⟩, hu₄⟩ := undraw_spec h a hd₃
      have hp₁ := h.peek_fst _ hu₂
      have hp₂ := h.peek_snd _ hu₂
      have hp₃ := h.peek_inv _ hu₂
      cases hl : contents toList v with
      | nil => simp [hl] at hd₁
      | cons b l =>
        simp only [hl, List.head?_cons, Option.some.injEq, List.tail_cons] at hd₁ hd₂
        subst hd₁
        refine ⟨?_, ?_, ⟨hp₃, ?_⟩, ?_⟩
        · simp [hp₁, hu₄]
        · rw [contents_congr_parent toList hp₂, hu₁, hd₂]
        · simpa [hp₂] using hu₃
        · simp [hp₂, hu₄, hd₄]
  · rename_i h0
    have hp₁ := h.peek_fst _ hv.1
    have hp₂ := h.peek_snd _ hv.1
    obtain ⟨k, hk⟩ : ∃ k, v.lent = k + 1 := ⟨v.lent - 1, by omega⟩
    refine ⟨?_, ?_, ⟨h.peek_inv _ hv.1, by simpa [hp₂] using hv.2⟩, hp₂⟩
    · -- something is lent, so the contents start with the parent's head
      simp only [hp₁, contents, hk]
      cases toList v.parent <;> simp
    · simp [contents, hp₂]

/-- A draw through a backed view leaves what lies beyond it as it was. -/
theorem beyond_draw (h : Context.Lifo toList I) {v : View γ β} (hv : Backed toList I v) :
    beyond toList v.draw.2 = beyond toList v := by
  obtain ⟨hd₁, hd₂, -, hd₄⟩ := draw_spec h hv
  rw [beyond_eq_drop toList, beyond_eq_drop toList, hd₂, hd₄, hd₁]
  cases contents toList v <;> simp

/-- The contents of a backed view are no longer than its parent can supply. -/
theorem length_contents_le_supply (h : Context.Lifo toList I) {v : View γ β}
    (hv : Backed toList I v) : (contents toList v).length ≤ Context.supply v := by
  have hsplit := contents_append_beyond toList v
  have hle : (contents toList v).length ≤ (toList v.parent).length := by
    rw [← hsplit, List.length_append]
    omega
  exact Nat.le_trans hle (h.length_le_supply v.parent hv.1)

/-- A property of bounds that every offer keeps holds of the bound after a draw. -/
theorem bound_draw {Q : β → Prop} (hQ : ∀ b (a : α), Q b → Q (Boundary.offer b a).2)
    {v : View γ β} (hv : Q v.bound) : Q v.draw.2.bound := by
  rcases draw_cases v with ⟨-, hd⟩ | ⟨-, -, hd⟩ | ⟨-, -, -, hd⟩ | ⟨-, -, -, -, hd⟩ |
    ⟨a, p, b, -, -, -, -, hb, hd⟩ | ⟨a, p, b, -, -, -, -, hb, hd⟩ <;> rw [hd]
  · exact hv
  · exact hv
  · exact hv
  · exact hv
  · have := hQ _ a hv
    rwa [hb] at this
  · have := hQ _ a hv
    rwa [hb] at this

/-- A property of bounds that every offer keeps holds of the bound after a peek. -/
theorem bound_peek {Q : β → Prop} (hQ : ∀ b (a : α), Q b → Q (Boundary.offer b a).2)
    {v : View γ β} (hv : Q v.bound) : Q v.peek.2.bound := by
  have hdraw := bound_draw hQ hv
  unfold peek
  split
  · rcases hd : v.draw with ⟨_ | a, w⟩ <;> rw [hd] at hdraw
    · exact hdraw
    · exact hdraw
  · exact hv

/-- A view over a parent that reads as a list reads as its contents, on its backed states. -/
theorem lifo (h : Context.Lifo toList I) :
    Context.Lifo (σ := View γ β) (contents toList) (Backed toList I) where
  draw_fst _ hv := (draw_spec h hv).1
  draw_snd _ hv := (draw_spec h hv).2.1
  draw_inv _ hv := (draw_spec h hv).2.2.1
  undraw_toList a _ hv := (undraw_spec h a hv).1
  undraw_inv a _ hv := (undraw_spec h a hv).2.1
  peek_fst _ hv := (peek_spec h hv).1
  peek_snd _ hv := (peek_spec h hv).2.1
  peek_inv _ hv := (peek_spec h hv).2.2.1
  length_le_supply _ hv := length_contents_le_supply h hv

omit [Context γ α] in
/-- Running a function on a nested view that keeps the nested view backed keeps the outer view
backed, since the nested view's parent is the outer view. -/
theorem backed_zoom {δ β' : Type} [Boundary β' α] (b' : β')
    (f : View (View γ β) β' → δ × View (View γ β) β') {v : View γ β}
    (hf : ∀ w, Backed (contents toList) (Backed toList I) w →
      Backed (contents toList) (Backed toList I) (f w).2)
    (hv : Backed toList I v) : Backed toList I (Context.zoom b' f v).2 :=
  (hf _ (backed_ofBound hv b')).1

/-- A view over a parent that reads as a list `P` behaves, at every step, as the list made of the
parent's first `lent` elements followed, unless the view has ended, by what the bound in its
current state admits of the rest of `P`. A fresh view is backed; every operation of the view keeps
it backed and acts on that list as on a stack; so do restarting the view, giving it another bound,
and running a nested view that is itself kept backed; and the lent elements are a prefix of the
parent of length `lent`. -/
theorem lifo_refinement (h : Context.Lifo toList I) :
    Context.Lifo (σ := View γ β) (contents toList) (Backed toList I) ∧
      (∀ s (b : β), I s → Backed toList I (ofBound s b)) ∧
      (∀ v : View γ β, Backed toList I v →
        Backed toList I v.restart ∧ ∀ b : β, Backed toList I { v with bound := b }) ∧
      (∀ {δ β' : Type} [Boundary β' α] (b' : β')
        (f : View (View γ β) β' → δ × View (View γ β) β') (v : View γ β),
        (∀ w, Backed (contents toList) (Backed toList I) w →
          Backed (contents toList) (Backed toList I) (f w).2) →
        Backed toList I v → Backed toList I (Context.zoom b' f v).2) ∧
      (∀ v : View γ β, Backed toList I v → ∃ l T, toList v.parent = l ++ T ∧
        l.length = v.lent ∧
        contents toList v = l ++ if v.closed then [] else Boundary.span v.bound T) := by
  refine ⟨lifo h, fun s b hs ↦ backed_ofBound hs b,
    fun v hv ↦ ⟨backed_restart hv, backed_setBound hv⟩,
    fun b' f v hf hv ↦ backed_zoom b' f hf hv, ?_⟩
  intro v hv
  refine ⟨(toList v.parent).take v.lent, (toList v.parent).drop v.lent,
    (List.take_append_drop _ _).symm, ?_, rfl⟩
  exact List.length_take_of_le hv.2

/-- Counted views over a cursor on a source: the cursor reads as a list, so the views do. -/
theorem lifo_refinement_over_cursor :
    Context.Lifo (σ := Cursor (Source Nat Unit) Nat) (Cursor.contents Source.remaining)
        (fun _ ↦ True) ∧
      Context.Lifo (σ := View (Cursor (Source Nat Unit) Nat) Take)
        (contents (Cursor.contents Source.remaining))
        (Backed (Cursor.contents Source.remaining) (fun _ ↦ True)) :=
  ⟨Cursor.lifo Source.streams, (lifo_refinement (Cursor.lifo Source.streams)).1⟩

end View

end Spool
