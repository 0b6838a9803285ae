import Spool.Proofs.CursorStream
import Spool.Proofs.Groups

/-!
# Offsets count net consumption

The offset of a context is the number of elements it has consumed, net of those pushed back, and
zero when more were pushed back than drawn. No context counts its draws and push backs: a cursor
subtracts the elements waiting on its stack from those it has pulled, a view subtracts the
elements lent to its parent from those its bound has admitted, and the open group of a group
stream answers with the offset of the stream's view.

`Context.Reaches s t d` follows a sequence of operations from `s` to `t`, with `d` the number of
draws that returned an element less the number of push backs. A peek counts nothing: the element it
draws, when it draws one, it pushes back. `Context.Ledger ledger Inv` says that a function of the
state moves exactly so under every operation, and that the offset is that function truncated at
zero. Cursors (`Cursor.ledger`), views over a context that reads as a list (`View.ledger`) and the
handle of an open group (`Group.ledger`) keep such a ledger, and it is zero for a fresh cursor, a
fresh or restarted view and a group just opened. So along every sequence of operations the offset
is the net count truncated once, at the end, and not a count truncated step by step. A view may
also be given a new bound on the way: `View.Reaches` adds that step, which counts nothing, and the
view keeps its ledger along it (`View.ledger_reaches`).

Views and group streams act on their context only through its own operations
(`View.parent_reaches`, `Group.parent_reaches`, `Groups.openNext_reaches`), so the count on a
context includes what is done on its behalf at any depth. `Context.offset_counts_net_consumption`
gathers these facts.
-/

set_option autoImplicit false

namespace Spool

namespace Context

variable {σ α : Type} [Context σ α]

/-- The states a context reaches from `s` by its own operations, with the number of draws that
returned an element less the number of push backs on the way. A peek counts nothing, since it
pushes back what it draws. -/
inductive Reaches (s : σ) : σ → Int → Prop
  | refl : Reaches s s 0
  | draw {t : σ} {d : Int} : Reaches s t d →
      Reaches s (draw t).2 (d + if (draw t).1.isSome then 1 else 0)
  | undraw {t : σ} {d : Int} (a : α) : Reaches s t d → Reaches s (undraw a t) (d - 1)
  | peek {t : σ} {d : Int} : Reaches s t d → Reaches s (peek t).2 d

namespace Reaches

variable {s t u : σ} {d e : Int}

theorem trans (h₁ : Reaches s t d) (h₂ : Reaches t u e) : Reaches s u (d + e) := by
  induction h₂ with
  | refl => simpa using h₁
  | draw _ ih => simpa only [add_assoc] using ih.draw
  | undraw a _ ih => simpa only [add_sub_assoc] using ih.undraw a
  | peek _ ih => exact ih.peek

/-- A failed `drawIf` draws and pushes back, which counts nothing. -/
theorem drawIf (p : α → Bool) (h : Reaches s t d) :
    Reaches s (drawIf p t).2 (d + if (drawIf p t).1.isSome then 1 else 0) := by
  have hd := h.draw
  unfold Context.drawIf
  rcases hr : Context.draw t with ⟨_ | a, t'⟩ <;> rw [hr] at hd
  · exact hd
  · by_cases hp : p a
    · simpa [hp] using hd
    · simpa [hp] using hd.undraw a

/-- At most `n` draws count the elements they return. -/
theorem drawUpTo (n : Nat) (h : Reaches s t d) :
    Reaches s (drawUpTo n t).2 (d + (drawUpTo n t).1.length) := by
  induction n generalizing t d with
  | zero => simpa [Context.drawUpTo] using h
  | succ n ih =>
    have hd := h.draw
    unfold Context.drawUpTo
    rcases hr : Context.draw t with ⟨_ | a, t'⟩ <;> rw [hr] at hd
    · simpa using hd
    · have := ih hd
      simp only [Option.isSome_some, if_true] at this
      rw [List.length_cons,
        show d + (((drawUpTo n t').1.length + 1 : Nat) : Int) = d + 1 + (drawUpTo n t').1.length
          by omega]
      exact this

end Reaches

/-- On the states satisfying `Inv`, which every operation keeps, `ledger` moves as the net count of
`Reaches`: up by one for a draw that returns an element, down by one for a push back, not at all
for a peek; and the offset is the ledger truncated at zero. -/
structure Ledger (ledger : σ → Int) (Inv : σ → Prop) : Prop extends Keeps Inv where
  draw_ledger : ∀ s, Inv s → ledger (draw s).2 = ledger s + if (draw s).1.isSome then 1 else 0
  undraw_ledger : ∀ a s, Inv s → ledger (undraw a s) = ledger s - 1
  peek_ledger : ∀ s, Inv s → ledger (peek s).2 = ledger s
  offset_eq : ∀ s, Inv s → offset s = (ledger s).toNat

namespace Ledger

variable {ledger : σ → Int} {Inv : σ → Prop} {s t : σ} {d : Int}

/-- Along every sequence of operations the ledger moves by the net count, and `Inv` is kept. -/
theorem reaches (h : Ledger ledger Inv) (hs : Inv s) (hst : Reaches s t d) :
    Inv t ∧ ledger t = ledger s + d := by
  induction hst with
  | refl => exact ⟨hs, by simp⟩
  | draw _ ih =>
    refine ⟨h.draw_inv _ ih.1, ?_⟩
    rw [h.draw_ledger _ ih.1, ih.2, add_assoc]
  | undraw a _ ih =>
    refine ⟨h.undraw_inv a _ ih.1, ?_⟩
    rw [h.undraw_ledger a _ ih.1, ih.2, add_sub_assoc]
  | peek _ ih => exact ⟨h.peek_inv _ ih.1, by rw [h.peek_ledger _ ih.1, ih.2]⟩

/-- From a state whose ledger is zero, the offset is the net count truncated at zero. -/
theorem offset_of_reaches (h : Ledger ledger Inv) (hs : Inv s) (h0 : ledger s = 0)
    (hst : Reaches s t d) : offset t = d.toNat := by
  obtain ⟨ht, hl⟩ := h.reaches hs hst
  rw [h.offset_eq t ht, hl, h0, zero_add]

end Ledger

end Context

namespace Cursor

variable {π α ρ : Type} [Producer π α ρ]

/-- Elements pulled less elements waiting on the stack. -/
def net (c : Cursor π α) : Int :=
  c.pulled - c.stack.length

theorem net_draw (c : Cursor π α) :
    (draw c).2.net = c.net + if (draw c).1.isSome then 1 else 0 := by
  cases hs : c.stack with
  | cons a rest =>
    simp only [draw_of_cons hs, net, hs, List.length_cons, Option.isSome_some, if_true]
    omega
  | nil =>
    cases hx : c.exhausted with
    | true => simp [draw_of_exhausted hs hx]
    | false =>
      rcases hp : Producer.pull c.producer with ⟨_ | a, q⟩
      · simp [draw_of_pull_none hs hx hp, net]
      · simp [draw_of_pull_some hs hx hp, net, hs]

/-- A cursor keeps its ledger on every state. -/
theorem ledger : Context.Ledger (σ := Cursor π α) net (fun _ ↦ True) where
  draw_inv _ _ := trivial
  undraw_inv _ _ _ := trivial
  peek_inv _ _ := trivial
  draw_ledger c _ := net_draw c
  undraw_ledger a c _ := by
    show ((c.pulled : Int) - (a :: c.stack).length) = c.pulled - c.stack.length - 1
    simp only [List.length_cons]
    omega
  peek_ledger c _ := by
    have hd := net_draw c
    show (peek c).2.net = c.net
    unfold peek
    cases hs : c.stack with
    | cons a rest => rfl
    | nil =>
      rcases hr : draw c with ⟨_ | a, c'⟩ <;> rw [hr] at hd
      · simpa using hd
      · -- the element drawn waits on the stack again
        show ((c'.pulled : Int) - (a :: c'.stack).length) = c.net
        simp only [Option.isSome_some, if_true] at hd
        simp only [List.length_cons]
        unfold net at hd ⊢
        omega
  offset_eq c _ := by
    show c.pulled - c.stack.length = ((c.pulled : Int) - c.stack.length).toNat
    omega

@[simp] theorem net_ofProducer (p : π) : (ofProducer p : Cursor π α).net = 0 := rfl

end Cursor

namespace View

variable {γ β α : Type} [Context γ α] [Boundary β α] {toList : γ → List α} {I : γ → Prop}

/-- Elements admitted less elements lent to the parent. -/
def net (v : View γ β) : Int :=
  v.admitted - v.lent

@[simp] theorem net_ofBound (s : γ) (b : β) : (ofBound s b).net = 0 := rfl

@[simp] theorem net_restart (v : View γ β) : v.restart.net = 0 := rfl

@[simp] theorem net_setBound (v : View γ β) (b : β) : ({ v with bound := b } : View γ β).net = v.net :=
  rfl

omit [Boundary β α] in
/-- A lent element is on the parent, so a draw that hands it back returns it. -/
theorem draw_parent_isSome (h : Context.Lifo toList I) {v : View γ β} (hv : Backed toList I v)
    (hl : 0 < v.lent) : (Context.draw v.parent).1.isSome := by
  rw [h.draw_fst _ hv.1]
  cases hP : toList v.parent with
  | nil => have := hv.2; rw [hP] at this; simp at this; omega
  | cons x rest => rfl

theorem net_draw (h : Context.Lifo toList I) {v : View γ β} (hv : Backed toList I v) :
    (draw v).2.net = v.net + if (draw v).1.isSome then 1 else 0 := by
  rcases draw_cases v with ⟨hl, hd⟩ | ⟨-, -, hd⟩ | ⟨-, -, -, hd⟩ | ⟨-, -, -, -, hd⟩ |
    ⟨a, p, b, -, -, -, -, -, hd⟩ | ⟨a, p, b, -, -, -, -, -, hd⟩ <;> rw [hd] <;> simp only [net]
  · -- a lent element comes back from the parent
    rw [if_pos (draw_parent_isSome h hv hl)]
    omega
  all_goals simp
  omega

/-- A view over a context that reads as a list keeps its ledger on its backed states. -/
theorem ledger (h : Context.Lifo toList I) :
    Context.Ledger (σ := View γ β) net (Backed toList I) where
  draw_inv _ hv := (lifo h).draw_inv _ hv
  undraw_inv a _ hv := (lifo h).undraw_inv a _ hv
  peek_inv _ hv := (lifo h).peek_inv _ hv
  draw_ledger _ hv := net_draw h hv
  undraw_ledger a v _ := by
    show ((v.admitted : Int) - (v.lent + 1 : Nat)) = v.admitted - v.lent - 1
    omega
  peek_ledger v hv := by
    have hd := net_draw h hv
    show (peek v).2.net = v.net
    unfold peek
    split
    · rcases hr : v.draw with ⟨_ | a, w⟩ <;> rw [hr] at hd
      · simpa using hd
      · -- the hidden draw and its push back cancel
        show ((w.admitted : Int) - (w.lent + 1 : Nat)) = v.net
        simp only [Option.isSome_some, if_true] at hd
        unfold net at hd ⊢
        omega
    · rfl
  offset_eq v _ := by
    show v.admitted - v.lent = ((v.admitted : Int) - v.lent).toNat
    omega

/-- A view draw acts on the parent by a draw, possibly followed by a push back. -/
theorem parent_reaches_draw (v : View γ β) : ∃ d, Context.Reaches v.parent (draw v).2.parent d := by
  rcases draw_cases v with ⟨-, hd⟩ | ⟨-, -, hd⟩ | ⟨-, -, -, hd⟩ | ⟨-, -, -, -, hd⟩ |
    ⟨a, p, b, -, -, -, hp, -, hd⟩ | ⟨a, p, b, -, -, -, hp, -, hd⟩ <;> rw [hd]
  · exact ⟨_, Context.Reaches.refl.draw⟩
  · exact ⟨0, .refl⟩
  · exact ⟨0, .refl⟩
  · exact ⟨_, Context.Reaches.refl.draw⟩
  · exact ⟨_, hp ▸ Context.Reaches.refl.draw⟩
  · exact ⟨_, (hp ▸ Context.Reaches.refl.draw).undraw a⟩

/-- A view peek acts on the parent by a view draw, a push back and a peek, or by a peek alone. -/
theorem parent_reaches_peek (v : View γ β) : ∃ d, Context.Reaches v.parent (peek v).2.parent d := by
  unfold peek
  split
  · obtain ⟨d, hd⟩ := parent_reaches_draw v
    rcases hr : v.draw with ⟨_ | a, w⟩ <;> rw [hr] at hd
    · exact ⟨d, hd⟩
    · exact ⟨_, (hd.undraw a).peek⟩
  · exact ⟨0, Context.Reaches.refl.peek⟩

/-- The states a view reaches from `v` by its own operations and by replacing its bound, with the
net count of `Context.Reaches`: a new bound counts nothing. -/
inductive Reaches (v : View γ β) : View γ β → Int → Prop
  | refl : Reaches v v 0
  | draw {w : View γ β} {d : Int} : Reaches v w d →
      Reaches v (Context.draw w).2 (d + if (Context.draw w).1.isSome then 1 else 0)
  | undraw {w : View γ β} {d : Int} (a : α) : Reaches v w d → Reaches v (Context.undraw a w) (d - 1)
  | peek {w : View γ β} {d : Int} : Reaches v w d → Reaches v (Context.peek w).2 d
  | setBound {w : View γ β} {d : Int} (b : β) : Reaches v w d → Reaches v { w with bound := b } d

/-- The operations of a view are steps of a view. -/
theorem Reaches.of_context {v w : View γ β} {d : Int} (h : Context.Reaches v w d) :
    Reaches v w d := by
  induction h with
  | refl => exact .refl
  | draw _ ih => exact ih.draw
  | undraw a _ ih => exact ih.undraw a
  | peek _ ih => exact ih.peek

/-- Along the operations of a view and its new bounds, the view stays backed and its ledger moves
by the net count. -/
theorem ledger_reaches (h : Context.Lifo toList I) {v w : View γ β} {d : Int}
    (hv : Backed toList I v) (hvw : Reaches v w d) : Backed toList I w ∧ w.net = v.net + d := by
  induction hvw with
  | refl => exact ⟨hv, by simp⟩
  | draw _ ih =>
    refine ⟨(ledger h).draw_inv _ ih.1, ?_⟩
    rw [(ledger h).draw_ledger _ ih.1, ih.2, add_assoc]
  | undraw a _ ih =>
    refine ⟨(ledger h).undraw_inv a _ ih.1, ?_⟩
    rw [(ledger h).undraw_ledger a _ ih.1, ih.2, add_sub_assoc]
  | peek _ ih => exact ⟨(ledger h).peek_inv _ ih.1, by rw [(ledger h).peek_ledger _ ih.1, ih.2]⟩
  | setBound b _ ih => exact ⟨backed_setBound ih.1 b, by rw [net_setBound, ih.2]⟩

/-- From a backed view whose ledger is zero, the offset is the net count truncated at zero, along
its operations and its new bounds alike. -/
theorem offset_of_reaches (h : Context.Lifo toList I) {v w : View γ β} {d : Int}
    (hv : Backed toList I v) (h0 : v.net = 0) (hvw : Reaches v w d) :
    Context.offset w = d.toNat := by
  obtain ⟨hw, hl⟩ := ledger_reaches h hv hvw
  rw [(ledger h).offset_eq w hw, hl, h0, zero_add]

/-- Every sequence of operations on a view, and of new bounds, acts on its parent by a sequence of
the parent's own operations, so views nested to any depth reach the context at the bottom by its
operations. -/
theorem parent_reaches {v w : View γ β} {d : Int} (h : Reaches v w d) :
    ∃ e, Context.Reaches v.parent w.parent e := by
  induction h with
  | refl => exact ⟨0, .refl⟩
  | @draw t _ _ ih =>
    obtain ⟨e, he⟩ := ih
    obtain ⟨e', he'⟩ := parent_reaches_draw t
    exact ⟨_, he.trans he'⟩
  | undraw a _ ih =>
    obtain ⟨e, he⟩ := ih
    exact ⟨_, he.undraw a⟩
  | @peek t _ _ ih =>
    obtain ⟨e, he⟩ := ih
    obtain ⟨e', he'⟩ := parent_reaches_peek t
    exact ⟨_, he.trans he'⟩
  | setBound _ _ ih => exact ih

end View

namespace Groups

variable {γ β α : Type} [Context γ α] [GroupingRule β α] {toList : γ → List α} {I : γ → Prop}

/-- Opening a group restarts the view and peeks, which leaves it with nothing counted. -/
theorem net_openNext (h : Context.Lifo toList I) {g : Groups γ β}
    (hg : View.Backed toList I g.view) :
    (openNext g).2.view.net = 0 ∧ View.Backed toList I (openNext g).2.view := by
  have hw : View.Backed toList I (reopened (α := α) g) :=
    View.backed_setBound (View.backed_restart hg) _
  have hpeek := (View.ledger h).peek_ledger _ hw
  have hinv := (View.ledger h).peek_inv _ hw
  rw [openNext_eq]
  split <;> exact ⟨hpeek.trans rfl, hinv⟩

/-- Opening a group acts on the context by its own operations. -/
theorem openNext_reaches (g : Groups γ β) :
    ∃ d, Context.Reaches g.view.parent (openNext g).2.view.parent d := by
  obtain ⟨d, hd⟩ := View.parent_reaches_peek (reopened (α := α) g)
  rw [openNext_eq]
  split <;> exact ⟨d, hd⟩

end Groups

namespace Group

variable {γ β α : Type} [Context γ α] [GroupingRule β α] {toList : γ → List α} {I : γ → Prop}

/-- The handle of an open group keeps the ledger of the stream's view, on the states whose view is
backed. -/
theorem ledger (h : Context.Lifo toList I) :
    Context.Ledger (σ := Group (Groups γ β)) (fun g ↦ g.stream.view.net)
      (fun g ↦ View.Backed toList I g.stream.view) where
  draw_inv g hg := by
    show View.Backed toList I (Grouped.drawInGroup g.stream).2.view
    cases ha : g.stream.active with
    | false => rw [Groups.drawInGroup_of_inactive ha]; exact hg
    | true => rw [Groups.drawInGroup_of_active ha]; exact (View.ledger h).draw_inv _ hg
  undraw_inv a g hg := (View.ledger h).undraw_inv a _ hg
  peek_inv g hg := by
    show View.Backed toList I (Groups.peekInGroup g.stream).2.view
    unfold Groups.peekInGroup
    cases g.stream.active
    · exact hg
    · exact (View.ledger h).peek_inv _ hg
  draw_ledger g hg := by
    show (Grouped.drawInGroup g.stream).2.view.net =
      g.stream.view.net + if (Grouped.drawInGroup g.stream).1.isSome then 1 else 0
    cases ha : g.stream.active with
    | false => simp [Groups.drawInGroup_of_inactive ha]
    | true => rw [Groups.drawInGroup_of_active ha]; exact View.net_draw h hg
  undraw_ledger a g hg := (View.ledger h).undraw_ledger a _ hg
  peek_ledger g hg := by
    show (Groups.peekInGroup g.stream).2.view.net = g.stream.view.net
    unfold Groups.peekInGroup
    cases g.stream.active
    · rfl
    · exact (View.ledger h).peek_ledger _ hg
  offset_eq g hg := (View.ledger h).offset_eq _ hg

/-- Every sequence of operations on the handle of an open group acts on the stream's context by a
sequence of the context's own operations. -/
theorem parent_reaches {g k : Group (Groups γ β)} {d : Int} (hk : Context.Reaches g k d) :
    ∃ e, Context.Reaches g.stream.view.parent k.stream.view.parent e := by
  induction hk with
  | refl => exact ⟨0, .refl⟩
  | @draw t _ _ ih =>
    obtain ⟨e, he⟩ := ih
    show ∃ e, Context.Reaches g.stream.view.parent (Grouped.drawInGroup t.stream).2.view.parent e
    cases ha : t.stream.active with
    | false => rw [Groups.drawInGroup_of_inactive ha]; exact ⟨e, he⟩
    | true =>
      rw [Groups.drawInGroup_of_active ha]
      obtain ⟨e', he'⟩ := View.parent_reaches_draw t.stream.view
      exact ⟨_, he.trans he'⟩
  | undraw a _ ih =>
    obtain ⟨e, he⟩ := ih
    exact ⟨_, he.undraw a⟩
  | @peek t _ _ ih =>
    obtain ⟨e, he⟩ := ih
    show ∃ e, Context.Reaches g.stream.view.parent (Groups.peekInGroup t.stream).2.view.parent e
    unfold Groups.peekInGroup
    cases t.stream.active
    · exact ⟨e, he⟩
    · obtain ⟨e', he'⟩ := View.parent_reaches_peek t.stream.view
      exact ⟨_, he.trans he'⟩

end Group

end Spool

namespace Spool.Context

open View in
/-- The offset counts net consumption. After any sequence of operations on a cursor (from its
creation), on a view (from its creation or its last restart, with its bound replaced any number of
times on the way) or on the handle of an open group (from the opening that opened it), the offset
is the number of draws that returned an element less the number of push backs, truncated at zero.
Views and groups are taken over a context that reads as a list, as every context of the library
does. A view, and a group stream through its handles and its openings, act on their context only by
the context's own operations, so what they do on its behalf is counted there, at any depth of
nesting. -/
theorem offset_counts_net_consumption {π γ α ρ β G : Type} [Producer π α ρ] [Context γ α]
    [Boundary β α] [GroupingRule G α] {toList : γ → List α} {I : γ → Prop}
    (h : Lifo toList I) :
    (∀ (p : π) (c : Cursor π α) (d : Int),
      Context.Reaches (Cursor.ofProducer p) c d → offset c = d.toNat) ∧
    (∀ (s : γ) (b : β) (w : View γ β) (d : Int),
      I s → View.Reaches (ofBound s b) w d → offset w = d.toNat) ∧
    (∀ (v w : View γ β) (d : Int), Backed toList I v → View.Reaches v.restart w d →
      offset w = d.toNat) ∧
    (∀ (g : Groups γ G) (i : Nat) (k : Group (Groups γ G)) (d : Int), Backed toList I g.view →
      (Groups.openNext g).1 = some i →
      Context.Reaches (⟨(Groups.openNext g).2, i⟩ : Group _) k d → offset k = d.toNat) ∧
    (∀ (v w : View γ β) (d : Int), View.Reaches v w d →
      ∃ e, Context.Reaches v.parent w.parent e) ∧
    (∀ (g k : Group (Groups γ G)) (d : Int), Context.Reaches g k d →
      ∃ e, Context.Reaches g.stream.view.parent k.stream.view.parent e) ∧
    (∀ g : Groups γ G, ∃ e, Context.Reaches g.view.parent (Groups.openNext g).2.view.parent e) := by
  refine ⟨fun p c d hc ↦ Cursor.ledger.offset_of_reaches trivial rfl hc,
    fun s b w d hs hw ↦ View.offset_of_reaches h (backed_ofBound hs b) rfl hw,
    fun v w d hv hw ↦ View.offset_of_reaches h (backed_restart hv) rfl hw,
    fun g i k d hg _ hk ↦ ?_, fun v w d hw ↦ View.parent_reaches hw,
    fun g k d hk ↦ Group.parent_reaches hk, Groups.openNext_reaches⟩
  -- an opening leaves the view backed, with nothing counted
  obtain ⟨h0, hback⟩ := Groups.net_openNext h hg
  exact (Group.ledger h).offset_of_reaches hback h0 hk

/-- A cursor over `[1]` with `0` pushed back twice has offset zero: the net count is `-2`. -/
theorem offset_counts_net_consumption_after_pushback :
    offset (undraw 0 (undraw 0 (Cursor.ofProducer (Source.ofList [1] ()))) :
      Cursor (Source Nat Unit) Nat) = (0 - 1 - 1 : Int).toNat :=
  (offset_counts_net_consumption (β := Take) (G := Chunks)
    (Cursor.lifo (Source.streams (ρ := Unit)))).1 _ _ _
    ((Reaches.refl.undraw 0).undraw 0)

end Spool.Context
