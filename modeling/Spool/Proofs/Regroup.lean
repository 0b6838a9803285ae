import Spool.Script.Run
import Spool.Proofs.WindowChains
import Spool.Proofs.Conservation
import Spool.Proofs.CursorStream
import Spool.Proofs.ScriptBisim

/-!
# Regrouping splices its leftovers back

`Context.regroup` runs a script on a cursor over the concatenation of the windowed groups of a
context, then ends the stream and gives the context back with the cursor's pushed-back elements in
front of the stream's rest.

The cursor reads as a LIFO stream of what the concatenation still hands out (`Rejoin.cursor_lifo`)
in the states `Rejoin.CursorInv` names: the concatenation is valid, its stream is tracked and has
lost only a front part of the context's list, and an exhausted cursor has nothing left to pull.
Whatever state a script leaves the cursor in, the context given back reads as the cursor's stack on
top of what the stream's rest reads as (`Grouped.rejoinWith_spliced`), and that rest is the unread
part of the open group followed by everything after it (`Grouped.Tracks.drainGroup_root`). Windows
keep all of it: every window of a tracked stream is tracked and ends into the same rest
(`Grouped.withWindows_tracks`), and the windows of the base shape hold the list chain
(`GroupWindow.models_groups`), so the fresh cursor reads as the groups the windows hand out
(`Groups.rejoin_windows_spliced`), for elements of any type.

With no windows the concatenation hands out the whole of the context's list, so the cursor and the
context read as the same list (`Script.SameList`, `Script.regroup_sameList`) before a script of
operations on elements and after each of its operations. When the context's supply is exactly the
length of its list, as a cursor over a source's is, the cursor's is too
(`Groups.cursor_supply_eq_length`), and two contexts that read as the same list then answer alike
as contexts (`Script.SameList.bisim`). Every operation that reads only the stream then runs in
lockstep on the two, nested scripts on views, groups and cursors of their own included, whatever
those hold (`Script.regroup_runOps_of_streamOnly`). `Script.regroup_splices_leftovers` gathers the
parts. Operations that look past the elements can tell the two apart: the fresh cursor's offset
counts only what it pulled, so a parser run inside stops after a pushed-back element
(`Script.regroup_parser_stalls_after_pushed_back`).
-/

set_option autoImplicit false

namespace Spool

namespace Context.Lifo

variable {σ α : Type} [Context σ α] {toList : σ → List α} {Inv : σ → Prop}

/-- A context reads as its list on the states of `Inv` that also satisfy a property its operations
keep. -/
theorem and_inv (h : Lifo toList Inv) {K : σ → Prop}
    (hdraw : ∀ s, Inv s → K s → K (draw s).2) (hundraw : ∀ a s, Inv s → K s → K (undraw a s))
    (hpeek : ∀ s, Inv s → K s → K (peek s).2) : Lifo toList (fun s ↦ Inv s ∧ K s) where
  draw_fst s hs := h.draw_fst s hs.1
  draw_snd s hs := h.draw_snd s hs.1
  draw_inv s hs := ⟨h.draw_inv s hs.1, hdraw s hs.1 hs.2⟩
  undraw_toList a s hs := h.undraw_toList a s hs.1
  undraw_inv a s hs := ⟨h.undraw_inv a s hs.1, hundraw a s hs.1 hs.2⟩
  peek_fst s hs := h.peek_fst s hs.1
  peek_snd s hs := h.peek_snd s hs.1
  peek_inv s hs := ⟨h.peek_inv s hs.1, hpeek s hs.1 hs.2⟩
  length_le_supply s hs := h.length_le_supply s hs.1

/-- Pushing back the elements of a list one after another puts them in front, the last first. -/
theorem foldl_undraw (h : Lifo toList Inv) (xs : List α) {s : σ} (hs : Inv s) :
    toList (xs.foldl (fun s a ↦ undraw a s) s) = xs.reverse ++ toList s ∧
      Inv (xs.foldl (fun s a ↦ undraw a s) s) := by
  induction xs generalizing s with
  | nil => exact ⟨rfl, hs⟩
  | cons a xs ih =>
    obtain ⟨h₁, h₂⟩ := ih (h.undraw_inv a s hs)
    refine ⟨?_, h₂⟩
    rw [List.foldl_cons, h₁, h.undraw_toList a s hs]
    simp

end Context.Lifo

namespace Cursor

variable {π α ρ : Type} [Producer π α ρ] {toList : π → List α} {Inv : π → Prop}

/-- Once the producer streams a list, a draw that leaves the cursor exhausted leaves its producer
with nothing left. -/
theorem ended_draw (h : Producer.Streams toList Inv) {c : Cursor π α} (hc : Inv c.producer)
    (hx : c.exhausted = true → toList c.producer = []) :
    (draw c).2.exhausted = true → toList (draw c).2.producer = [] := by
  cases hs : c.stack with
  | cons a rest => rw [draw_of_cons hs]; exact hx
  | nil =>
    cases he : c.exhausted with
    | true => rw [draw_of_exhausted hs he]; exact hx
    | false =>
      have hfst := h.pull_fst c.producer hc
      have hsnd := h.pull_snd c.producer hc
      rcases hp : Producer.pull c.producer with ⟨_ | a, q⟩ <;> rw [hp] at hfst hsnd
      · -- the pull found the end of the list
        rw [draw_of_pull_none hs he hp]
        intro _
        rw [hsnd, List.head?_eq_none_iff.mp hfst.symm]
        rfl
      · rw [draw_of_pull_some hs he hp]
        intro hx'
        rw [he] at hx'
        cases hx'

/-- A cursor over a producer that streams a list reads as its stack and that list; when it is
exhausted the producer has nothing left. -/
theorem lifo_ended (h : Producer.Streams toList Inv) :
    Context.Lifo (σ := Cursor π α) (contents toList)
      (fun c ↦ Inv c.producer ∧ (c.exhausted = true → toList c.producer = [])) := by
  refine (lifo h).and_inv (fun c hc hx ↦ ended_draw h hc hx) (fun _ _ _ hx ↦ hx) ?_
  intro c hc hx
  show (peek c).2.exhausted = true → toList (peek c).2.producer = []
  unfold peek
  cases hs : c.stack with
  | cons a rest => exact hx
  | nil =>
    have hd := ended_draw h hc hx
    rcases hr : draw c with ⟨_ | a, c'⟩ <;> rw [hr] at hd
    · exact hd
    · exact hd

/-- The supply of a cursor over a source is exactly the length of what it reads as. -/
theorem supply_eq_length_contents {ρ' : Type} (c : Cursor (Source α ρ') α) :
    Context.supply c = (contents Source.remaining c).length := by
  show c.stack.length + (if c.exhausted then 0 else Producer.supply c.producer) = _
  unfold contents
  cases c.exhausted with
  | true => simp
  | false =>
    show _ = (c.stack ++ (List.ofFn c.producer.item).drop c.producer.pulled).length
    simp only [List.length_append, List.length_drop, List.length_ofFn]
    rfl

end Cursor

namespace Rejoin

variable {τ α ρ : Type} [Grouped τ α ρ] {root : τ → List α} {rootRest : ρ → List α}
  {TInv : τ → Prop}

open Grouped

/-- A pull of a concatenation only draws from the open group and opens groups: on a tracked
stream it takes elements off the front of the tracked list and nothing else. -/
theorem pullUpTo_root (h : Tracks root rootRest TInv) (n : Nat) {r : Rejoin τ}
    (hr : TInv r.stream) :
    root (pullUpTo n r).2.stream <:+ root r.stream ∧ TInv (pullUpTo n r).2.stream := by
  induction n generalizing r with
  | zero => exact ⟨List.suffix_refl _, hr⟩
  | succ n ih =>
    -- after the draw from the open group comes an opening, then the rest of the loop
    have hopen : ∀ s : τ, TInv s → root s <:+ root r.stream →
        root (pullUpTo (n + 1) { stream := s, active := false }).2.stream <:+ root r.stream ∧
        TInv (pullUpTo (n + 1) { stream := s, active := false }).2.stream := by
      intro s hs hsuf
      have ho₁ := h.openNext_root s hs
      have ho₂ := h.openNext_inv s hs
      simp only [pullUpTo, Bool.false_eq_true, if_false]
      rcases ho : openNext s with ⟨_ | i, s'⟩ <;> rw [ho] at ho₁ ho₂
      · exact ⟨ho₁.trans hsuf, ho₂⟩
      · obtain ⟨ih₁, ih₂⟩ := ih (r := { stream := s', active := true }) ho₂
        exact ⟨ih₁.trans (ho₁.trans hsuf), ih₂⟩
    obtain ⟨s₀, active⟩ := r
    cases active with
    | false => exact hopen s₀ hr (List.suffix_refl _)
    | true =>
      have hd₁ := h.drawInGroup_root s₀ hr
      have hd₂ := h.drawInGroup_inv s₀ hr
      unfold pullUpTo
      simp only [if_true]
      rcases hd : drawInGroup s₀ with ⟨_ | a, s⟩ <;> rw [hd] at hd₁ hd₂
      · exact hopen s hd₂ ⟨_, hd₁.symm⟩
      · exact ⟨⟨_, hd₁.symm⟩, hd₂⟩

variable {ω : Type} {obs : τ → ω} {shape : τ → Shape α ω} {Inv : τ → Prop}

/-- The states a cursor over a concatenation keeps: the concatenation is valid and sees `F` at the
end, its stream is tracked and has lost no more than a front part of `S`, and an exhausted cursor
has nothing left to pull. -/
def CursorInv (shape : τ → Shape α ω) (Inv : τ → Prop) (root : τ → List α) (TInv : τ → Prop)
    (F : ω) (S : List α) (c : Cursor (Rejoin τ) α) : Prop :=
  (Valid shape Inv F c.producer ∧ TInv c.producer.stream ∧ root c.producer.stream <:+ S) ∧
    (c.exhausted = true → rest shape c.producer = [])

/-- A cursor over the concatenation of a stream that reads as shapes reads as its stack followed
by what the concatenation still hands out. -/
theorem cursor_lifo (h : Reads obs shape Inv) (ht : Tracks root rootRest TInv) (F : ω)
    (S : List α) :
    Context.Lifo (Cursor.contents (rest shape)) (CursorInv shape Inv root TInv F S) :=
  Cursor.lifo_ended ((streams h F).and_inv (K := fun p ↦ TInv p.stream ∧ root p.stream <:+ S)
    fun _ _ hk ↦ ⟨(pullUpTo_root ht _ hk.1).2, (pullUpTo_root ht _ hk.1).1.trans hk.2⟩)

theorem contents_of_cursorInv {F : ω} {S : List α} {c : Cursor (Rejoin τ) α}
    (hc : CursorInv shape Inv root TInv F S c) :
    Cursor.contents (rest shape) c = c.stack ++ rest shape c.producer := by
  unfold Cursor.contents
  cases he : c.exhausted with
  | false => rfl
  | true => rw [hc.2 he]; rfl

/-- A fresh cursor over the concatenation of a stream with no group open is in such a state, and
reads as the groups to come. -/
theorem cursorInv_ofProducer {t : τ} (ht : Inv t) (htT : TInv t) (hc : (shape t).cur = [])
    {S : List α} (hS : root t <:+ S) :
    CursorInv shape Inv root TInv (shape t).final S (Cursor.ofProducer (Grouped.concat t)) ∧
      Cursor.contents (rest shape) (Cursor.ofProducer (Grouped.concat t)) =
        (shape t).groups.flatten := by
  refine ⟨⟨⟨⟨ht, fun _ ↦ hc, rfl⟩, htT, hS⟩, fun he ↦ absurd he (by simp [Cursor.ofProducer])⟩, ?_⟩
  simp [Cursor.contents, Cursor.ofProducer, Grouped.concat, rest, hc]

end Rejoin

namespace Grouped

variable {τ α σ ω : Type} [Context σ α] [Grouped τ α σ] {shape : τ → Shape α ω}
  {Inv : τ → Prop} {root : τ → List α} {TInv : τ → Prop} {toList : σ → List α} {I : σ → Prop}

/-- Whatever state `f` leaves the cursor in, the context given back reads as the cursor's stack
in front of what the stream's rest reads as. -/
theorem rejoinWith_spliced (h : Context.Lifo toList I) (hrel : ∀ u, Inv u → I (intoRest u))
    {δ : Type} (f : Cursor (Rejoin τ) α → δ × Cursor (Rejoin τ) α) {t : τ} {F : ω}
    {S : List α}
    (hc : Rejoin.CursorInv shape Inv root TInv F S (f (Cursor.ofProducer (concat t))).2) :
    toList (rejoinWith f t).2 = (f (Cursor.ofProducer (concat t))).2.stack ++
        toList (intoRest (f (Cursor.ofProducer (concat t))).2.producer.stream) ∧
      I (rejoinWith f t).2 := by
  obtain ⟨h₁, h₂⟩ := h.foldl_undraw (f (Cursor.ofProducer (concat t))).2.pending
    (hrel _ hc.1.1.1)
  refine ⟨?_, h₂⟩
  -- the rest comes back with the pending elements pushed back, the deepest first
  show toList ((f (Cursor.ofProducer (concat t))).2.pending.foldl (fun s a ↦ Context.undraw a s)
    (intoRest (f (Cursor.ofProducer (concat t))).2.producer.stream)) = _
  rw [h₁, Cursor.pending, List.reverse_reverse]

section Windows

variable {ρ : Type}

/-- An implication that holds at the end of a chain of windows, with its premise, gives its
conclusion there. -/
theorem withWindows_mp (A B : {υ : Type} → [Grouped υ α ρ] → υ → Prop) (ws : List GroupWindow) :
    ∀ {τ : Type} [Grouped τ α ρ] (t : τ),
      withWindows ws t (fun u ↦ A u → B u) → withWindows ws t A → withWindows ws t B := by
  induction ws with
  | nil => exact fun _ hab ha ↦ hab ha
  | cons w ws ih =>
    intro τ _ t
    cases w with
    | take n => exact ih _
    | drop n => exact ih _
    | filter select => exact ih _

/-- Every window on a tracked stream tracks the list the stream's rest reads as, so every chain of
windows does; and a window ends into the rest of the stream it was put on. -/
theorem withWindows_tracks (rootRest : ρ → List α) (ws : List GroupWindow) :
    ∀ {τ : Type} [Grouped τ α ρ] {TInv : τ → Prop} {t : τ},
      Tracks (fun u ↦ rootRest (intoRest u)) rootRest TInv → TInv t →
      withWindows ws t fun {υ : Type} [Grouped υ α ρ] (u : υ) ↦ ∃ TInv' : υ → Prop,
        Tracks (fun u ↦ rootRest (intoRest u)) rootRest TInv' ∧ TInv' u ∧
          intoRest u = intoRest t := by
  induction ws with
  | nil => exact fun h ht ↦ ⟨_, h, ht, rfl⟩
  | cons w ws ih =>
    intro τ _ TInv t h ht
    cases w with
    | take n => exact ih (TakeGroups.tracks h) ht
    | drop n => exact ih (DropGroups.tracks h) ht
    | filter select => exact ih (FilterGroups.tracks h) ht

end Windows

end Grouped

namespace Groups

variable {σ α β : Type} [Context σ α] [GroupingRule β α] {toList : σ → List α} {I : σ → Prop}

open GroupingRule

/-- Regrouping through windows splices its leftovers back. Let `P` be the groups the rule cuts the
context's list into, numbered from zero, and `out` what the windows `ws` hand out of them as list
windows. The cursor over the concatenation of the windowed groups reads as a LIFO stream whose
contents are the concatenated groups of `out`. Whatever state a function leaves that cursor in, the
context given back reads as the cursor's stack, top first, then the unread part of the group the
concatenation was reading, then everything after that group, windowed out or not reached alike:
a suffix of the context's list. -/
theorem rejoin_windows_spliced (h : Context.Lifo toList I) {rule : β}
    (hr : Restarts α (reset (α := α) rule)) {s : σ} (hs : I s) (ws : List GroupWindow) :
    let P := Boundary.partition (reset (α := α) rule) (toList s)
    Grouped.withWindows ws (ofRule s rule) fun {υ : Type} [Grouped υ α σ] (t : υ) ↦
      ∃ (read : Cursor (Rejoin υ) α → List α) (J : Cursor (Rejoin υ) α → Prop),
        Context.Lifo read J ∧ J (Cursor.ofProducer (Grouped.concat t)) ∧
        read (Cursor.ofProducer (Grouped.concat t)) =
          ((GroupWindow.chain ws P.zipIdx P.length).1.map Prod.fst).flatten ∧
        ∀ {δ : Type} (f : Cursor (Rejoin υ) α → δ × Cursor (Rejoin υ) α),
          J (f (Cursor.ofProducer (Grouped.concat t))).2 →
          let c := (f (Cursor.ofProducer (Grouped.concat t))).2
          let u := c.producer.stream
          toList (Grouped.rejoinWith f t).2 = c.stack ++ toList (Grouped.intoRest u) ∧
            I (Grouped.rejoinWith f t).2 ∧
            toList (Grouped.intoRest u) =
              (Grouped.readGroup u).1 ++ toList (Grouped.intoRest (Grouped.drainGroup u)) ∧
            toList (Grouped.intoRest u) <:+ toList s := by
  intro P
  have hR := reads h hr
  have hT : Grouped.Tracks (fun g : Groups σ β ↦ toList (Grouped.intoRest g)) toList
      (fun g ↦ I g.view.parent) := tracks h.tracks
  have hrel : ∀ g, Sound toList I (reset (α := α) rule) g → I (Grouped.intoRest g) :=
    fun _ hg ↦ hg.1.1
  refine Grouped.withWindows_mp _ _ ws _ ?_ (Grouped.withWindows_tracks toList ws hT hs)
  refine Grouped.withWindows_spec (R := Prop) (fun _ r ↦ I r) id _ ws hR hrel
    (sound_ofRule hs rule) rfl ?_
  intro υ _ obs shape Inv u hR' hrel' hu hshape ⟨TInv, hT', hTu, hrest⟩
  -- the windows of the base shape hold the list chain
  have hm : GroupWindow.Models _ (shape u) _ _ :=
    hshape ▸ (GroupWindow.models_groups toList hr s rule).windows ws
  have hc : (shape u).cur = [] := by rw [hshape, GroupWindow.cur_foldl_onShape]; rfl
  have hsuf : toList (Grouped.intoRest u) <:+ toList s := by rw [hrest]; exact List.suffix_refl _
  obtain ⟨hJ, hread⟩ : Rejoin.CursorInv shape Inv (fun u ↦ toList (Grouped.intoRest u)) TInv _
      (toList s) _ ∧ _ := Rejoin.cursorInv_ofProducer hu hTu hc hsuf
  refine ⟨_, _, Rejoin.cursor_lifo hR' hT' _ (toList s), hJ, ?_, fun f hf ↦ ?_⟩
  · rw [hread, ← Grouped.Shape.map_fst_indexed, hm.indexed_eq]
  · obtain ⟨h₁, h₂⟩ := Grouped.rejoinWith_spliced h hrel' f hf
    exact ⟨h₁, h₂, (hT'.drainGroup_root hf.1.2.1).1, hf.1.2.2⟩

/-- With no windows, a cursor over the concatenated groups has an exact supply, the length of what
it reads as, whenever the context's supply is exact: what the concatenation still hands out is the
whole of the context's list. -/
theorem cursor_supply_eq_length (hexact : ∀ t, I t → Context.supply t = (toList t).length)
    {rule : β} (hr : Restarts α (reset (α := α) rule)) {root : Groups σ β → List α}
    {TInv : Groups σ β → Prop} {F : Nat × List α} {S : List α} {c : Cursor (Rejoin (Groups σ β)) α}
    (hc : Rejoin.CursorInv (shape toList (reset (α := α) rule))
      (Sound toList I (reset (α := α) rule)) root TInv F S c) :
    Context.supply c = (Cursor.contents (Rejoin.rest (shape toList (reset (α := α) rule))) c).length := by
  rw [Rejoin.contents_of_cursorInv hc]
  show c.stack.length + (if c.exhausted then 0 else Context.supply c.producer.stream.view.parent) = _
  cases he : c.exhausted with
  | true => simp [hc.2 he]
  | false =>
    have hI : I c.producer.stream.view.parent := hc.1.1.1.1.1
    rw [if_neg Bool.false_ne_true, List.length_append, Rejoin.rest, cur_append_groups toList hr,
      hexact _ hI]

end Groups

namespace Script

/-- The operations that act on elements alone: no offset, no pending stack, no view and no nested
context. -/
def Op.onElements : Op → Bool
  | .draw | .peek | .undraw _ | .undrawMany _ | .isEnd | .skip | .drawIf _ | .drawAll | .drawN _
  | .foldAll _ => true
  | _ => false

section Agree

variable {σ₁ σ₂ : Type} [Context σ₁ Int64] [Context σ₂ Int64]
  {toList₁ : σ₁ → List Int64} {I₁ : σ₁ → Prop} {toList₂ : σ₂ → List Int64} {I₂ : σ₂ → Prop}

variable (toList₁ I₁ toList₂ I₂) in
/-- Two contexts, each in a state where it reads as a list, that read as the same list. -/
def SameList (s₁ : σ₁) (s₂ : σ₂) : Prop :=
  I₁ s₁ ∧ I₂ s₂ ∧ toList₁ s₁ = toList₂ s₂

namespace SameList

variable {s₁ : σ₁} {s₂ : σ₂}

omit [Context σ₁ Int64] [Context σ₂ Int64] in
/-- An operation whose answer and whose list afterwards depend on the list alone gives the same
answer on two contexts that read as the same list, and leaves them reading as the same list. -/
theorem listOp {γ : Type} (ans : List Int64 → γ) (next : List Int64 → List Int64)
    {op₁ : σ₁ → γ × σ₁} {op₂ : σ₂ → γ × σ₂}
    (hop₁ : ∀ s, I₁ s → (op₁ s).1 = ans (toList₁ s) ∧ toList₁ (op₁ s).2 = next (toList₁ s) ∧
      I₁ (op₁ s).2)
    (hop₂ : ∀ s, I₂ s → (op₂ s).1 = ans (toList₂ s) ∧ toList₂ (op₂ s).2 = next (toList₂ s) ∧
      I₂ (op₂ s).2)
    (hs : SameList toList₁ I₁ toList₂ I₂ s₁ s₂) :
    (op₁ s₁).1 = (op₂ s₂).1 ∧ SameList toList₁ I₁ toList₂ I₂ (op₁ s₁).2 (op₂ s₂).2 := by
  obtain ⟨hs₁, hs₂, hl⟩ := hs
  obtain ⟨a₁, b₁, c₁⟩ := hop₁ s₁ hs₁
  obtain ⟨a₂, b₂, c₂⟩ := hop₂ s₂ hs₂
  exact ⟨by rw [a₁, a₂, hl], c₁, c₂, by rw [b₁, b₂, hl]⟩

variable (h₁ : Context.Lifo toList₁ I₁) (h₂ : Context.Lifo toList₂ I₂)

include h₁ h₂

theorem draw (hs : SameList toList₁ I₁ toList₂ I₂ s₁ s₂) :
    (Context.draw s₁).1 = (Context.draw s₂).1 ∧
      SameList toList₁ I₁ toList₂ I₂ (Context.draw s₁).2 (Context.draw s₂).2 :=
  hs.listOp List.head? List.tail (fun s hs ↦ ⟨h₁.draw_fst s hs, h₁.draw_snd s hs, h₁.draw_inv s hs⟩)
    (fun s hs ↦ ⟨h₂.draw_fst s hs, h₂.draw_snd s hs, h₂.draw_inv s hs⟩)

theorem undraw (a : Int64) (hs : SameList toList₁ I₁ toList₂ I₂ s₁ s₂) :
    SameList toList₁ I₁ toList₂ I₂ (Context.undraw a s₁) (Context.undraw a s₂) := by
  obtain ⟨hs₁, hs₂, hl⟩ := hs
  exact ⟨h₁.undraw_inv a s₁ hs₁, h₂.undraw_inv a s₂ hs₂,
    by rw [h₁.undraw_toList a s₁ hs₁, h₂.undraw_toList a s₂ hs₂, hl]⟩

theorem peek (hs : SameList toList₁ I₁ toList₂ I₂ s₁ s₂) :
    (Context.peek s₁).1 = (Context.peek s₂).1 ∧
      SameList toList₁ I₁ toList₂ I₂ (Context.peek s₁).2 (Context.peek s₂).2 :=
  hs.listOp List.head? id (fun s hs ↦ ⟨h₁.peek_fst s hs, h₁.peek_snd s hs, h₁.peek_inv s hs⟩)
    (fun s hs ↦ ⟨h₂.peek_fst s hs, h₂.peek_snd s hs, h₂.peek_inv s hs⟩)

theorem undrawMany (xs : List Int64) (hs : SameList toList₁ I₁ toList₂ I₂ s₁ s₂) :
    SameList toList₁ I₁ toList₂ I₂ (xs.foldl (fun s x ↦ Context.undraw x s) s₁)
      (xs.foldl (fun s x ↦ Context.undraw x s) s₂) := by
  induction xs generalizing s₁ s₂ with
  | nil => exact hs
  | cons x xs ih => exact ih (hs.undraw h₁ h₂ x)

theorem drawTimes (n : Nat) (hs : SameList toList₁ I₁ toList₂ I₂ s₁ s₂) :
    (drawTimes n s₁).1 = (drawTimes n s₂).1 ∧
      SameList toList₁ I₁ toList₂ I₂ (drawTimes n s₁).2 (drawTimes n s₂).2 := by
  induction n generalizing s₁ s₂ with
  | zero => exact ⟨rfl, hs⟩
  | succ n ih =>
    -- one draw, then the remaining `n` from the states it leaves
    obtain ⟨hd₁, hd₂⟩ := hs.draw h₁ h₂
    obtain ⟨ih₁, ih₂⟩ := ih hd₂
    exact ⟨by rw [show (Script.drawTimes (n + 1) s₁).1 = (Context.draw s₁).1 ::
      (Script.drawTimes n (Context.draw s₁).2).1 from rfl, hd₁, ih₁]; rfl, ih₂⟩

theorem drawIf (p : Int64 → Bool) (hs : SameList toList₁ I₁ toList₂ I₂ s₁ s₂) :
    (Context.drawIf p s₁).1 = (Context.drawIf p s₂).1 ∧
      SameList toList₁ I₁ toList₂ I₂ (Context.drawIf p s₁).2 (Context.drawIf p s₂).2 :=
  hs.listOp (fun l ↦ l.head?.filter p) (fun l ↦ if l.head?.any p then l.tail else l)
    (fun _ hs ↦ h₁.drawIf_spec p hs) (fun _ hs ↦ h₂.drawIf_spec p hs)

theorem drawAll (hs : SameList toList₁ I₁ toList₂ I₂ s₁ s₂) :
    (Context.drawAll s₁).1 = (Context.drawAll s₂).1 ∧
      SameList toList₁ I₁ toList₂ I₂ (Context.drawAll s₁).2 (Context.drawAll s₂).2 :=
  hs.listOp id (fun _ ↦ []) (fun _ hs ↦ h₁.drawAll_spec hs) (fun _ hs ↦ h₂.drawAll_spec hs)

theorem foldAll {β : Type} (step : β → Int64 → β) (init : β)
    (hs : SameList toList₁ I₁ toList₂ I₂ s₁ s₂) :
    (Context.foldAll step init s₁).1 = (Context.foldAll step init s₂).1 ∧
      SameList toList₁ I₁ toList₂ I₂ (Context.foldAll step init s₁).2
        (Context.foldAll step init s₂).2 :=
  hs.listOp (fun l ↦ l.foldl step init) (fun _ ↦ [])
    (fun _ hs ↦ h₁.foldAll_spec step init hs) (fun _ hs ↦ h₂.foldAll_spec step init hs)

variable [Handle σ₁] [Handle σ₂]

/-- An operation on elements gives the same answer on two contexts that read as the same list,
and leaves them reading as the same list. -/
theorem runOp {op : Op} (hop : op.onElements = true) (hs : SameList toList₁ I₁ toList₂ I₂ s₁ s₂) :
    (Script.runOp op s₁).1 = (Script.runOp op s₂).1 ∧
      SameList toList₁ I₁ toList₂ I₂ (Script.runOp op s₁).2 (Script.runOp op s₂).2 := by
  cases op
  case draw =>
    obtain ⟨e₁, e₂⟩ := hs.draw h₁ h₂
    exact ⟨congrArg Reply.ofElement e₁, e₂⟩
  case peek =>
    obtain ⟨e₁, e₂⟩ := hs.peek h₁ h₂
    exact ⟨congrArg Reply.ofElement e₁, e₂⟩
  case undraw x => exact ⟨rfl, hs.undraw h₁ h₂ x⟩
  case undrawMany xs => exact ⟨rfl, hs.undrawMany h₁ h₂ xs⟩
  case isEnd =>
    obtain ⟨e₁, e₂⟩ := hs.peek h₁ h₂
    exact ⟨congrArg (fun a ↦ Reply.flag (Option.isNone a)) e₁, e₂⟩
  case skip =>
    obtain ⟨e₁, e₂⟩ := hs.draw h₁ h₂
    exact ⟨congrArg (fun a ↦ Reply.flag (Option.isSome a)) e₁, e₂⟩
  case drawIf p =>
    obtain ⟨e₁, e₂⟩ := hs.drawIf h₁ h₂ p.holds
    exact ⟨congrArg Reply.ofElement e₁, e₂⟩
  case drawAll =>
    obtain ⟨e₁, e₂⟩ := hs.drawAll h₁ h₂
    exact ⟨congrArg Reply.elements e₁, e₂⟩
  case drawN n =>
    obtain ⟨e₁, e₂⟩ := hs.drawTimes h₁ h₂ n
    exact ⟨congrArg Reply.draws e₁, e₂⟩
  case foldAll kind =>
    obtain ⟨e₁, e₂⟩ := hs.foldAll h₁ h₂ Tally.step kind.init
    exact ⟨congrArg Reply.ofTally e₁, e₂⟩
  all_goals exact absurd hop (by simp [Op.onElements])

/-- A script of operations on elements gives the same answers on two contexts that read as the
same list, and leaves them reading as the same list; only the offsets beside the answers may
differ. -/
theorem runOps {ops : List Op} (hops : ∀ op ∈ ops, op.onElements = true)
    (hs : SameList toList₁ I₁ toList₂ I₂ s₁ s₂) :
    (Script.runOps ops s₁).1.map Prod.fst = (Script.runOps ops s₂).1.map Prod.fst ∧
      SameList toList₁ I₁ toList₂ I₂ (Script.runOps ops s₁).2 (Script.runOps ops s₂).2 := by
  induction ops generalizing s₁ s₂ with
  | nil => exact ⟨rfl, hs⟩
  | cons op ops ih =>
    obtain ⟨e₁, e₂⟩ := hs.runOp h₁ h₂ (hops op List.mem_cons_self)
    obtain ⟨ih₁, ih₂⟩ := ih (fun o ho ↦ hops o (List.mem_cons_of_mem _ ho)) e₂
    refine ⟨?_, ih₂⟩
    show (Script.runOp op s₁).1 :: _ = (Script.runOp op s₂).1 :: _
    rw [e₁, ih₁]

omit [Handle σ₁] [Handle σ₂] in
/-- Two contexts that read as the same list answer alike as contexts when the supply of each is
exactly the length of its list. -/
theorem bisim (he₁ : ∀ s, I₁ s → Context.supply s = (toList₁ s).length)
    (he₂ : ∀ s, I₂ s → Context.supply s = (toList₂ s).length) :
    Context.Bisim (SameList toList₁ I₁ toList₂ I₂) where
  draw hs := ⟨(hs.draw h₁ h₂).1, (hs.draw h₁ h₂).2⟩
  undraw a _ _ hs := hs.undraw h₁ h₂ a
  peek hs := ⟨(hs.peek h₁ h₂).1, (hs.peek h₁ h₂).2⟩
  supply {s₁ s₂} hs := by rw [he₁ s₁ hs.1, he₂ s₂ hs.2.1, hs.2.2]

end SameList

end Agree

section Regroup

variable {σ β : Type} [Context σ Int64] [Handle σ] [GroupingRule β Int64]
  {toList : σ → List Int64} {I : σ → Prop}

open GroupingRule

omit [Handle σ] in
/-- With no windows, the cursor over the regrouping and the context read as the same list, each as
a LIFO stream, and the cursor's supply is exact wherever the context's is. Whatever state a
function leaves the cursor in, if it reads as the same list as a state of the context, the context
given back reads as that list too. -/
theorem regroup_sameList (h : Context.Lifo toList I) {rule : β}
    (hr : Restarts Int64 (reset (α := Int64) rule)) {s : σ} (hs : I s) :
    ∃ (read : Cursor (Rejoin (Groups σ β)) Int64 → List Int64)
      (J : Cursor (Rejoin (Groups σ β)) Int64 → Prop),
      Context.Lifo read J ∧
      SameList read J toList I (Cursor.ofProducer (Grouped.concat (Groups.ofRule s rule))) s ∧
      ((∀ t, I t → Context.supply t = (toList t).length) →
        ∀ c, J c → Context.supply c = (read c).length) ∧
      ∀ {δ : Type} (f : Cursor (Rejoin (Groups σ β)) Int64 → δ × Cursor (Rejoin (Groups σ β)) Int64)
        {t : σ}, SameList read J toList I (f (Cursor.ofProducer (Grouped.concat (Groups.ofRule s rule)))).2 t →
        toList (Context.regroup rule id f s).2 = toList t ∧ I (Context.regroup rule id f s).2 := by
  have hR := Groups.reads h hr
  have hT : Grouped.Tracks (fun g : Groups σ β ↦ toList (Grouped.intoRest g)) toList
      (fun g ↦ I g.view.parent) := Groups.tracks h.tracks
  have hrel : ∀ g, Groups.Sound toList I (reset (α := Int64) rule) g → I (Grouped.intoRest g) :=
    fun _ hg ↦ hg.1.1
  obtain ⟨hJ, hread⟩ : Rejoin.CursorInv (Groups.shape toList (reset (α := Int64) rule))
      (Groups.Sound toList I (reset (α := Int64) rule)) (fun g ↦ toList (Grouped.intoRest g))
      (fun g ↦ I g.view.parent) _ (toList s) _ ∧ _ :=
    Rejoin.cursorInv_ofProducer (Groups.sound_ofRule hs rule) hs rfl (List.suffix_refl _)
  have hl₀ : Cursor.contents (Rejoin.rest (Groups.shape toList (reset (α := Int64) rule)))
      (Cursor.ofProducer (Grouped.concat (Groups.ofRule s rule))) = toList s := by
    rw [hread, Groups.flatten_groups toList hr]
    rfl
  refine ⟨_, _, Rejoin.cursor_lifo hR hT _ (toList s), ⟨hJ, hs, hl₀⟩,
    fun hexact _ hc ↦ Groups.cursor_supply_eq_length hexact hr hc, ?_⟩
  intro δ f t hf
  obtain ⟨hJc, -, hl⟩ := hf
  obtain ⟨h₁, h₂⟩ := Grouped.rejoinWith_spliced h hrel f hJc
  refine ⟨?_, h₂⟩
  -- the rest given back is the whole of what the groups still hold
  rw [show Context.regroup rule id f s = Grouped.rejoinWith f (Groups.ofRule s rule) from rfl, h₁,
    ← hl, Rejoin.contents_of_cursorInv hJc, Rejoin.rest, Groups.cur_append_groups toList hr]
  rfl

/-- With no windows, a script of operations on elements gives the same answers inside the
regrouping as on the context itself, and leaves the context reading as the same list. -/
theorem regroup_runOps_of_onElements (h : Context.Lifo toList I) {rule : β}
    (hr : Restarts Int64 (reset (α := Int64) rule)) {s : σ} (hs : I s) {ops : List Op}
    (hops : ∀ op ∈ ops, op.onElements = true) :
    (Context.regroup rule id (runOps ops) s).1.map Prod.fst = (runOps ops s).1.map Prod.fst ∧
      toList (Context.regroup rule id (runOps ops) s).2 = toList (runOps ops s).2 ∧
      I (Context.regroup rule id (runOps ops) s).2 := by
  obtain ⟨read, J, hJ, h₀, -, hend⟩ := regroup_sameList h hr hs
  obtain ⟨e₁, hfin⟩ := h₀.runOps hJ h hops
  exact ⟨e₁, hend _ hfin⟩

/-- With no windows and a context whose supply is exact, a script of operations that read only
the stream gives the same answers inside the regrouping as on the context itself, and leaves the
context reading as the same list; its nested scripts, which run on views, groups and cursors of
their own, may hold every operation. -/
theorem regroup_runOps_of_streamOnly (h : Context.Lifo toList I) {rule : β}
    (hr : Restarts Int64 (reset (α := Int64) rule)) {s : σ} (hs : I s) {ops : List Op}
    (hops : ∀ op ∈ ops, op.streamOnly = true)
    (hexact : ∀ t, I t → Context.supply t = (toList t).length) :
    (Context.regroup rule id (runOps ops) s).1.map Prod.fst = (runOps ops s).1.map Prod.fst ∧
      toList (Context.regroup rule id (runOps ops) s).2 = toList (runOps ops s).2 ∧
      I (Context.regroup rule id (runOps ops) s).2 := by
  obtain ⟨read, J, hJ, h₀, hex, hend⟩ := regroup_sameList h hr hs
  -- the cursor and the context answer alike as contexts, so the script runs in lockstep on them
  obtain ⟨e₁, hfin⟩ :=
    runOps_replies_of_streamOnly hops (SameList.bisim hJ h (hex hexact) hexact) h₀
  exact ⟨e₁, hend _ hfin⟩

/-- Regrouping splices its leftovers back. Let `P` be the groups the rule cuts the context's list
into, numbered from zero, and `out` what the windows `ws` hand out of them as list windows. A script
run on the cursor over the concatenation of the windowed groups sees a LIFO stream whose contents
are the concatenated groups of `out`. Whatever state the script leaves that cursor in, the context
given back reads as the cursor's stack, top first, then the unread part of the group the
concatenation was reading, then everything after that group, windowed out or not reached alike:
a suffix of the context's list. This holds for elements of any type (`Groups.rejoin_windows_spliced`).
With no windows, a script of operations on elements gives the same answers inside the regrouping
as on the context itself, and leaves the context reading as the same list; when the context's
supply is exact, so does a script of every operation that reads only the stream, whatever its
nested scripts hold. -/
theorem regroup_splices_leftovers (h : Context.Lifo toList I) {rule : β}
    (hr : Restarts Int64 (reset (α := Int64) rule)) {s : σ} (hs : I s) :
    (∀ ws : List GroupWindow,
      let P := Boundary.partition (reset (α := Int64) rule) (toList s)
      Grouped.withWindows ws (Groups.ofRule s rule) fun {υ : Type} [Grouped υ Int64 σ] (t : υ) ↦
        ∃ (read : Cursor (Rejoin υ) Int64 → List Int64) (J : Cursor (Rejoin υ) Int64 → Prop),
          Context.Lifo read J ∧ J (Cursor.ofProducer (Grouped.concat t)) ∧
          read (Cursor.ofProducer (Grouped.concat t)) =
            ((GroupWindow.chain ws P.zipIdx P.length).1.map Prod.fst).flatten ∧
          ∀ {δ : Type} (f : Cursor (Rejoin υ) Int64 → δ × Cursor (Rejoin υ) Int64),
            J (f (Cursor.ofProducer (Grouped.concat t))).2 →
            let c := (f (Cursor.ofProducer (Grouped.concat t))).2
            let u := c.producer.stream
            toList (Grouped.rejoinWith f t).2 = c.stack ++ toList (Grouped.intoRest u) ∧
              I (Grouped.rejoinWith f t).2 ∧
              toList (Grouped.intoRest u) =
                (Grouped.readGroup u).1 ++ toList (Grouped.intoRest (Grouped.drainGroup u)) ∧
              toList (Grouped.intoRest u) <:+ toList s) ∧
    (∀ ops : List Op, (∀ op ∈ ops, op.onElements = true) →
      (Context.regroup rule id (runOps ops) s).1.map Prod.fst = (runOps ops s).1.map Prod.fst ∧
      toList (Context.regroup rule id (runOps ops) s).2 = toList (runOps ops s).2 ∧
      I (Context.regroup rule id (runOps ops) s).2) ∧
    ∀ ops : List Op, (∀ op ∈ ops, op.streamOnly = true) →
      (∀ t, I t → Context.supply t = (toList t).length) →
      (Context.regroup rule id (runOps ops) s).1.map Prod.fst = (runOps ops s).1.map Prod.fst ∧
      toList (Context.regroup rule id (runOps ops) s).2 = toList (runOps ops s).2 ∧
      I (Context.regroup rule id (runOps ops) s).2 :=
  ⟨fun ws ↦ Groups.rejoin_windows_spliced h hr hs ws,
    fun _ hops ↦ regroup_runOps_of_onElements h hr hs hops,
    fun _ hops hexact ↦ regroup_runOps_of_streamOnly h hr hs hops hexact⟩

/-- On a cursor over `[1, 2, 3, 4, 5]` that has drawn one element, regrouping into chunks of two
changes no answer and leaves the cursor reading as the same list, both for a script that draws,
pushes back `9`, draws two and peeks, and for one that nests a zoom reading its view to the end
with its offset and a regrouping into runs that draws and pushes back: a cursor over a source has
an exact supply. -/
theorem regroup_splices_leftovers_on_chunks :
    let s : Cursor (Source Int64 Unit) Int64 :=
      (Context.draw (Cursor.ofProducer (Source.ofList [1, 2, 3, 4, 5] ()) : Cursor _ Int64)).2
    let ops : List Op := [.draw, .undraw 9, .drawN 2, .peek]
    let nested : List Op :=
      [.draw, .zoom (.take 2) [.drawAll, .offset], .undraw 9, .regroup .runs [] [.draw, .undraw 7]]
    ((Context.regroup (Chunks.ofSize 2) id (runOps ops) s).1.map Prod.fst =
        (runOps ops s).1.map Prod.fst ∧
      Cursor.contents Source.remaining (Context.regroup (Chunks.ofSize 2) id (runOps ops) s).2 =
        Cursor.contents Source.remaining (runOps ops s).2 ∧
      (Context.regroup (Chunks.ofSize 2) id (runOps ops) s).2.producer.result = ()) ∧
    ((Context.regroup (Chunks.ofSize 2) id (runOps nested) s).1.map Prod.fst =
        (runOps nested s).1.map Prod.fst ∧
      Cursor.contents Source.remaining (Context.regroup (Chunks.ofSize 2) id (runOps nested) s).2 =
        Cursor.contents Source.remaining (runOps nested s).2 ∧
      (Context.regroup (Chunks.ofSize 2) id (runOps nested) s).2.producer.result = ()) :=
  have h := regroup_splices_leftovers (Cursor.lifo (Source.streams_to ())) (Chunks.restarts 2) rfl
  ⟨h.2.1 _ (by decide), h.2.2 _ (by decide) fun t _ ↦ Cursor.supply_eq_length_contents t⟩

example :
    let s : Cursor (Source Int64 Unit) Int64 :=
      (Context.draw (Cursor.ofProducer (Source.ofList [1, 2, 3, 4, 5] ()) : Cursor _ Int64)).2
    Cursor.contents Source.remaining
      (Context.regroup (Chunks.ofSize 2) id (runOps [.draw, .undraw 9]) s).2 = [9, 3, 4, 5] := by
  decide

/-- A parser run inside a regrouping measures its progress on the fresh cursor over the groups,
whose offset a pushed-back element leaves at zero: after pushing back `9`, a parser that draws one
element at a time stops after `9` and gives back the context reading `[2, 3]`, where run on the
context itself it reads to the end. -/
theorem regroup_parser_stalls_after_pushed_back :
    let s : Cursor (Source Int64 Unit) Int64 :=
      (Context.draw (Cursor.ofProducer (Source.ofList [1, 2, 3] ()) : Cursor _ Int64)).2
    let ops : List Op := [.undraw 9, .parser .draw [.parse]]
    Cursor.contents Source.remaining (Context.regroup (runs : RunsBy Int64) id (runOps ops) s).2 =
        [2, 3] ∧
      Cursor.contents Source.remaining (runOps ops s).2 = [] := by
  decide

end Regroup

end Script

end Spool
