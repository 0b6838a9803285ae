import Spool.Io.Bytes
import Spool.Io.Lines
import Spool.Proofs.CursorStream
import Spool.Proofs.View
import Spool.Proofs.WindowChains

/-!
# Producers stay ended

A producer promises that once a pull has answered `none`, every later pull answers `none` too.
`Producer.Fused p` says so of the pulls from `p`. Some producers promise more: the state that the
first `none` leaves is one that a pull answers `none` from and leaves as it is
(`Producer.Stops p`), so nothing underneath is read again and the result no longer changes
(`Producer.Stops.advance_eq`).

Sources, byte readers, line readers and cursors stop from every state (`Source.stopsOn`,
`Io.Bytes.stopsOn`, `Io.Lines.stopsOn`, `Cursor.stopsOn`), views from every state with nothing
lent, which a fresh view is and pulls keep (`View.stopsOn`): each sets a flag with its first
`none`, and the flag makes the next pull answer at once.

A concatenation of groups has no such flag: every pull with no group open asks the stream for
another group. It stays ended because the producers that stream a list do
(`Producer.Streams.fused`), and over a group stream that reads as a shape a group's handle, the
concatenation, the intercalation and the folds of the groups all stream lists
(`Group.streams`, `Grouped.Reads.readers_fused`). The groups of a LIFO context under a restarting
rule read as a shape, and so does every window on a stream that does, which covers every chain of
windows, over elements of any type (`GroupWindow.chain_readers_fused`). `Producer.stays_ended` gathers these facts.
-/

set_option autoImplicit false

namespace Spool

namespace Producer

variable {π α ρ : Type} [Producer π α ρ]

/-- Once a pull from `p`, made after `k` pulls, has answered `none`, every later pull answers
`none`. -/
def Fused (p : π) : Prop :=
  ∀ k j, k ≤ j → (pull (advance k p)).1 = none → (pull (advance j p)).1 = none

/-- The state that the first `none` from `p` leaves is one that every pull answers `none` from
and leaves as it is. -/
def Stops (p : π) : Prop :=
  ∀ k, (pull (advance k p)).1 = none → pull (advance (k + 1) p) = (none, advance (k + 1) p)

/-- Pulls keep `Inv`, and a pull from a state satisfying it that answers `none` leaves a state
that every pull answers `none` from and leaves as it is. -/
structure StopsOn (Inv : π → Prop) : Prop where
  pull_inv : ∀ p, Inv p → Inv (pull p).2
  stop : ∀ p, Inv p → (pull p).1 = none → pull (pull p).2 = (none, (pull p).2)

namespace Stops

variable {p : π}

/-- After the first `none`, pulls leave the producer as it is, so its result stays what it is. -/
theorem advance_eq (h : Stops p) {k : Nat} (hk : (pull (advance k p)).1 = none) (j : Nat) :
    advance (k + 1 + j) p = advance (k + 1) p := by
  induction j with
  | zero => rfl
  | succ j ih => rw [← Nat.add_assoc, advance_succ', ih, h k hk]

theorem fused (h : Stops p) : Fused p := by
  intro k j hkj hk
  obtain ⟨i, rfl⟩ := Nat.exists_eq_add_of_le hkj
  cases i with
  | zero => exact hk
  | succ i =>
    -- every pull after the first `none` is made from the state that `none` left
    rw [show k + (i + 1) = k + 1 + i by omega, h.advance_eq hk i, h k hk]

end Stops

namespace StopsOn

variable {Inv : π → Prop}

theorem inv_advance (h : StopsOn Inv) {p : π} (hp : Inv p) (k : Nat) : Inv (advance k p) := by
  induction k with
  | zero => exact hp
  | succ k ih =>
    rw [advance_succ']
    exact h.pull_inv _ ih

/-- A producer that stops from every state satisfying `Inv` stops from each of them. -/
theorem stops (h : StopsOn Inv) {p : π} (hp : Inv p) : Stops p := fun k hk ↦ by
  rw [advance_succ']
  exact h.stop _ (h.inv_advance hp k) hk

end StopsOn

/-- A producer that streams a list answers `none` exactly from the list's length on. -/
theorem Streams.fused {toList : π → List α} {Inv : π → Prop} (h : Streams toList Inv) {p : π}
    (hp : Inv p) : Fused p := by
  intro k j hkj hk
  rw [h.pull_advance k hp, List.getElem?_eq_none_iff] at hk
  rw [h.pull_advance j hp, List.getElem?_eq_none_iff]
  omega

end Producer

open Producer

namespace Source

variable {α ρ : Type}

/-- Past its last position a source answers `none` and changes nothing. -/
theorem stopsOn : StopsOn (π := Source α ρ) (fun _ ↦ True) where
  pull_inv _ _ := trivial
  stop s _ h := by
    have hend : Source.pull s = (none, s) := by
      by_cases hlt : s.pulled < s.count
      · have hsome : (Source.pull s).1 = some (s.item ⟨s.pulled, hlt⟩) := by
          simp [Source.pull, hlt]
        exact absurd (hsome.symm.trans h) (by simp)
      · simp [Source.pull, hlt]
    show Source.pull (Source.pull s).2 = (none, (Source.pull s).2)
    rw [hend, hend]

end Source

namespace Io

namespace Bytes

theorem pull_of_done {p : Bytes} (h : p.done = true) : pull p = (none, p) := by
  simp [pull, h]

/-- The pull that answers `none`, at the end of the input or at a failure, ends the stream. -/
theorem done_of_pull_none {p : Bytes} (h : (pull p).1 = none) : (pull p).2.done = true := by
  cases hd : p.done with
  | true => rw [pull_of_done hd]; exact hd
  | false =>
    unfold pull at h ⊢
    rw [hd, if_neg (by simp)] at h ⊢
    rcases hr : readByte p.reader.budget p.reader with ⟨e | (_ | b), r⟩
    · rfl
    · rfl
    · rw [hr] at h
      cases h

theorem stopsOn : StopsOn (π := Bytes) (fun _ ↦ True) where
  pull_inv _ _ := trivial
  stop _ _ h := pull_of_done (done_of_pull_none h)

end Bytes

namespace Lines

theorem pull_of_done {p : Lines} (h : p.done = true) : pull p = (none, p) := by
  simp [pull, h]

/-- The pull that answers `none`, at the end of the input or at a failure, ends the stream. -/
theorem done_of_pull_none {p : Lines} (h : (pull p).1 = none) : (pull p).2.done = true := by
  cases hd : p.done with
  | true => rw [pull_of_done hd]; exact hd
  | false =>
    unfold pull at h ⊢
    rw [hd, if_neg (by simp)] at h ⊢
    rcases hr : p.input.readLine with ⟨e | (_ | line), b⟩
    · rfl
    · rfl
    · rw [hr] at h
      cases h

theorem stopsOn : StopsOn (π := Lines) (fun _ ↦ True) where
  pull_inv _ _ := trivial
  stop _ _ h := pull_of_done (done_of_pull_none h)

end Lines

end Io

namespace Cursor

variable {π α ρ : Type} [Producer π α ρ]

/-- A cursor over any producer stops from every state: the draw that answers `none` leaves it
exhausted with nothing pushed back, and such a cursor does not pull again. -/
theorem stopsOn : StopsOn (π := Cursor π α) (fun _ ↦ True) where
  pull_inv _ _ := trivial
  stop _ _ h := draw_of_exhausted (ended_of_draw_none h).1 (ended_of_draw_none h).2

end Cursor

namespace View

variable {γ β α : Type} [Context γ α] [Boundary β α]

theorem draw_of_closed {v : View γ β} (hl : v.lent = 0) (hc : v.closed = true) :
    draw v = (none, v) := by
  simp [draw, hl, hc]

/-- With nothing lent, a draw lends nothing, and one that answers `none` closes the view. -/
theorem draw_of_lent_zero {v : View γ β} (hl : v.lent = 0) :
    (draw v).2.lent = 0 ∧ ((draw v).1 = none → (draw v).2.closed = true) := by
  rcases draw_cases v with ⟨hpos, -⟩ | ⟨-, hc, hd⟩ | ⟨-, -, -, hd⟩ | ⟨-, -, -, -, hd⟩ |
    ⟨a, p, b, -, -, -, -, -, hd⟩ | ⟨a, p, b, -, -, -, -, -, hd⟩
  · omega
  · rw [hd]; exact ⟨hl, fun _ ↦ hc⟩
  · rw [hd]; exact ⟨hl, fun _ ↦ rfl⟩
  · rw [hd]; exact ⟨hl, fun _ ↦ rfl⟩
  · rw [hd]; exact ⟨hl, fun h ↦ absurd h (by simp)⟩
  · rw [hd]; exact ⟨hl, fun _ ↦ rfl⟩

/-- A view over any context stops from every state with nothing lent: the draw that answers
`none` closes it, and a closed view does not read its parent again. -/
theorem stopsOn : StopsOn (π := View γ β) (fun v ↦ v.lent = 0) where
  pull_inv _ hl := (draw_of_lent_zero hl).1
  stop _ hl h := draw_of_closed (draw_of_lent_zero hl).1 ((draw_of_lent_zero hl).2 h)

end View

namespace Group

variable {τ α ρ ω : Type} [Grouped τ α ρ] {obs : τ → ω} {shape : τ → Grouped.Shape α ω}
  {Inv : τ → Prop}

/-- Over a stream that reads as a shape, a group's handle streams the rest of the open group. -/
theorem streams (h : Grouped.Reads obs shape Inv) :
    Streams (π := Group τ) (fun g ↦ (shape g.stream).cur) (fun g ↦ Inv g.stream) where
  pull_fst := fun ⟨s, i⟩ hs ↦ by
    rw [pull_mk]
    exact (h.drawInGroup_spec s hs).1
  pull_snd := fun ⟨s, i⟩ hs ↦ by
    rw [pull_mk]
    exact congrArg Grouped.Shape.cur (h.drawInGroup_spec s hs).2.1
  pull_inv := fun ⟨s, i⟩ hs ↦ by
    rw [pull_mk]
    exact (h.drawInGroup_spec s hs).2.2
  length_le_supply := fun ⟨s, _⟩ hs ↦ by
    have hle := h.length_le_supply s hs
    show (shape s).cur.length ≤ Grouped.supply s
    omega

end Group

namespace Grouped.Reads

variable {τ α ρ ω : Type} [Grouped τ α ρ] {obs : τ → ω} {shape : τ → Grouped.Shape α ω}
  {Inv : τ → Prop}

/-- Over a stream that reads as a shape, with no group open, the concatenation, the
intercalation and the folds of the groups all stay ended. -/
theorem readers_fused (h : Reads obs shape Inv) {s : τ} (hs : Inv s) (hc : (shape s).cur = []) :
    Fused (concat s) ∧ (∀ sep : List α, Fused (intercalate sep s)) ∧
      ∀ {δ : Type} (init : δ) (step : δ → α → δ), Fused (foldGroups init step s) :=
  ⟨(Rejoin.streams h (shape s).final).fused ⟨hs, fun _ ↦ hc, rfl⟩,
    fun _ ↦ (Intercalate.streams h (shape s).final).fused ⟨hs, rfl, hc⟩,
    fun _ _ ↦ (FoldGroups.streams h (shape s).final).fused ⟨hs, hc, rfl⟩⟩

end Grouped.Reads

namespace GroupWindow

variable {σ α β : Type} [Context σ α] [GroupingRule β α]

/-- Every chain of windows on the groups of a LIFO context, under a restarting rule, is read by a
concatenation, an intercalation and folds that stay ended. -/
theorem chain_readers_fused {toList : σ → List α} {I : σ → Prop} (h : Context.Lifo toList I)
    {rule : β} (hr : GroupingRule.Restarts α (GroupingRule.reset (α := α) rule)) {s : σ}
    (hs : I s) (ws : List GroupWindow) :
    Grouped.withWindows ws (Groups.ofRule s rule) fun t ↦
      Fused (Grouped.concat t) ∧ (∀ sep : List α, Fused (Grouped.intercalate sep t)) ∧
        ∀ {δ : Type} (init : δ) (step : δ → α → δ), Fused (Grouped.foldGroups init step t) :=
  Grouped.withWindows_spec (fun _ _ ↦ True) id _ ws (Groups.reads h hr) (fun _ _ ↦ trivial)
    (Groups.sound_ofRule hs rule) rfl fun hreads _ hu hshape ↦
      hreads.readers_fused hu (by rw [hshape, cur_foldl_onShape]; rfl)

end GroupWindow

namespace Producer

/-- Every producer of the library stays ended once a pull has answered `none`.

Sources, byte readers, line readers and cursors over any producer stop from every state, and views
over any context from every state with nothing lent, a fresh view's among them: the state the
first `none` leaves is one that every later pull answers `none` from and leaves as it is, so what
lies beneath is not read again and the result, for a view its parent, stays what it is. Over a
group stream that reads as a shape, a group's handle stays ended from every state, and the
concatenation, the intercalation and the folds of the groups from every state with no group open;
this holds of every chain of windows on the groups of a LIFO context under a restarting rule. -/
theorem stays_ended :
    (∀ {α ρ : Type} (s : Source α ρ), Stops s) ∧
    (∀ p : Io.Bytes, Stops p) ∧
    (∀ p : Io.Lines, Stops p) ∧
    (∀ {π α ρ : Type} [Producer π α ρ] (c : Cursor π α), Stops c) ∧
    (∀ {γ β α : Type} [Context γ α] [Boundary β α] (v : View γ β), v.lent = 0 → Stops v) ∧
    (∀ {τ α ρ ω : Type} [Grouped τ α ρ] {obs : τ → ω} {shape : τ → Grouped.Shape α ω}
      {Inv : τ → Prop}, Grouped.Reads obs shape Inv → ∀ s : τ, Inv s →
      (∀ i, Fused (Group.mk s i)) ∧
      ((shape s).cur = [] → Fused (Grouped.concat s) ∧
        (∀ sep : List α, Fused (Grouped.intercalate sep s)) ∧
        ∀ {δ : Type} (init : δ) (step : δ → α → δ), Fused (Grouped.foldGroups init step s))) ∧
    (∀ {σ α β : Type} [Context σ α] [GroupingRule β α] {toList : σ → List α}
      {I : σ → Prop}, Context.Lifo toList I → ∀ rule : β,
      GroupingRule.Restarts α (GroupingRule.reset (α := α) rule) → ∀ s : σ, I s →
      ∀ ws : List GroupWindow, Grouped.withWindows ws (Groups.ofRule s rule)
        fun t ↦ Fused (Grouped.concat t) ∧
          (∀ sep : List α, Fused (Grouped.intercalate sep t)) ∧
          ∀ {δ : Type} (init : δ) (step : δ → α → δ), Fused (Grouped.foldGroups init step t)) :=
  ⟨fun _ ↦ Source.stopsOn.stops trivial, fun _ ↦ Io.Bytes.stopsOn.stops trivial,
    fun _ ↦ Io.Lines.stopsOn.stops trivial, fun _ ↦ Cursor.stopsOn.stops trivial,
    fun _ hl ↦ View.stopsOn.stops hl,
    fun h s hs ↦ ⟨fun i ↦ (Group.streams h).fused (p := Group.mk s i) hs, h.readers_fused hs⟩,
    fun h _ hr _ hs ws ↦ GroupWindow.chain_readers_fused h hr hs ws⟩

/-- A view taking two elements of a cursor over `[1, 2, 3]`, a group's handle on the chunks of two
of a cursor over `[1, 2, 3, 4, 5]`, and the readers of the first of those chunks whose index is odd
stay ended. -/
theorem stays_ended_on_lists :
    Stops (View.ofBound (Cursor.ofProducer (Source.ofList [1, 2, 3] ()) :
      Cursor (Source Nat Unit) Nat) (Take.mk 2)) ∧
    Fused (Group.mk (Groups.ofRule (Cursor.ofProducer (Source.ofList [1, 2, 3, 4, 5] ()) :
      Cursor (Source Int64 Unit) Int64) (Chunks.ofSize 2)) 0) ∧
    Grouped.withWindows [.filter (· % 2 == 1), .take 1]
      (Groups.ofRule (Cursor.ofProducer (Source.ofList [1, 2, 3, 4, 5] ()) :
        Cursor (Source Int64 Unit) Int64) (Chunks.ofSize 2))
      fun t ↦ Fused (Grouped.concat t) ∧
        (∀ sep : List Int64, Fused (Grouped.intercalate sep t)) ∧
        ∀ {δ : Type} (init : δ) (step : δ → Int64 → δ), Fused (Grouped.foldGroups init step t) := by
  obtain ⟨-, -, -, -, hview, hreads, hchain⟩ := stays_ended
  have hlifo := Cursor.lifo (Source.streams (α := Int64) (ρ := Unit))
  refine ⟨hview _ rfl, (hreads (Groups.reads hlifo (Chunks.restarts 2)) _
    (Groups.sound_ofRule trivial _)).1 0, hchain hlifo _ (Chunks.restarts 2) _ trivial _⟩

end Producer

end Spool
