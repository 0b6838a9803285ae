import Spool.Proofs.Lookahead

/-!
# Where a reading leaves the stream underneath

A reading stops once the stream has answered `none`, and how far the stream underneath has gone
then depends on what the last answer cost. `Grouped.Settles shape Inv Q` says that a stream
answering `none`, to a draw or to an opening made with its open group read, is left in a state
satisfying `Q`. For the base stream over a cursor, `Q` is `Groups.Quiet`: the view has ended, or no
group is open, so nothing is left to close and what `pullsSeen` sees is the pulls made. A drop and
a filter pass their answers on from the stream underneath, and they drain the groups they pass over
to a `none`, so they settle wherever it does (`DropGroups.settles`, `FilterGroups.settles`).

A take is different: once it has delivered its groups it answers `none` without asking the stream
underneath anything, which is then left as the last delivered group left it. Every reader of the
library reads a group to its end before it opens the next one, so that group's last draw, made
while the take had it open, has already settled the stream underneath. This is stated for each
reader over a take: a concatenation (`Rejoin.settled_pull`), one fold per group
(`FoldGroups.settled_pull`) and the groups read whole (`Grouped.settled_readGroups`).
-/

set_option autoImplicit false

namespace Spool

namespace Grouped

variable {τ α ρ ω : Type} [Grouped τ α ρ]

variable (shape : τ → Shape α ω) (Inv : τ → Prop) in
/-- Once the stream has answered `none`, to a draw or to an opening made with the open group
read, `Q` holds of it. -/
structure Settles (Q : τ → Prop) : Prop where
  drawInGroup_none : ∀ s, Inv s → (drawInGroup s).1 = none → Q (drawInGroup s).2
  openNext_none : ∀ s, Inv s → (shape s).cur = [] → (openNext s).1 = none → Q (openNext s).2

variable {obs : τ → ω} {shape : τ → Shape α ω} {Inv : τ → Prop} {Q : τ → Prop}

/-- Folding a group reads as far as draining it. -/
theorem foldGroupUpTo_snd {β : Type} (step : β → α → β) (n : Nat) (acc : β) (s : τ) :
    (FoldGroups.foldGroupUpTo step n acc s).2 = (drainUpTo n s).2 := by
  induction n generalizing acc s with
  | zero => rfl
  | succ n ih =>
    unfold FoldGroups.foldGroupUpTo drainUpTo
    rcases drawInGroup s with ⟨_ | a, s'⟩
    · rfl
    · simp only [ih]

/-- Reading a group reads as far as draining it. -/
theorem readGroupUpTo_snd (n : Nat) (s : τ) : (readGroupUpTo n s).2 = (drainUpTo n s).2 := by
  rw [drainUpTo_eq_readGroupUpTo]

namespace Reads

/-- Draining a group with more draws than it holds ends with a draw that answers `none`, which
settles the stream. -/
theorem drainUpTo_settles (h : Reads obs shape Inv) (hq : Settles shape Inv Q) {n : Nat}
    {s : τ} (hs : Inv s) (hn : (shape s).cur.length < n) : Q (drainUpTo n s).2 := by
  induction n generalizing s with
  | zero => omega
  | succ n ih =>
    obtain ⟨hfst, hshape, hinv⟩ := h.drawInGroup_spec s hs
    have hnone := hq.drawInGroup_none s hs
    unfold drainUpTo
    cases hc : (shape s).cur with
    | nil =>
      rw [Shape.draw_cur_nil hc] at hfst
      rcases hd : drawInGroup s with ⟨_ | a, s'⟩ <;> rw [hd] at hfst hnone
      · exact hnone rfl
      · cases hfst
    | cons a c =>
      simp only [Shape.draw, hc, List.head?_cons, List.tail_cons] at hfst hshape
      rcases hd : drawInGroup s with ⟨_ | b, s'⟩ <;> rw [hd] at hfst hshape hinv
      · cases hfst
      · have hlen : (shape s').cur.length < n := by
          simp only [hc, List.length_cons] at hn
          simpa [hshape] using hn
        simpa using ih hinv hlen

theorem drainGroup_settles (h : Reads obs shape Inv) (hq : Settles shape Inv Q) {s : τ}
    (hs : Inv s) : Q (drainGroup s) := by
  have hle := h.length_le_supply s hs
  exact h.drainUpTo_settles hq hs (by omega)

end Reads

end Grouped

namespace Groups

variable {π α ρ β : Type} [Producer π α ρ] [GroupingRule β α] {toList : π → List α}
  {PInv : π → Prop} {p₀ : π} {r₀ : β}

/-- The base stream over a cursor answers `none` only quiet. -/
theorem settles (h : Producer.Streams toList PInv) :
    Grouped.Settles (pullShape toList p₀ r₀) (PullInv toList p₀ r₀ PInv) Quiet where
  drawInGroup_none _ hg hd := quiet_of_drawInGroup_none (Cursor.lifo_pulledFrom h p₀) hg.1.1 hd
  openNext_none _ _ _ hn := quiet_of_openNext_none hn

end Groups

namespace DropGroups

variable {τ α ρ ω : Type} [Grouped τ α ρ] {obs : τ → ω} {shape : τ → Grouped.Shape α ω}
  {Inv : τ → Prop} {Q : τ → Prop}

/-- Passing over groups answers `none` only when the stream underneath does, after draining every
group passed over. -/
theorem skipThenOpen_settles (h : Grouped.Reads obs shape Inv) (hq : Grouped.Settles shape Inv Q)
    (n : Nat) {s : τ} (hs : Inv s) (hc : (shape s).cur = []) (hn : (skipThenOpen n s).1 = none) :
    Q (skipThenOpen n s).2.2 := by
  induction n generalizing s with
  | zero =>
    have hnone := hq.openNext_none s hs hc
    rcases ho : Grouped.openNext s with ⟨i, s'⟩
    rw [skipThenOpen_zero ho] at hn ⊢
    rw [ho] at hnone
    exact hnone hn
  | succ n ih =>
    obtain ⟨-, -, h₃⟩ := h.openNext_spec s hs hc
    have hnone := hq.openNext_none s hs hc
    rcases ho : Grouped.openNext s with ⟨_ | j, s'⟩ <;> rw [ho] at h₃ hnone
    · rw [skipThenOpen_succ_none ho]
      exact hnone rfl
    · rw [skipThenOpen_succ_some ho] at hn ⊢
      obtain ⟨hd₁, hd₂⟩ := h.drainGroup_spec h₃
      exact ih hd₂ (by rw [hd₁]) hn

theorem settles (h : Grouped.Reads obs shape Inv) (hq : Grouped.Settles shape Inv Q) :
    Grouped.Settles (fun d : DropGroups τ ↦ (shape d.inner).drop d.skip) (fun d ↦ Inv d.inner)
      (fun d ↦ Q d.inner) where
  drawInGroup_none d hd hn := hq.drawInGroup_none d.inner hd hn
  openNext_none d hd hc hn := skipThenOpen_settles h hq d.skip hd hc hn

end DropGroups

namespace FilterGroups

variable {τ α ρ ω : Type} [Grouped τ α ρ] {obs : τ → ω} {shape : τ → Grouped.Shape α ω}
  {Inv : τ → Prop} {Q : τ → Prop}

/-- Opening selected groups answers `none` when the stream underneath does, or when the tries run
out, which happens only right after a group passed over has been drained. -/
theorem openSelected_settles (h : Grouped.Reads obs shape Inv) (hq : Grouped.Settles shape Inv Q)
    (select : Nat → Bool) {n : Nat} {s : τ} (hs : Inv s) (hc : (shape s).cur = [])
    (hzero : n = 0 → Q s) (hn : (openSelected select n s).1 = none) :
    Q (openSelected select n s).2 := by
  induction n generalizing s with
  | zero => exact hzero rfl
  | succ n ih =>
    obtain ⟨-, -, h₃⟩ := h.openNext_spec s hs hc
    have hnone := hq.openNext_none s hs hc
    rcases ho : Grouped.openNext s with ⟨_ | j, s'⟩ <;> rw [ho] at h₃ hnone
    · rw [openSelected_succ_none select ho]
      exact hnone rfl
    · rw [openSelected_succ_some select ho] at hn ⊢
      by_cases hsel : select j = true
      · rw [if_pos hsel] at hn
        cases hn
      · -- not selected: the group is drained and the next one is tried
        rw [if_neg hsel] at hn ⊢
        obtain ⟨hd₁, hd₂⟩ := h.drainGroup_spec h₃
        exact ih hd₂ (by rw [hd₁]) (fun _ ↦ h.drainGroup_settles hq h₃) hn

theorem settles (h : Grouped.Reads obs shape Inv) (hq : Grouped.Settles shape Inv Q) :
    Grouped.Settles (fun f : FilterGroups τ ↦ (shape f.inner).filter f.select)
      (fun f ↦ Inv f.inner) (fun f ↦ Q f.inner) where
  drawInGroup_none f hf hn := hq.drawInGroup_none f.inner hf hn
  openNext_none f hf hc hn :=
    openSelected_settles h hq f.select hf hc (fun h' ↦ absurd h' (by omega)) hn

end FilterGroups

namespace TakeGroups

variable {τ α ρ ω : Type} [Grouped τ α ρ] {obs : τ → ω} {shape : τ → Grouped.Shape α ω}
  {Inv : τ → Prop} {Q : τ → Prop}

@[simp] theorem active_drawInGroup (t : TakeGroups τ) :
    (Grouped.drawInGroup t).2.active = t.active := by
  rw [drawInGroup_eq]
  split <;> rfl

theorem active_openNext_of_some {t : TakeGroups τ} {i : Nat} (hi : (Grouped.openNext t).1 = some i) :
    (Grouped.openNext t).2.active = true := by
  cases hm : t.remaining with
  | zero =>
    rw [openNext_of_zero hm] at hi
    cases hi
  | succ m =>
    rcases ho : Grouped.openNext t.inner with ⟨_ | j, s'⟩
    · rw [openNext_of_succ_none hm ho] at hi
      cases hi
    · rw [openNext_of_succ_some hm ho]

/-- With a delivered group open, draining the take drains the stream underneath. -/
theorem drainUpTo_of_active (n : Nat) {t : TakeGroups τ} (ha : t.active = true) :
    (Grouped.drainUpTo n t).2 = { t with inner := (Grouped.drainUpTo n t.inner).2 } := by
  induction n generalizing t with
  | zero => rfl
  | succ n ih =>
    unfold Grouped.drainUpTo
    rw [drawInGroup_eq, if_pos ha]
    rcases Grouped.drawInGroup t.inner with ⟨_ | a, s'⟩
    · rfl
    · simpa using ih (t := { t with inner := s' }) ha

/-- Draining an open delivered group to its end settles the stream underneath. -/
theorem drainUpTo_settles (h : Grouped.Reads obs shape Inv) (hq : Grouped.Settles shape Inv Q)
    {n : Nat} {t : TakeGroups τ} (ha : t.active = true) (hs : Inv t.inner)
    (hn : (shape t.inner).cur.length < n) : Q (Grouped.drainUpTo n t).2.inner := by
  rw [drainUpTo_of_active n ha]
  exact h.drainUpTo_settles hq hs hn

/-- An opening that finds no group leaves a settled stream underneath settled: a take with
nothing left to deliver does not ask it anything. -/
theorem openNext_settles (hq : Grouped.Settles shape Inv Q) {t : TakeGroups τ} (hs : Inv t.inner)
    (hc : (shape t.inner).cur = []) (hQ : Q t.inner) (hn : (Grouped.openNext t).1 = none) :
    Q (Grouped.openNext t).2.inner := by
  cases hm : t.remaining with
  | zero =>
    rw [openNext_of_zero hm]
    exact hQ
  | succ m =>
    have hnone := hq.openNext_none t.inner hs hc
    rcases ho : Grouped.openNext t.inner with ⟨_ | i, s'⟩ <;> rw [ho] at hnone
    · rw [openNext_of_succ_none hm ho]
      exact hnone rfl
    · rw [openNext_of_succ_some hm ho] at hn
      cases hn

end TakeGroups

namespace Rejoin

variable {τ α ρ ω : Type} [Grouped τ α ρ] {obs : τ → ω} {shape : τ → Grouped.Shape α ω}
  {Inv : τ → Prop} {Q : τ → Prop}

variable (Q) in
/-- While the concatenation of a take reads a group, the take has that group open; with no group
open, the stream under the take is settled. -/
def Settled (r : Rejoin (TakeGroups τ)) : Prop :=
  (r.active = true → r.stream.active = true) ∧ (r.active = false → Q r.stream.inner)

/-- From no group open, a pull opens the take's next group and hands out its first element, with
the take's group open, or answers `none` with no group open and the stream underneath settled. -/
theorem settled_pull_of_inactive (h : Grouped.Reads obs shape Inv)
    (hq : Grouped.Settles shape Inv Q) (m : Nat) {t : TakeGroups τ}
    (ht : TakeGroups.Valid shape Inv t) (hc : (shape t.inner).cur = []) (hQ : Q t.inner) :
    Settled Q (pullUpTo (m + 2) ({ stream := t, active := false } : Rejoin (TakeGroups τ))).2 ∧
      ((pullUpTo (m + 2) ({ stream := t, active := false } : Rejoin (TakeGroups τ))).1 = none →
        (pullUpTo (m + 2) ({ stream := t, active := false } : Rejoin (TakeGroups τ))).2.active =
          false) := by
  have hreads := TakeGroups.reads h
  obtain ⟨h₁, h₂, h₃⟩ := hreads.openNext_spec t ht hc
  have hopen := TakeGroups.openNext_settles hq ht.1 hc hQ
  have hact : ∀ j, (Grouped.openNext t).1 = some j → (Grouped.openNext t).2.active = true :=
    fun _ hj ↦ TakeGroups.active_openNext_of_some hj
  unfold pullUpTo
  simp only [Bool.false_eq_true, if_false]
  rcases ho : Grouped.openNext t with ⟨_ | i, t'⟩ <;> rw [ho] at h₁ h₂ h₃ hopen hact
  · -- no group is left: the stream underneath is settled
    exact ⟨⟨fun h' ↦ absurd h' (by simp), fun _ ↦ hopen rfl⟩, fun _ ↦ rfl⟩
  · -- the next group opens, and its first element comes out
    obtain ⟨g, o, gs, hx⟩ := Grouped.Shape.next_eq_cons_of_openNext h₁.symm
    obtain ⟨-, hx₂, -, -, -⟩ := Grouped.Shape.openNext_of_cons hx
    have hg : g ≠ [] := ((shape t.inner).take t.remaining).next_ne_nil (i, g, o) (by simp [hx])
    obtain ⟨b, c, rfl⟩ := List.exists_cons_of_ne_nil hg
    have hcur : ((shape t'.inner).take t'.remaining).cur = b :: c := by rw [h₂, hx₂]
    have ht' : t'.active = true := hact i rfl
    dsimp only
    rw [pullUpTo_of_cur_cons hreads m h₃ rfl hcur]
    exact ⟨⟨fun _ ↦ by simp [ht'], fun h' ↦ absurd h' (by simp)⟩, fun h' ↦ absurd h' (by simp)⟩

/-- A pull keeps a concatenation of a take settled, and answers `none` only with no group open. -/
theorem settled_pull (h : Grouped.Reads obs shape Inv) (hq : Grouped.Settles shape Inv Q) {F : ω}
    {r : Rejoin (TakeGroups τ)}
    (hv : Valid (fun t ↦ (shape t.inner).take t.remaining) (TakeGroups.Valid shape Inv) F r)
    (hr : Settled Q r) :
    Settled Q (Producer.pull r).2 ∧ ((Producer.pull r).1 = none → (Producer.pull r).2.active = false) := by
  show Settled Q (pullUpTo (Grouped.supply r.stream + 2) r).2 ∧
    ((pullUpTo (Grouped.supply r.stream + 2) r).1 = none →
      (pullUpTo (Grouped.supply r.stream + 2) r).2.active = false)
  have hreads := TakeGroups.reads h
  obtain ⟨hs, hact, -⟩ := hv
  cases ha : r.active with
  | false =>
    have hc := hact ha
    have hr' : r = { stream := r.stream, active := false } := by cases r; simp_all
    rw [hr']
    exact settled_pull_of_inactive h hq _ hs hc (hr.2 ha)
  | true =>
    have hta := hr.1 ha
    cases hc : ((shape r.stream.inner).take r.stream.remaining).cur with
    | cons a c =>
      rw [pullUpTo_of_cur_cons hreads _ hs ha hc]
      exact ⟨⟨fun _ ↦ by simp [hta], fun h' ↦ absurd h' (by simp [ha])⟩,
        fun h' ↦ absurd h' (by simp)⟩
    | nil =>
      -- the draw that ends the group reaches the stream underneath and settles it
      obtain ⟨hfst, hshape, hinv⟩ := hreads.drawInGroup_spec r.stream hs
      rw [Grouped.Shape.draw_cur_nil hc] at hfst hshape
      have hQ : Q (Grouped.drawInGroup r.stream).2.inner := by
        rw [TakeGroups.drawInGroup_eq, if_pos hta] at hfst ⊢
        exact hq.drawInGroup_none _ hs.1 hfst
      have hc' : (shape (Grouped.drawInGroup r.stream).2.inner).cur = [] := by
        have hcur := congrArg Grouped.Shape.cur hshape
        exact hcur.trans hc
      rw [pullUpTo_of_cur_nil hreads _ hs ha hc]
      exact settled_pull_of_inactive h hq _ hinv hc' hQ

end Rejoin

namespace FoldGroups

variable {τ α ρ ω β : Type} [Grouped τ α ρ] {obs : τ → ω} {shape : τ → Grouped.Shape α ω}
  {Inv : τ → Prop} {Q : τ → Prop}

/-- Between groups the stream under a take read one fold per group is settled, and a pull keeps it
so: it folds the group it opens to its end. -/
theorem settled_pull (h : Grouped.Reads obs shape Inv) (hq : Grouped.Settles shape Inv Q) {F : ω}
    {f : FoldGroups (TakeGroups τ) β α}
    (hv : Valid (fun t ↦ (shape t.inner).take t.remaining) (TakeGroups.Valid shape Inv) F f)
    (hQ : Q f.stream.inner) : Q (Producer.pull f).2.stream.inner := by
  obtain ⟨hs, hc, -⟩ := hv
  have hopen := TakeGroups.openNext_settles hq hs.1 hc hQ
  have hact : ∀ j, (Grouped.openNext f.stream).1 = some j →
      (Grouped.openNext f.stream).2.active = true :=
    fun _ hj ↦ TakeGroups.active_openNext_of_some hj
  obtain ⟨-, -, h₃⟩ := (TakeGroups.reads h).openNext_spec f.stream hs hc
  show Q (pull f).2.stream.inner
  unfold pull
  rcases ho : Grouped.openNext f.stream with ⟨_ | i, t'⟩ <;> rw [ho] at hopen hact h₃
  · exact hopen rfl
  · -- the group opened is folded to its end, which settles the stream underneath
    have hlen := h.length_le_supply t'.inner h₃.1
    have hsettled := TakeGroups.drainUpTo_settles (t := t') h hq (hact i rfl) h₃.1
      (n := Grouped.supply t' + 1) (by show _ < Grouped.supply t'.inner + 1; omega)
    rw [← Grouped.foldGroupUpTo_snd f.step _ f.init] at hsettled
    exact hsettled

end FoldGroups

namespace Grouped

variable {τ α ρ ω : Type} [Grouped τ α ρ] {obs : τ → ω} {shape : τ → Shape α ω}
  {Inv : τ → Prop} {Q : τ → Prop}

/-- Reading the groups of a take whole, from a settled stream underneath, leaves it settled. -/
theorem settled_readGroupsUpTo (h : Reads obs shape Inv) (hq : Settles shape Inv Q) (n : Nat)
    {t : TakeGroups τ} (ht : TakeGroups.Valid shape Inv t) (hc : (shape t.inner).cur = [])
    (hQ : Q t.inner) : Q (readGroupsUpTo n t).2.inner := by
  induction n generalizing t with
  | zero => exact hQ
  | succ n ih =>
    have hreads := TakeGroups.reads h
    have hopen := TakeGroups.openNext_settles hq ht.1 hc hQ
    have hact : ∀ j, (openNext t).1 = some j → (openNext t).2.active = true :=
      fun _ hj ↦ TakeGroups.active_openNext_of_some hj
    obtain ⟨-, -, h₃⟩ := hreads.openNext_spec t ht hc
    unfold readGroupsUpTo
    rcases ho : openNext t with ⟨_ | i, t'⟩ <;> rw [ho] at hopen hact h₃
    · exact hopen rfl
    · -- the group is read whole, which settles the stream underneath; then the rest are read
      obtain ⟨-, hr₂, hr₃⟩ := hreads.readGroup_spec h₃
      have hlen := h.length_le_supply t'.inner h₃.1
      have hQ' : Q (readGroup t').2.inner := by
        rw [readGroup, readGroupUpTo_snd]
        exact TakeGroups.drainUpTo_settles (t := t') h hq (hact i rfl) h₃.1
          (show _ < supply t'.inner + 1 by omega)
      have hc' : (shape (readGroup t').2.inner).cur = [] := congrArg Shape.cur hr₂
      simpa using ih hr₃ hc' hQ'

/-- Reading every group of a take, from a settled stream underneath, leaves it settled. -/
theorem settled_readGroups (h : Reads obs shape Inv) (hq : Settles shape Inv Q)
    {t : TakeGroups τ} (ht : TakeGroups.Valid shape Inv t) (hc : (shape t.inner).cur = [])
    (hQ : Q t.inner) : Q (readGroups t).2.inner :=
  settled_readGroupsUpTo h hq _ ht hc hQ

end Grouped

end Spool
