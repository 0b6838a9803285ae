import Spool.Proofs.Conservation

/-!
# Opened groups are never empty, so the loops over them end

Opening a group of the base stream restarts its view, resets the rule and peeks, and the group
opens only when that peek finds an element. The element stays lent to the parent, so the first
draw from the group hands it back (`Groups.drawInGroup_openNext`). A window opens a group only when
the stream underneath opens one: a take and a borrow pass the opening on, a drop and a filter
after draining the groups they pass over. So after any opening of any window that answers an
index, the first draw returns an element.

`Grouped.Progress root rootRest Inv` gathers what the loops over a group stream rest on: the stream
tracks the list `root`, which its supply covers, and the first draw after an opening that answers
an index returns an element. The base stream over a context that reads as a list has it
(`Groups.progress`), and every window and borrow on a stream that has it has it too
(`TakeGroups.progress`, `DropGroups.progress`, `FilterGroups.progress`, `Borrow.progress`).

The loops are run with fuel, and `EndsWithin run k r` says that every run of at least `k` rounds
answers `r`, so that the fuel never cuts the loop short. Every round of a drain or of a fold of the
open group takes an element off `root`, and so does every group that a drop or a filter passes
over, since it is drained of at least its first element: these loops end within one round more
than `root` holds (`Grouped.Tracks.drainUpTo_endsWithin`, `FoldGroups.foldGroupUpTo_endsWithin`,
`DropGroups.skipThenOpen_endsWithin`, `FilterGroups.openSelected_endsWithin`). A concatenation
that opens a group draws from it at once, and so does an intercalation once past the separator, so
their pulls end within two and three rounds (`Rejoin.pullUpTo_endsWithin`,
`Intercalate.pullUpTo_endsWithin`). `Groups.opened_groups_are_never_empty` gathers these facts.
-/

set_option autoImplicit false

namespace Spool

/-- `run n` runs a loop for at most `n` rounds. The loop ends within `k` rounds with the answer `r`
when every run of at least `k` rounds answers `r`: no fuel from `k` on cuts it short. -/
def EndsWithin {X : Type} (run : Nat → X) (k : Nat) (r : X) : Prop :=
  ∀ n, k ≤ n → run n = r

namespace Grouped

variable {τ α ρ : Type} [Grouped τ α ρ]

/-- What the loops over a group stream rest on, on the states satisfying `Inv`: the stream tracks
the list `root`, its supply covers `root`, and a group that opens is never empty, so the first draw
after an opening that answers an index returns an element. -/
structure Progress (root : τ → List α) (rootRest : ρ → List α) (Inv : τ → Prop) : Prop
    extends Tracks root rootRest Inv where
  length_root_le_supply : ∀ s, Inv s → (root s).length ≤ supply s
  drawInGroup_openNext : ∀ s, Inv s → (openNext s).1.isSome →
    (drawInGroup (openNext s).2).1.isSome

variable {root : τ → List α} {rootRest : ρ → List α} {Inv : τ → Prop}

/-- Tracking holds on any smaller set of states that every operation keeps. -/
theorem Tracks.restrict (h : Tracks root rootRest Inv) {Inv' : τ → Prop} (hk : Keeps Inv')
    (hsub : ∀ s, Inv' s → Inv s) : Tracks root rootRest Inv' where
  toKeeps := hk
  openNext_root s hs := h.openNext_root s (hsub s hs)
  drawInGroup_root s hs := h.drawInGroup_root s (hsub s hs)
  undrawInGroup_root a s hs := h.undrawInGroup_root a s (hsub s hs)
  peekInGroup_root s hs := h.peekInGroup_root s (hsub s hs)
  intoRest_root s hs := h.intoRest_root s (hsub s hs)

/-- A draw that returns an element takes exactly that element off `root`. -/
theorem Tracks.root_of_drawInGroup (h : Tracks root rootRest Inv) {s : τ} (hs : Inv s) {a : α}
    {s' : τ} (hd : drawInGroup s = (some a, s')) : root s = a :: root s' := by
  have hroot := h.drawInGroup_root s hs
  rw [hd] at hroot
  exact hroot

/-- A group whose first draw returns an element is read as a list that starts with it. -/
theorem readGroup_ne_nil {s : τ} (hd : (drawInGroup s).1.isSome) : (readGroup s).1 ≠ [] := by
  show (readGroupUpTo (supply s + 1) s).1 ≠ []
  rw [readGroupUpTo.eq_2]
  rcases hr : drawInGroup s with ⟨_ | a, s'⟩
  · rw [hr] at hd
    cases hd
  · simp

/-- Draining a group whose first draw returns an element takes at least that element off
`root`. -/
theorem Tracks.length_root_drainGroup_lt (h : Tracks root rootRest Inv) {s : τ} (hs : Inv s)
    (hd : (drawInGroup s).1.isSome) : (root (drainGroup s)).length < (root s).length := by
  have hsplit := (h.drainGroup_root hs).1
  have hne := readGroup_ne_nil hd
  rw [hsplit, List.length_append]
  have := List.length_pos_iff.mpr hne
  omega

/-- Two drains of the open group with more rounds than `root` holds elements end alike: every
round but the last takes an element off `root`. -/
theorem Tracks.drainUpTo_agree (h : Tracks root rootRest Inv) {n m : Nat} {s : τ} (hs : Inv s)
    (hn : (root s).length < n) (hm : (root s).length < m) : drainUpTo n s = drainUpTo m s := by
  induction n generalizing s m with
  | zero => omega
  | succ n ih =>
    obtain ⟨m, rfl⟩ : ∃ m', m = m' + 1 := ⟨m - 1, by omega⟩
    unfold drainUpTo
    rcases hd : drawInGroup s with ⟨_ | a, s'⟩
    · rfl
    · have hroot := h.root_of_drawInGroup hs hd
      have hinv : Inv s' := by simpa [hd] using h.drawInGroup_inv s hs
      rw [hroot, List.length_cons] at hn hm
      dsimp only
      rw [ih hinv (by omega) (show (root s').length < m by omega)]

/-- Draining the open group ends within one round more than `root` holds elements, with the drain
that the stream makes. -/
theorem Tracks.drainUpTo_endsWithin (h : Tracks root rootRest Inv)
    (hsupply : ∀ s, Inv s → (root s).length ≤ supply s) {s : τ} (hs : Inv s) :
    EndsWithin (fun n ↦ (drainUpTo n s).2) ((root s).length + 1) (drainGroup s) := by
  intro n hn
  have hle := hsupply s hs
  show (drainUpTo n s).2 = (drainUpTo (supply s + 1) s).2
  rw [h.drainUpTo_agree hs (by omega) (show (root s).length < supply s + 1 by omega)]

namespace Progress

/-- Opening a group and draining it takes at least one element off `root`. -/
theorem length_root_drain_openNext_lt (h : Progress root rootRest Inv) {s : τ} (hs : Inv s)
    (ho : (openNext s).1.isSome) :
    (root (drainGroup (openNext s).2)).length < (root s).length ∧
      Inv (drainGroup (openNext s).2) := by
  have hinv := h.openNext_inv s hs
  have hdrain := h.toTracks.length_root_drainGroup_lt hinv (h.drawInGroup_openNext s hs ho)
  have hsuffix := (h.openNext_root s hs).length_le
  exact ⟨by omega, (h.drainGroup_root hinv).2⟩

end Progress

end Grouped

namespace Groups

open GroupingRule

variable {γ β α : Type} [Context γ α] [GroupingRule β α] {toList : γ → List α} {I : γ → Prop}

/-- A group opens only when the opening peek finds an element, and the first draw from it hands
back exactly that element, lent to the parent by the peek. -/
theorem drawInGroup_openNext (h : Context.Lifo toList I) {g : Groups γ β}
    (hg : View.Backed toList I g.view) (ho : (openNext g).1.isSome) :
    ((reopened (α := α) g).peek.1).isSome ∧
      (Grouped.drawInGroup (openNext g).2).1 = (reopened (α := α) g).peek.1 := by
  have hw : View.Backed toList I (reopened (α := α) g) :=
    View.backed_setBound (View.backed_restart hg) _
  obtain ⟨hp₁, hp₂, hp₃, -⟩ := View.peek_spec h hw
  have hsome : ((reopened (α := α) g).peek.1).isSome := by
    by_contra hnone
    rw [openNext_eq, if_neg hnone] at ho
    simp at ho
  refine ⟨hsome, ?_⟩
  rw [openNext_eq, if_pos hsome, drawInGroup_of_active rfl]
  -- the peek pushed its element back, so the view's contents still start with it
  rw [(View.draw_spec h hp₃).1, hp₂, hp₁]

/-- The groups of a context that reads as a list, on their sound states, track the context's list,
which its supply covers, and open no empty group. -/
theorem progress (h : Context.Lifo toList I) {r₀ : β} (hr : Restarts α r₀) :
    Grouped.Progress (fun g : Groups γ β ↦ toList g.view.parent) toList (Sound toList I r₀) where
  toTracks := (tracks h.tracks).restrict (keeps h hr) fun _ hg ↦ hg.1.1
  length_root_le_supply g hg := h.length_le_supply g.view.parent hg.1.1
  drawInGroup_openNext g hg ho := by
    obtain ⟨hsome, hdraw⟩ := drawInGroup_openNext h hg.1 ho
    show (Grouped.drawInGroup (openNext g).2).1.isSome
    rw [hdraw]
    exact hsome

end Groups

namespace TakeGroups

variable {τ α ρ : Type} [Grouped τ α ρ] {root : τ → List α} {rootRest : ρ → List α}
  {Inv : τ → Prop}

/-- A take opens a group only when the stream underneath opens one, and then reads it from the
stream underneath. -/
theorem progress (h : Grouped.Progress root rootRest Inv) :
    Grouped.Progress (fun t : TakeGroups τ ↦ root t.inner) rootRest (fun t ↦ Inv t.inner) where
  toTracks := tracks h.toTracks
  length_root_le_supply t ht := h.length_root_le_supply t.inner ht
  drawInGroup_openNext t ht ho := by
    cases hm : t.remaining with
    | zero =>
      rw [openNext_of_zero hm] at ho
      cases ho
    | succ m =>
      rcases hi : Grouped.openNext t.inner with ⟨_ | i, s'⟩
      · rw [openNext_of_succ_none hm hi] at ho
        cases ho
      · have hinner := h.drawInGroup_openNext t.inner ht (by rw [hi]; rfl)
        rw [hi] at hinner
        rw [openNext_of_succ_some hm hi, drawInGroup_eq]
        exact hinner

end TakeGroups

namespace DropGroups

variable {τ α ρ : Type} [Grouped τ α ρ] {root : τ → List α} {rootRest : ρ → List α}
  {Inv : τ → Prop}

/-- Passing over groups ends with an opening of the stream underneath: when it answers an index,
the first draw from the group returns an element. -/
theorem drawInGroup_skipThenOpen (h : Grouped.Progress root rootRest Inv) (n : Nat) {s : τ}
    (hs : Inv s) (ho : (skipThenOpen n s).1.isSome) :
    (Grouped.drawInGroup (skipThenOpen n s).2.2).1.isSome := by
  induction n generalizing s with
  | zero => exact h.drawInGroup_openNext s hs ho
  | succ n ih =>
    rcases hi : Grouped.openNext s with ⟨_ | i, s'⟩
    · rw [skipThenOpen_succ_none hi] at ho
      cases ho
    · have hdrain := (h.length_root_drain_openNext_lt hs (by rw [hi]; rfl)).2
      rw [hi] at hdrain
      rw [skipThenOpen_succ_some hi] at ho ⊢
      exact ih hdrain ho

theorem progress (h : Grouped.Progress root rootRest Inv) :
    Grouped.Progress (fun d : DropGroups τ ↦ root d.inner) rootRest (fun d ↦ Inv d.inner) where
  toTracks := tracks h.toTracks
  length_root_le_supply d hd := h.length_root_le_supply d.inner hd
  drawInGroup_openNext d hd ho := drawInGroup_skipThenOpen h d.skip hd ho

/-- With more groups to pass over than `root` holds elements, passing over answers that no group
is left, and two such passes leave the stream alike: every group passed over takes an element off
`root`. -/
theorem skipThenOpen_agree (h : Grouped.Progress root rootRest Inv) {n m : Nat} {s : τ}
    (hs : Inv s) (hn : (root s).length < n) (hm : (root s).length < m) :
    (skipThenOpen n s).1 = none ∧ (skipThenOpen n s).2.2 = (skipThenOpen m s).2.2 := by
  induction n generalizing s m with
  | zero => omega
  | succ n ih =>
    obtain ⟨m, rfl⟩ : ∃ m', m = m' + 1 := ⟨m - 1, by omega⟩
    rcases hi : Grouped.openNext s with ⟨_ | i, s'⟩
    · rw [skipThenOpen_succ_none hi, skipThenOpen_succ_none hi]
      exact ⟨rfl, rfl⟩
    · obtain ⟨hlt, hinv⟩ := h.length_root_drain_openNext_lt hs (by rw [hi]; rfl)
      simp only [hi] at hlt hinv
      rw [skipThenOpen_succ_some hi, skipThenOpen_succ_some hi]
      exact ih hinv (by omega) (by omega)

/-- Passing over groups ends within one round more than `root` holds elements: from there on the
count left to pass over no longer changes where the stream is left, and no group opens. -/
theorem skipThenOpen_endsWithin (h : Grouped.Progress root rootRest Inv) {s : τ} (hs : Inv s) :
    EndsWithin (fun n ↦ ((skipThenOpen n s).1, (skipThenOpen n s).2.2)) ((root s).length + 1)
      (none, (skipThenOpen ((root s).length + 1) s).2.2) := by
  intro n hn
  obtain ⟨h₁, h₂⟩ := skipThenOpen_agree h hs (show (root s).length < n by omega)
    (show (root s).length < (root s).length + 1 by omega)
  dsimp only
  rw [h₁, h₂]

end DropGroups

namespace FilterGroups

variable {τ α ρ : Type} [Grouped τ α ρ] {root : τ → List α} {rootRest : ρ → List α}
  {Inv : τ → Prop}

/-- Opening the selected groups ends with an opening of the stream underneath: when it answers an
index, the first draw from the group returns an element. -/
theorem drawInGroup_openSelected (h : Grouped.Progress root rootRest Inv) (select : Nat → Bool)
    (n : Nat) {s : τ} (hs : Inv s) (ho : (openSelected select n s).1.isSome) :
    (Grouped.drawInGroup (openSelected select n s).2).1.isSome := by
  induction n generalizing s with
  | zero => cases ho
  | succ n ih =>
    rcases hi : Grouped.openNext s with ⟨_ | i, s'⟩
    · rw [openSelected_succ_none select hi] at ho
      cases ho
    · have hopen := h.drawInGroup_openNext s hs (by rw [hi]; rfl)
      have hdrain := (h.length_root_drain_openNext_lt hs (by rw [hi]; rfl)).2
      rw [hi] at hopen hdrain
      rw [openSelected_succ_some select hi] at ho ⊢
      split
      · exact hopen
      · rename_i hsel
        rw [if_neg hsel] at ho
        exact ih hdrain ho

theorem progress (h : Grouped.Progress root rootRest Inv) :
    Grouped.Progress (fun f : FilterGroups τ ↦ root f.inner) rootRest (fun f ↦ Inv f.inner) where
  toTracks := tracks h.toTracks
  length_root_le_supply f hf := h.length_root_le_supply f.inner hf
  drawInGroup_openNext f hf ho := drawInGroup_openSelected h f.select _ hf ho

/-- Two runs of opening the selected groups with more tries than `root` holds elements end alike:
every group not selected takes an element off `root`. -/
theorem openSelected_agree (h : Grouped.Progress root rootRest Inv) (select : Nat → Bool)
    {n m : Nat} {s : τ} (hs : Inv s) (hn : (root s).length < n) (hm : (root s).length < m) :
    openSelected select n s = openSelected select m s := by
  induction n generalizing s m with
  | zero => omega
  | succ n ih =>
    obtain ⟨m, rfl⟩ : ∃ m', m = m' + 1 := ⟨m - 1, by omega⟩
    rcases hi : Grouped.openNext s with ⟨_ | i, s'⟩
    · rw [openSelected_succ_none select hi, openSelected_succ_none select hi]
    · obtain ⟨hlt, hinv⟩ := h.length_root_drain_openNext_lt hs (by rw [hi]; rfl)
      simp only [hi] at hlt hinv
      rw [openSelected_succ_some select hi, openSelected_succ_some select hi]
      split
      · rfl
      · exact ih hinv (by omega) (by omega)

/-- Opening the selected groups ends within one round more than `root` holds elements, with the
answer the filter gets from the tries it is given. -/
theorem openSelected_endsWithin (h : Grouped.Progress root rootRest Inv) (select : Nat → Bool)
    {s : τ} (hs : Inv s) :
    EndsWithin (fun n ↦ openSelected select n s) ((root s).length + 1)
      (openSelected select (Grouped.supply s + 1) s) := by
  have hle := h.length_root_le_supply s hs
  exact fun n hn ↦ openSelected_agree h select hs (by omega) (by omega)

end FilterGroups

namespace Borrow

variable {τ α ρ : Type} [Grouped τ α ρ] {root : τ → List α} {rootRest : ρ → List α}
  {Inv : τ → Prop}

theorem progress (h : Grouped.Progress root rootRest Inv) :
    Grouped.Progress (fun b : Borrow τ ↦ root b.stream) root (fun b ↦ Inv b.stream) where
  toTracks := tracks h.toTracks
  length_root_le_supply b hb := h.length_root_le_supply b.stream hb
  drawInGroup_openNext b hb ho := h.drawInGroup_openNext b.stream hb ho

end Borrow

namespace FoldGroups

variable {τ α ρ β : Type} [Grouped τ α ρ] {root : τ → List α} {rootRest : ρ → List α}
  {Inv : τ → Prop}

/-- Two folds of the open group with more rounds than `root` holds elements end alike. -/
theorem foldGroupUpTo_agree (h : Grouped.Tracks root rootRest Inv) (step : β → α → β)
    {n m : Nat} (acc : β) {s : τ} (hs : Inv s) (hn : (root s).length < n)
    (hm : (root s).length < m) : foldGroupUpTo step n acc s = foldGroupUpTo step m acc s := by
  induction n generalizing s m acc with
  | zero => omega
  | succ n ih =>
    obtain ⟨m, rfl⟩ : ∃ m', m = m' + 1 := ⟨m - 1, by omega⟩
    unfold foldGroupUpTo
    rcases hd : Grouped.drawInGroup s with ⟨_ | a, s'⟩
    · rfl
    · have hroot := h.root_of_drawInGroup hs hd
      have hinv : Inv s' := by simpa [hd] using h.drawInGroup_inv s hs
      rw [hroot, List.length_cons] at hn hm
      exact ih (step acc a) hinv (by omega) (by omega)

/-- Folding the open group, as a pull does once it has opened it, ends within one round more than
`root` holds elements. -/
theorem foldGroupUpTo_endsWithin (h : Grouped.Progress root rootRest Inv) (step : β → α → β)
    (acc : β) {s : τ} (hs : Inv s) :
    EndsWithin (fun n ↦ foldGroupUpTo step n acc s) ((root s).length + 1)
      (foldGroupUpTo step (Grouped.supply s + 1) acc s) := by
  have hle := h.length_root_le_supply s hs
  exact fun n hn ↦ foldGroupUpTo_agree h.toTracks step acc hs (by omega) (by omega)

/-- Folding with any number of rounds keeps what every operation keeps. -/
theorem inv_foldGroupUpTo (h : Grouped.Keeps Inv) (step : β → α → β) (n : Nat) (acc : β) {s : τ}
    (hs : Inv s) : Inv (foldGroupUpTo step n acc s).2 := by
  induction n generalizing s acc with
  | zero => exact hs
  | succ n ih =>
    have hinv := h.drawInGroup_inv s hs
    unfold foldGroupUpTo
    rcases hd : Grouped.drawInGroup s with ⟨_ | a, s'⟩ <;> rw [hd] at hinv
    · exact hinv
    · exact ih (step acc a) hinv

/-- A pull leaves the stream in a state of `Inv`, ready for the next. -/
theorem inv_pull (h : Grouped.Keeps Inv) {f : FoldGroups τ β α} (hf : Inv f.stream) :
    Inv (pull f).2.stream := by
  have hopen := h.openNext_inv _ hf
  unfold pull
  rcases ho : Grouped.openNext f.stream with ⟨_ | i, s'⟩ <;> rw [ho] at hopen
  · exact hopen
  · exact inv_foldGroupUpTo h f.step _ f.init hopen

end FoldGroups

namespace Rejoin

variable {τ α ρ : Type} [Grouped τ α ρ] {root : τ → List α} {rootRest : ρ → List α}
  {Inv : τ → Prop}

/-- With a group open whose next draw returns an element, a pull hands it out at once. -/
theorem pullUpTo_of_drawInGroup_some {r : Rejoin τ} (ha : r.active = true) {a : α} {s' : τ}
    (hd : Grouped.drawInGroup r.stream = (some a, s')) (n : Nat) :
    pullUpTo (n + 1) r = (some a, { r with stream := s' }) := by
  unfold pullUpTo
  simp only [ha, if_true, hd]

/-- With a group open whose next draw answers nothing, a pull goes on as from no group open. -/
theorem pullUpTo_of_drawInGroup_none {r : Rejoin τ} (ha : r.active = true) {s' : τ}
    (hd : Grouped.drawInGroup r.stream = (none, s')) (n : Nat) :
    pullUpTo (n + 1) r = pullUpTo (n + 1) { stream := s', active := false } := by
  unfold pullUpTo
  simp only [ha, if_true, hd, Bool.false_eq_true, if_false]

theorem eq_closed {r : Rejoin τ} (ha : r.active = false) :
    r = { stream := r.stream, active := false } := by
  rw [← ha]

/-- With no group open, a pull opens the next group and, as it is never empty, hands out its first
element: two rounds, whatever the fuel beyond them. -/
theorem pullUpTo_reopen (h : Grouped.Progress root rootRest Inv) {s : τ} (hs : Inv s) (k : Nat) :
    pullUpTo (k + 2) ({ stream := s, active := false } : Rejoin τ) =
      pullUpTo 2 { stream := s, active := false } := by
  have hfirst := h.drawInGroup_openNext s hs
  unfold pullUpTo
  simp only [Bool.false_eq_true, if_false]
  rcases ho : Grouped.openNext s with ⟨_ | i, s'⟩
  · rfl
  · rw [ho] at hfirst
    obtain ⟨a, s'', hd⟩ : ∃ a s'', Grouped.drawInGroup s' = (some a, s'') := by
      rcases hd : Grouped.drawInGroup s' with ⟨_ | a, s''⟩
      · rw [hd] at hfirst
        cases hfirst rfl
      · exact ⟨a, s'', rfl⟩
    dsimp only
    rw [pullUpTo_of_drawInGroup_some rfl hd, pullUpTo_of_drawInGroup_some rfl hd]

/-- A pull ends within two rounds, as the concatenation itself runs it: a draw from the open group,
or else an opening and a draw from the group opened. -/
theorem pullUpTo_endsWithin (h : Grouped.Progress root rootRest Inv) {r : Rejoin τ}
    (hr : Inv r.stream) : EndsWithin (pullUpTo · r) 2 (Producer.pull r) := by
  have hrounds : ∀ k, pullUpTo (k + 2) r = pullUpTo 2 r := by
    intro k
    cases ha : r.active with
    | false =>
      rw [eq_closed ha]
      exact pullUpTo_reopen h hr k
    | true =>
      rcases hd : Grouped.drawInGroup r.stream with ⟨_ | a, s'⟩
      · have hinv : Inv s' := by simpa [hd] using h.drawInGroup_inv r.stream hr
        rw [pullUpTo_of_drawInGroup_none ha hd, pullUpTo_of_drawInGroup_none ha hd]
        exact pullUpTo_reopen h hinv k
      · rw [pullUpTo_of_drawInGroup_some ha hd, pullUpTo_of_drawInGroup_some ha hd]
  intro n hn
  obtain ⟨k, rfl⟩ : ∃ k, n = k + 2 := ⟨n - 2, by omega⟩
  show pullUpTo (k + 2) r = pullUpTo (Grouped.supply r.stream + 2) r
  rw [hrounds k, hrounds (Grouped.supply r.stream)]

/-- A pull, with any fuel, leaves the stream in a state of `Inv`, ready for the next. -/
theorem inv_pullUpTo (h : Grouped.Keeps Inv) (n : Nat) {r : Rejoin τ} (hr : Inv r.stream) :
    Inv (pullUpTo n r).2.stream := by
  induction n generalizing r with
  | zero => exact hr
  | succ n ih =>
    -- after a draw that answers nothing, the pull goes on as from no group open
    have hclosed : ∀ s : τ, Inv s →
        Inv (pullUpTo (n + 1) ({ stream := s, active := false } : Rejoin τ)).2.stream := by
      intro s hs
      have hopen := h.openNext_inv s hs
      unfold pullUpTo
      simp only [Bool.false_eq_true, if_false]
      rcases ho : Grouped.openNext s with ⟨_ | i, s'⟩ <;> rw [ho] at hopen
      · exact hopen
      · exact ih hopen
    cases ha : r.active with
    | false =>
      rw [eq_closed ha]
      exact hclosed r.stream hr
    | true =>
      have hinv := h.drawInGroup_inv r.stream hr
      rcases hd : Grouped.drawInGroup r.stream with ⟨_ | a, s'⟩ <;> rw [hd] at hinv
      · rw [pullUpTo_of_drawInGroup_none ha hd]
        exact hclosed s' hinv
      · rw [pullUpTo_of_drawInGroup_some ha hd]
        exact hinv

end Rejoin

namespace Intercalate

variable {τ α ρ : Type} [Grouped τ α ρ] {root : τ → List α} {rootRest : ρ → List α}
  {Inv : τ → Prop}

variable (Inv) in
/-- The stream is in a state of `Inv`, and inside a separator the group that follows it is open
and its first draw returns an element. -/
def Primed (p : Intercalate τ α) : Prop :=
  Inv p.stream ∧ ∀ pos, p.phase = .separator pos → (Grouped.drawInGroup p.stream).1.isSome

/-- An intercalation that has not started is primed on a state of `Inv`. -/
theorem primed_intercalate (sep : List α) {s : τ} (hs : Inv s) :
    Primed Inv (Grouped.intercalate sep s) :=
  ⟨hs, fun _ hp ↦ Phase.noConfusion hp⟩

/-- Inside a group whose next draw returns an element, a pull hands it out at once. -/
theorem pullUpTo_group_some {p : Intercalate τ α} (hp : p.phase = .group) {a : α} {s' : τ}
    (hd : Grouped.drawInGroup p.stream = (some a, s')) (n : Nat) :
    pullUpTo (n + 1) p = (some a, { p with stream := s' }) := by
  rw [pullUpTo.eq_2, hp]
  simp only [hd]

/-- Inside a group whose next draw answers nothing, a pull opens the next group, to be read after
the separator. -/
theorem pullUpTo_group_none {p : Intercalate τ α} (hp : p.phase = .group) {s' : τ}
    (hd : Grouped.drawInGroup p.stream = (none, s')) (n : Nat) :
    pullUpTo (n + 1) p =
      pullUpTo n
        { p with
          stream := (Grouped.openNext s').2
          phase := if (Grouped.openNext s').1.isSome then .separator 0 else .done } := by
  rw [pullUpTo.eq_2, hp]
  simp only [hd]

/-- A group that opens with an element to draw hands it out at the first round, whatever the
fuel. -/
theorem pullUpTo_group_of_isSome {p : Intercalate τ α} (hp : p.phase = .group)
    (hd : (Grouped.drawInGroup p.stream).1.isSome) (n m : Nat) :
    pullUpTo (n + 1) p = pullUpTo (m + 1) p := by
  obtain ⟨a, s', hds⟩ : ∃ a s', Grouped.drawInGroup p.stream = (some a, s') := by
    rcases hdr : Grouped.drawInGroup p.stream with ⟨_ | a, s'⟩
    · rw [hdr] at hd
      cases hd
    · exact ⟨a, s', rfl⟩
  rw [pullUpTo_group_some hp hds, pullUpTo_group_some hp hds]

/-- A pull ends within three rounds: a draw from the open group, or else an opening, the
separator's next element or its end, and a draw from the group opened, which is never empty. -/
theorem pullUpTo_endsWithin (h : Grouped.Progress root rootRest Inv) {p : Intercalate τ α}
    (hp : Primed Inv p) : EndsWithin (pullUpTo · p) 3 (Producer.pull p) := by
  obtain ⟨hs, hsep⟩ := hp
  have hrounds : ∀ k, pullUpTo (k + 3) p = pullUpTo 3 p := by
    intro k
    cases hph : p.phase with
    | start =>
      -- the first opening, then the first group's first element
      have hfirst := h.drawInGroup_openNext p.stream hs
      rw [pullUpTo_start (k + 2) hph, pullUpTo_start 2 hph]
      rcases ho : Grouped.openNext p.stream with ⟨_ | i, s'⟩
      · simp only [Option.isSome_none, Bool.false_eq_true, if_false]
        rw [pullUpTo_done rfl, pullUpTo_done rfl]
      · rw [ho] at hfirst
        simp only [Option.isSome_some, if_true]
        exact pullUpTo_group_of_isSome rfl (hfirst rfl) (k + 1) 1
    | group =>
      rcases hd : Grouped.drawInGroup p.stream with ⟨_ | a, s'⟩
      · -- the group is read: the next opens, and is read after the separator
        have hinv : Inv s' := by simpa [hd] using h.drawInGroup_inv p.stream hs
        have hfirst := h.drawInGroup_openNext s' hinv
        rw [pullUpTo_group_none hph hd, pullUpTo_group_none hph hd]
        rcases ho : Grouped.openNext s' with ⟨_ | i, s''⟩
        · simp only [Option.isSome_none, Bool.false_eq_true, if_false]
          rw [pullUpTo_done rfl, pullUpTo_done rfl]
        · rw [ho] at hfirst
          simp only [Option.isSome_some, if_true]
          rw [pullUpTo_separator (k + 1) rfl, pullUpTo_separator 1 rfl]
          split
          · rfl
          · exact pullUpTo_group_of_isSome rfl (hfirst rfl) k 0
      · rw [pullUpTo_group_some hph hd, pullUpTo_group_some hph hd]
    | separator pos =>
      rw [pullUpTo_separator (k + 2) hph, pullUpTo_separator 2 hph]
      split
      · rfl
      · exact pullUpTo_group_of_isSome (p := { p with phase := .group }) rfl (hsep pos hph)
          (k + 1) 1
    | done => rw [pullUpTo_done hph, pullUpTo_done hph]
  intro n hn
  obtain ⟨k, rfl⟩ : ∃ k, n = k + 3 := ⟨n - 3, by omega⟩
  show pullUpTo (k + 3) p = pullUpTo (supply p + 4) p
  rw [hrounds k, show supply p + 4 = (supply p + 1) + 3 by omega, hrounds (supply p + 1)]

/-- A pull, with any fuel, keeps an intercalation primed: a separator is entered only right after
an opening that answered an index. -/
theorem primed_pullUpTo (h : Grouped.Progress root rootRest Inv) (n : Nat) {p : Intercalate τ α}
    (hp : Primed Inv p) : Primed Inv (pullUpTo n p).2 := by
  induction n generalizing p with
  | zero => exact hp
  | succ n ih =>
    obtain ⟨hs, hsep⟩ := hp
    cases hph : p.phase with
    | start =>
      rw [pullUpTo_start n hph]
      refine ih ⟨h.openNext_inv _ hs, fun pos hpos ↦ ?_⟩
      dsimp only at hpos
      split at hpos <;> cases hpos
    | group =>
      have hinv := h.drawInGroup_inv p.stream hs
      rcases hd : Grouped.drawInGroup p.stream with ⟨_ | a, s'⟩ <;> rw [hd] at hinv
      · rw [pullUpTo_group_none hph hd]
        refine ih ⟨h.openNext_inv _ hinv, fun pos hpos ↦ ?_⟩
        dsimp only at hpos ⊢
        split at hpos
        · rename_i ho
          exact h.drawInGroup_openNext s' hinv ho
        · cases hpos
      · rw [pullUpTo_group_some hph hd]
        exact ⟨hinv, fun pos hpos ↦ by rw [hph] at hpos; cases hpos⟩
    | separator pos =>
      rw [pullUpTo_separator n hph]
      split
      · exact ⟨hs, fun _ _ ↦ hsep pos hph⟩
      · exact ih ⟨hs, fun _ hpos ↦ Phase.noConfusion hpos⟩
    | done =>
      rw [pullUpTo_done hph]
      exact ⟨hs, hsep⟩

end Intercalate

namespace Groups

open GroupingRule

variable {γ β α : Type} [Context γ α] [GroupingRule β α] {toList : γ → List α} {I : γ → Prop}

/-- Opened groups are never empty, so the loops over them end. From every state the groups of a
context that reads as a list reach, under a rule that restarts, an opening that answers an index
is followed by a draw that returns the element the opening peek saw. The base stream has
`Grouped.Progress` on its sound states, every window and borrow passes it on, so the first draw
after any opening of any chain of windows returns an element too. On every stream that has it,
draining the open group, folding it, passing over groups and opening the selected ones end within
one round more than the stream's list holds elements; a concatenation's pull ends within two
rounds and an intercalation's within three; and each of these readers' pulls leaves the stream
ready for the next. -/
theorem opened_groups_are_never_empty (h : Context.Lifo toList I) {rule : β}
    (hr : Restarts α (reset (α := α) rule)) {s : γ} (hs : I s) :
    (∀ g, Grouped.Reaches (ofRule s rule) g → (openNext g).1.isSome →
      ((reopened (α := α) g).peek.1).isSome ∧
        (Grouped.drawInGroup (openNext g).2).1 = (reopened (α := α) g).peek.1) ∧
    Grouped.Progress (fun g : Groups γ β ↦ toList g.view.parent) toList
      (Sound toList I (reset (α := α) rule)) ∧
    Sound toList I (reset (α := α) rule) (ofRule s rule) ∧
    (∀ {τ ρ : Type} [Grouped τ α ρ] {root : τ → List α} {rootRest : ρ → List α}
      {Inv : τ → Prop}, Grouped.Progress root rootRest Inv →
      (Grouped.Progress (fun t : TakeGroups τ ↦ root t.inner) rootRest (fun t ↦ Inv t.inner) ∧
        Grouped.Progress (fun d : DropGroups τ ↦ root d.inner) rootRest (fun d ↦ Inv d.inner) ∧
        Grouped.Progress (fun f : FilterGroups τ ↦ root f.inner) rootRest
          (fun f ↦ Inv f.inner) ∧
        Grouped.Progress (fun b : Borrow τ ↦ root b.stream) root (fun b ↦ Inv b.stream)) ∧
      (∀ t : τ, Inv t →
        EndsWithin (fun n ↦ (Grouped.drainUpTo n t).2) ((root t).length + 1)
          (Grouped.drainGroup t) ∧
        (∀ {δ : Type} (step : δ → α → δ) (acc : δ),
          EndsWithin (fun n ↦ FoldGroups.foldGroupUpTo step n acc t) ((root t).length + 1)
            (FoldGroups.foldGroupUpTo step (Grouped.supply t + 1) acc t)) ∧
        EndsWithin (fun n ↦ ((DropGroups.skipThenOpen n t).1, (DropGroups.skipThenOpen n t).2.2))
          ((root t).length + 1) (none, (DropGroups.skipThenOpen ((root t).length + 1) t).2.2) ∧
        ∀ select : Nat → Bool, EndsWithin (fun n ↦ FilterGroups.openSelected select n t)
          ((root t).length + 1) (FilterGroups.openSelected select (Grouped.supply t + 1) t)) ∧
      (∀ r : Rejoin τ, Inv r.stream →
        EndsWithin (Rejoin.pullUpTo · r) 2 (Producer.pull r) ∧ Inv (Producer.pull r).2.stream) ∧
      (∀ (sep : List α) (t : τ), Inv t → Intercalate.Primed Inv (Grouped.intercalate sep t)) ∧
      (∀ p : Intercalate τ α, Intercalate.Primed Inv p →
        EndsWithin (Intercalate.pullUpTo · p) 3 (Producer.pull p) ∧
          Intercalate.Primed Inv (Producer.pull p).2) ∧
      ∀ {δ : Type} (f : FoldGroups τ δ α), Inv f.stream → Inv (Producer.pull f).2.stream) := by
  have hbase := progress h hr
  refine ⟨fun g hg ho ↦ ?_, hbase, sound_ofRule hs rule, fun hp ↦ ?_⟩
  · -- every state reached is sound, and a sound view is backed
    exact drawInGroup_openNext h (hbase.toKeeps.reaches (sound_ofRule hs rule) hg).1 ho
  · refine ⟨⟨TakeGroups.progress hp, DropGroups.progress hp, FilterGroups.progress hp,
      Borrow.progress hp⟩, fun t ht ↦ ⟨hp.drainUpTo_endsWithin hp.length_root_le_supply ht,
      fun step acc ↦ FoldGroups.foldGroupUpTo_endsWithin hp step acc ht,
      DropGroups.skipThenOpen_endsWithin hp ht,
      fun select ↦ FilterGroups.openSelected_endsWithin hp select ht⟩,
      fun r hr ↦ ⟨Rejoin.pullUpTo_endsWithin hp hr, Rejoin.inv_pullUpTo hp.toKeeps _ hr⟩,
      fun sep t ht ↦ Intercalate.primed_intercalate sep ht,
      fun p hp' ↦ ⟨Intercalate.pullUpTo_endsWithin hp hp', Intercalate.primed_pullUpTo hp _ hp'⟩,
      fun f hf ↦ FoldGroups.inv_pull hp.toKeeps hf⟩

/-- Over the chunks of two of a cursor on `[1, 2, 3, 4, 5]`, with the first chunk passed over, a
pull of the concatenation ends within two rounds. -/
theorem opened_groups_are_never_empty_on_chunks :
    let c : Cursor (Source Nat Unit) Nat := Cursor.ofProducer (Source.ofList [1, 2, 3, 4, 5] ())
    let r := Grouped.concat (Grouped.dropGroups 1 (ofRule c (Chunks.ofSize 2)))
    EndsWithin (Rejoin.pullUpTo · r) 2 (Producer.pull r) := by
  intro c r
  obtain ⟨-, hbase, hsound, hwindows⟩ := @opened_groups_are_never_empty _ Chunks _ _ _ _ _
    (Cursor.lifo (Source.streams (α := Nat) (ρ := Unit))) (Chunks.ofSize 2) (Chunks.restarts 2) _
    trivial
  obtain ⟨⟨-, hdrop, -, -⟩, -⟩ := hwindows hbase
  exact ((hwindows hdrop).2.2.1 _ hsound).1

end Groups

end Spool
