import Spool.Proofs.Stopping

/-!
# A window of groups reads its source lazily

The concatenation of a window of groups, all but the first `n` groups and at most `m` of the rest,
pulls from the source underneath only as far as it must. When it hands out its `j`-th element the
source has yielded the elements of the groups passed over and those `j` elements, nothing more
(`Groups.window_pulls_of_some`). When it answers `none`, the cursor is where the window ends
(`Groups.window_pulls_of_none`): the source has yielded the groups up to the end of the window and,
where the rule must see the next element to close the last of them, one element more, and it is
left at the groups after the window. `Groups.ReadsLazily` states this over a list, and
`Groups.window_reads_lazily` proves it for every rule of the library.

Both follow from what the group stream counts (`Groups.pullReads`) and from where a reading stops
(`Rejoin.settled_pull`). The one new ingredient is that, once the window has opened a group, what
the stream underneath still holds after the open group is the rest of the window followed by the
groups after it (`Grouped.Shape.Placed`), which every reading step keeps
(`Rejoin.keeps_pullUpTo`).
-/

set_option autoImplicit false

namespace Spool

namespace Rejoin

variable {τ α ρ ω : Type} [Grouped τ α ρ] {obs : τ → ω} {shape : τ → Grouped.Shape α ω}
  {Inv : τ → Prop}

open Grouped

/-- A property of the shape kept by every draw, and by every opening made with the open group read,
is kept by the pulls of a concatenation; an element handed out was drawn from a state that has
it. -/
theorem keeps_pullUpTo (h : Reads obs shape Inv) {P : Shape α ω → Prop}
    (hdraw : ∀ y, P y → P y.draw.2) (hopen : ∀ y, P y → y.cur = [] → P y.openNext.2) (n : Nat)
    {r : Rejoin τ} (hs : Inv r.stream) (hact : r.active = false → (shape r.stream).cur = [])
    (hP : P (shape r.stream)) :
    P (shape (pullUpTo n r).2.stream) ∧ ∀ a, (pullUpTo n r).1 = some a →
      ∃ t, Inv t ∧ P (shape t) ∧ (drawInGroup t).1 = some a ∧
        (pullUpTo n r).2.stream = (drawInGroup t).2 := by
  induction n generalizing r with
  | zero => exact ⟨hP, fun _ ha ↦ by cases ha⟩
  | succ n ih =>
    -- with no group open the pull opens the next group, and goes on from there if there is one
    have hinactive : ∀ s, Inv s → P (shape s) → (shape s).cur = [] →
        P (shape (pullUpTo (n + 1) ({ stream := s, active := false } : Rejoin τ)).2.stream) ∧
          ∀ a, (pullUpTo (n + 1) ({ stream := s, active := false } : Rejoin τ)).1 = some a →
            ∃ t, Inv t ∧ P (shape t) ∧ (drawInGroup t).1 = some a ∧
              (pullUpTo (n + 1) ({ stream := s, active := false } : Rejoin τ)).2.stream =
                (drawInGroup t).2 := by
      intro s hs' hP' hc
      obtain ⟨-, o₂, o₃⟩ := h.openNext_spec s hs' hc
      unfold pullUpTo
      simp only [Bool.false_eq_true, if_false]
      rcases ho : openNext s with ⟨_ | i, s'⟩ <;> rw [ho] at o₂ o₃
      · exact ⟨by rw [o₂]; exact hopen _ hP' hc, fun _ ha ↦ by cases ha⟩
      · exact ih o₃ (fun ha ↦ by cases ha) (by rw [o₂]; exact hopen _ hP' hc)
    cases ha : r.active with
    | false =>
      have hr : r = { stream := r.stream, active := false } := by cases r; simp_all
      rw [hr]
      exact hinactive _ hs hP (hact ha)
    | true =>
      obtain ⟨hfst, hshape, hinv⟩ := h.drawInGroup_spec _ hs
      cases hc : (shape r.stream).cur with
      | cons a c =>
        -- the open group hands out its next element
        rw [pullUpTo_of_cur_cons h n hs ha hc]
        refine ⟨by rw [hshape]; exact hdraw _ hP, fun b hb ↦ ⟨r.stream, hs, hP, ?_, rfl⟩⟩
        rw [hfst, Shape.draw_fst, hc]
        exact hb
      | nil =>
        -- the open group is read: the draw finds its end, and the pull opens the next one
        rw [pullUpTo_of_cur_nil h n hs ha hc]
        have hc' : (shape (drawInGroup r.stream).2).cur = [] := by
          rw [hshape, Shape.draw_snd_cur, hc]
          rfl
        exact hinactive _ hinv (by rw [hshape]; exact hdraw _ hP) hc'

end Rejoin

namespace Grouped.Shape

variable {α : Type}

/-- Each group to come is followed, in what is seen once it is read, by the groups after it and
then by `tail`. -/
def FollowedBy (tail : List α) : List (Nat × List α × (Nat × List α)) → Prop
  | [] => True
  | e :: es => e.2.2.2 = (es.map (·.2.1)).flatten ++ tail ∧ FollowedBy tail es

variable {tail : List α} {es : List (Nat × List α × (Nat × List α))}

theorem FollowedBy.drop (h : FollowedBy tail es) (n : Nat) : FollowedBy tail (es.drop n) := by
  induction es generalizing n with
  | nil => simp [FollowedBy]
  | cons e es ih =>
    cases n with
    | zero => exact h
    | succ n => exact ih h.2 n

/-- The first `m` groups to come are followed by the rest of them and then by `tail`. -/
theorem FollowedBy.take (h : FollowedBy tail es) (m : Nat) :
    FollowedBy (((es.drop m).map (·.2.1)).flatten ++ tail) (es.take m) := by
  induction es generalizing m with
  | nil => simp [FollowedBy]
  | cons e es ih =>
    cases m with
    | zero => simp [FollowedBy]
    | succ m =>
      refine ⟨?_, ih h.2 m⟩
      simp only [List.drop_succ_cons, h.1]
      rw [← List.append_assoc, ← List.flatten_append, ← List.map_append, List.take_append_drop]

/-- Relabelling what is seen after each group, with the list part kept, keeps the order. -/
theorem FollowedBy.relabel (h : FollowedBy tail es) (f : List α → Nat × List α → Nat × List α)
    (hf : ∀ g o, (f g o).2 = o.2) :
    FollowedBy tail (es.map fun e ↦ (e.1, e.2.1, f e.2.1 e.2.2)) := by
  induction es with
  | nil => trivial
  | cons e es ih =>
    refine ⟨?_, ih h.2⟩
    simp only [hf, h.1, List.map_map]
    rfl

/-- The groups a rule cuts a list into are each followed by the groups after them. -/
theorem followedBy_groupsFrom {β : Type} [GroupingRule β α] {r₀ : β}
    (hr : GroupingRule.Restarts α r₀) (o : Nat) (l : List α) :
    FollowedBy [] (Boundary.groupsFrom r₀ o l) := by
  fun_induction Boundary.groupsFrom r₀ o l with
  | case1 o l h => trivial
  | case2 o l h ih => exact ⟨by simp [hr.flatten_partition], ih⟩

/-- The groups to come are each followed by those after them and then by `tail`; and once a group
has been opened, what is seen once it is read is the groups to come and then `tail`. -/
def Placed (tail : List α) (y : Shape α (Nat × List α)) : Prop :=
  FollowedBy tail y.next ∧ (y.cur = [] ∨ y.done.2 = y.groups.flatten ++ tail)

variable {y : Shape α (Nat × List α)}

theorem Placed.draw (h : Placed tail y) : Placed tail y.draw.2 := by
  refine ⟨h.1, ?_⟩
  rcases h.2 with hc | hd
  · exact .inl (by simp [hc])
  · exact .inr (by simpa using hd)

theorem Placed.openNext (h : Placed tail y) : Placed tail y.openNext.2 := by
  cases hx : y.next with
  | nil =>
    rw [openNext_of_nil hx]
    exact ⟨trivial, .inl rfl⟩
  | cons e gs =>
    obtain ⟨i, g, o⟩ := e
    obtain ⟨-, -, hx₃, hx₄, -⟩ := openNext_of_cons hx
    have hf := h.1
    rw [hx] at hf
    refine ⟨by rw [hx₄]; exact hf.2, .inr ?_⟩
    rw [hx₃, groups, hx₄]
    exact hf.1

end Grouped.Shape

namespace Source

variable {α ρ : Type}

/-- Every pull of a source moves it one position on, up to its last. -/
theorem pulled_advance (k : Nat) {s : Source α ρ} (hs : s.pulled ≤ s.count) :
    (Producer.advance k s).pulled = min (s.pulled + k) s.count := by
  induction k generalizing s with
  | zero => simpa using hs
  | succ k ih =>
    rw [Producer.advance_succ]
    show (Producer.advance k (Source.pull s).2).pulled = _
    by_cases hlt : s.pulled < s.count
    · have hp : (Source.pull s).2 = { s with pulled := s.pulled + 1 } := by
        simp [Source.pull, hlt]
      rw [hp, ih (by simpa using hlt)]
      simp only
      omega
    · have hp : (Source.pull s).2 = s := by simp [Source.pull, hlt]
      rw [hp, ih hs]
      omega

/-- A cursor over a list's source has moved the source on by the pulls it made, up to its end. -/
theorem pulled_of_pulledFrom {l : List α} {R : ρ} {c : Cursor (Source α ρ) α}
    (hc : Cursor.PulledFrom (ofList l R) c) : c.producer.pulled = min c.pulls l.length := by
  rw [hc.producer_eq, pulled_advance _ (by simp [ofList])]
  simp [ofList]

end Source

namespace Groups

/-- The concatenation of the groups of a fresh cursor over `p₀`, all but the first `n` and at most
`m` of the rest. -/
def window {π α ρ β : Type} [Producer π α ρ] (p₀ : π) (r₀ : β) (n m : Nat) :
    Rejoin (TakeGroups (DropGroups (Groups (Cursor π α) β))) :=
  Grouped.concat (Grouped.takeGroups m (Grouped.dropGroups n (ofRule (Cursor.ofProducer p₀) r₀)))

variable {π α ρ β : Type} [Producer π α ρ] [GroupingRule β α]

open Boundary GroupingRule

section Window

variable {toList : π → List α} {p₀ : π} {r₀ : β} {PInv : π → Prop}

/-- Inside an open group with nothing lent, the cursor holds nothing back: the pulls made and what
it still reads as make up the whole list. -/
theorem pulls_add_length_of_reading (h : Producer.Streams toList PInv) (hp : PInv p₀)
    {g : Groups (Cursor π α) β} (hg : PullInv toList p₀ r₀ PInv g) (hr : Reading g) :
    g.view.parent.pulls + (Cursor.contents toList g.view.parent).length = (toList p₀).length := by
  have hahead : g.view.parent.ahead = 0 := (hg.2.open_ahead hr.1 hr.2.1).trans hr.2.2
  have hsum := hg.1.1.1.2.pulls_add_length h hp
  omega

variable (p₀ r₀) in
/-- With a group open, the cursor reads as the rest of the open group and what is seen once it is
read. -/
theorem pullShape_cur_append_done {g : Groups (Cursor π α) β} (ha : g.active = true) :
    (pullShape toList p₀ r₀ g).cur ++ (pullShape toList p₀ r₀ g).done.2 =
      Cursor.contents toList g.view.parent := by
  rw [← cur_append_after (Cursor.contents toList) r₀ g]
  simp [pullShape, Grouped.Shape.relabel, pullsDone, ha]

variable (toList p₀ r₀) in
/-- A window of the groups of a cursor, read as lists: the groups to come of the stream
underneath, past those still to pass over, up to those still to deliver. -/
def windowShape (t : TakeGroups (DropGroups (Groups (Cursor π α) β))) :
    Grouped.Shape α (Nat × List α) :=
  ((pullShape toList p₀ r₀ t.inner.inner).drop t.inner.skip).take t.remaining

variable (toList p₀ r₀ PInv) in
/-- The stream under a window keeps the pull accounting, and has no group open unless the window
has one open. -/
def WindowInv (t : TakeGroups (DropGroups (Groups (Cursor π α) β))) : Prop :=
  TakeGroups.Valid
    (fun d : DropGroups (Groups (Cursor π α) β) ↦ (pullShape toList p₀ r₀ d.inner).drop d.skip)
    (fun d ↦ PullInv toList p₀ r₀ PInv d.inner) t

theorem windowReads (h : Producer.Streams toList PInv) (hp : PInv p₀) (hr : Restarts α r₀)
    (ho : OpenAfterRefusal β α) :
    Grouped.Reads (fun t ↦ pullsSeen toList t.inner.inner) (windowShape toList p₀ r₀)
      (WindowInv toList p₀ r₀ PInv) :=
  TakeGroups.reads (DropGroups.reads (pullReads toList PInv p₀ r₀ h hp hr ho))

variable (toList p₀ r₀ PInv) in
/-- What the pulls of a window's concatenation keep: it is valid, with `F` seen once no group is
left; once it has no group open the stream underneath is quiet; and the window is placed before
`tail`. -/
def WindowState (F : Nat × List α) (tail : List α)
    (r : Rejoin (TakeGroups (DropGroups (Groups (Cursor π α) β)))) : Prop :=
  Rejoin.Valid (windowShape toList p₀ r₀) (WindowInv toList p₀ r₀ PInv) F r ∧
    Rejoin.Settled (fun d : DropGroups (Groups (Cursor π α) β) ↦ Quiet d.inner) r ∧
    Grouped.Shape.Placed tail (windowShape toList p₀ r₀ r.stream)

/-- A window's concatenation streams the rest of the window, and its pulls keep its state. -/
theorem windowStreams (h : Producer.Streams toList PInv) (hp : PInv p₀) (hr : Restarts α r₀)
    (ho : OpenAfterRefusal β α) (F : Nat × List α) (tail : List α) :
    Producer.Streams (Rejoin.rest (windowShape toList p₀ r₀))
      (WindowState toList p₀ r₀ PInv F tail) :=
  (Rejoin.streams (windowReads h hp hr ho) F).and_inv fun _ hv hk ↦
    ⟨(Rejoin.settled_pull (DropGroups.reads (pullReads toList PInv p₀ r₀ h hp hr ho))
        (DropGroups.settles (pullReads toList PInv p₀ r₀ h hp hr ho) (settles h)) hv hk.1).1,
      (Rejoin.keeps_pullUpTo (windowReads h hp hr ho) (fun _ hy ↦ hy.draw)
        (fun _ hy _ ↦ hy.openNext) _ hv.1 hv.2.1 hk.2).1⟩

/-- A pull of a window's concatenation that hands out an element leaves the cursor holding nothing
back: the pulls made, what the window still hands out and `tail` make up the whole list. -/
theorem pulls_of_window_pull_some (h : Producer.Streams toList PInv) (hp : PInv p₀)
    (hr : Restarts α r₀) (ho : OpenAfterRefusal β α) {F : Nat × List α} {tail : List α}
    {r : Rejoin (TakeGroups (DropGroups (Groups (Cursor π α) β)))}
    (hs : WindowState toList p₀ r₀ PInv F tail r) {a : α} (hpull : (Producer.pull r).1 = some a) :
    (Producer.pull r).2.stream.inner.inner.view.parent.pulls +
        (Rejoin.rest (windowShape toList p₀ r₀) (Producer.pull r).2).length + tail.length =
      (toList p₀).length := by
  have hreads := windowReads h hp hr ho
  -- the element was drawn from a window state placed before `tail`
  obtain ⟨-, hsome⟩ := Rejoin.keeps_pullUpTo hreads (fun _ hy ↦ hy.draw)
    (fun _ hy _ ↦ hy.openNext) (Grouped.supply r.stream + 2) hs.1.1 hs.1.2.1 hs.2.2
  obtain ⟨t, ht, hPt, hd, heq⟩ := hsome a hpull
  obtain ⟨hfst, hshape, -⟩ := hreads.drawInGroup_spec t ht
  have hw : windowShape toList p₀ r₀ (Producer.pull r).2.stream =
      (windowShape toList p₀ r₀ t).draw.2 := by
    rw [← hshape, ← heq]
    rfl
  -- so the window had a group open, and what follows it is the rest of the window and `tail`
  have hcur : (windowShape toList p₀ r₀ t).cur ≠ [] := by
    intro hc
    rw [hd, Grouped.Shape.draw_fst, hc] at hfst
    cases hfst
  have hdone := hPt.2.resolve_left hcur
  -- the draw reached the stream underneath, which is left reading with nothing held back
  have hta : t.active = true := by
    cases hta : t.active with
    | true => rfl
    | false =>
      rw [TakeGroups.drawInGroup_eq, hta] at hd
      cases hd
  rw [TakeGroups.drawInGroup_eq, if_pos hta] at hd heq
  have hbase : (Producer.pull r).2.stream.inner.inner = (Grouped.drawInGroup t.inner.inner).2 :=
    congrArg (fun t ↦ t.inner.inner) heq
  have hreading : Reading (Producer.pull r).2.stream.inner.inner := by
    rw [hbase]
    exact reading_of_drawInGroup_some ht.1.2 hd
  have hinv : PullInv toList p₀ r₀ PInv (Producer.pull r).2.stream.inner.inner :=
    ((windowStreams h hp hr ho F tail).pull_inv r hs).1.1.1
  have hsplit : Cursor.contents toList (Producer.pull r).2.stream.inner.inner.view.parent =
      Rejoin.rest (windowShape toList p₀ r₀) (Producer.pull r).2 ++ tail := by
    rw [← pullShape_cur_append_done p₀ r₀ hreading.1]
    show (windowShape toList p₀ r₀ (Producer.pull r).2.stream).cur ++
      (windowShape toList p₀ r₀ (Producer.pull r).2.stream).done.2 = _
    rw [Rejoin.rest, hw, Grouped.Shape.draw_snd_done, hdone, Grouped.Shape.groups_draw_snd,
      List.append_assoc]
  have hcount := pulls_add_length_of_reading h hp hinv hreading
  rw [hsplit, List.length_append] at hcount
  omega

/-- A pull of a window's concatenation that answers `none` leaves the cursor where `F` says: the
pulls made, and what it still reads as. -/
theorem window_pull_none (h : Producer.Streams toList PInv) (hp : PInv p₀) (hr : Restarts α r₀)
    (ho : OpenAfterRefusal β α) {F : Nat × List α} {tail : List α}
    {r : Rejoin (TakeGroups (DropGroups (Groups (Cursor π α) β)))}
    (hs : WindowState toList p₀ r₀ PInv F tail r) (hpull : (Producer.pull r).1 = none) :
    ((Producer.pull r).2.stream.inner.inner.view.parent.pulls,
      Cursor.contents toList (Producer.pull r).2.stream.inner.inner.view.parent) = F := by
  have hreads := windowReads h hp hr ho
  obtain ⟨hfst, -, hv, hend⟩ :=
    Rejoin.pullUpTo_spec hreads (n := Grouped.supply r.stream + 2) (by omega) hs.1
  -- nothing was left, so the window has ended, and `F` is seen
  have hnil : Rejoin.rest (windowShape toList p₀ r₀) r = [] :=
    List.head?_eq_none_iff.mp (hfst.symm.trans hpull)
  have hshape := hend hnil
  have hseen := hreads.obs_spec _ hv.1 (by rw [hshape]; rfl)
  rw [hshape, Grouped.Shape.ended_done, hs.1.2.2] at hseen
  -- and no group is left open, so the stream underneath is quiet and closes nothing more
  obtain ⟨hset, hact⟩ := Rejoin.settled_pull
    (DropGroups.reads (pullReads toList PInv p₀ r₀ h hp hr ho))
    (DropGroups.settles (pullReads toList PInv p₀ r₀ h hp hr ho) (settles h)) hs.1 hs.2.1
  have hquiet : Quiet (Rejoin.pullUpTo (Grouped.supply r.stream + 2) r).2.stream.inner.inner :=
    hset.2 (hact hpull)
  rw [← hseen, pullsSeen, closingPull_of_quiet hquiet, Nat.add_zero]
  rfl

end Window

section Start

variable {toList : π → List α} {p₀ : π} {r₀ : β} {PInv : π → Prop}

theorem contents_ofProducer :
    Cursor.contents toList (Cursor.ofProducer p₀ : Cursor π α) = toList p₀ :=
  rfl

/-- Before anything is read, every group of what the cursor reads as is to come. -/
theorem pullShape_ofRule_next (c : Cursor π α) :
    (pullShape toList p₀ r₀ (ofRule c r₀)).next =
      (groupsFrom r₀ 0 (Cursor.contents toList c)).map
        fun e ↦ (e.1, e.2.1, pullsAfter toList p₀ r₀ e.2.1 e.2.2) := by
  simp [pullShape, Grouped.Shape.relabel, shape, after, ofRule, View.ofBound]

/-- Before anything is read, what is seen is the pulls the cursor has made and what it reads as. -/
theorem pullShape_ofRule_done (c : Cursor π α) :
    (pullShape toList p₀ r₀ (ofRule c r₀)).done = (c.pulls, Cursor.contents toList c) := by
  simp [pullShape, Grouped.Shape.relabel, pullsDone, ofRule, View.ofBound]

variable (toList) in
/-- A cursor that keeps the pull accounting and is at most one pull ahead starts a group stream
that keeps it. -/
theorem pullInv_ofRule (hr : Restarts α r₀) {c : Cursor π α}
    (hc : PInv c.producer ∧ Cursor.PulledFrom p₀ c) (hahead : c.ahead ≤ 1) :
    PullInv toList p₀ r₀ PInv (ofRule c r₀) := by
  have hs : Sound (Cursor.contents toList) (fun c ↦ PInv c.producer ∧ Cursor.PulledFrom p₀ c)
      (reset (α := α) r₀) (ofRule c r₀) := sound_ofRule ⟨hc.1, hc.2⟩ r₀
  rw [hr.reset_start] at hs
  exact ⟨hs, lookahead_ofRule hahead r₀⟩

/-- Before anything is read from a fresh cursor, every group of the list is to come. -/
theorem pullShape_start_next :
    (pullShape toList p₀ r₀ (ofRule (Cursor.ofProducer p₀ : Cursor π α) r₀)).next =
      (groupsFrom r₀ 0 (toList p₀)).map
        fun e ↦ (e.1, e.2.1, pullsAfter toList p₀ r₀ e.2.1 e.2.2) :=
  pullShape_ofRule_next _

theorem groups_pullShape_start :
    (pullShape toList p₀ r₀ (ofRule (Cursor.ofProducer p₀ : Cursor π α) r₀)).groups =
      partition r₀ (toList p₀) := by
  rw [pullShape, Grouped.Shape.groups_relabel, groups_shape_ofRule, contents_ofProducer]

/-- Before anything is read from a fresh cursor, nothing is pulled and it reads as the whole
list. -/
theorem pullShape_start_done :
    (pullShape toList p₀ r₀ (ofRule (Cursor.ofProducer p₀ : Cursor π α) r₀)).done =
      (0, toList p₀) :=
  pullShape_ofRule_done _

/-- The groups of a list cut at `n` and at `n + m`: the list is the three parts joined. -/
theorem length_partition_split (hr : Restarts α r₀) (l : List α) (n m : Nat) :
    l.length = ((partition r₀ l).take n).flatten.length +
      (((partition r₀ l).drop n).take m).flatten.length +
      ((partition r₀ l).drop (n + m)).flatten.length := by
  have hl : l = ((partition r₀ l).take n).flatten ++
      ((((partition r₀ l).drop n).take m).flatten ++ ((partition r₀ l).drop (n + m)).flatten) := by
    rw [← List.drop_drop, ← List.flatten_append, List.take_append_drop, ← List.flatten_append,
      List.take_append_drop, hr.flatten_partition]
  conv_lhs => rw [hl]
  simp only [List.length_append]
  omega

/-- A fresh window starts in a state its pulls keep, placed before the groups after it. -/
theorem windowState_start (hr : Restarts α r₀) (hp : PInv p₀) (n m : Nat) :
    WindowState toList p₀ r₀ PInv (windowShape toList p₀ r₀ (window p₀ r₀ n m).stream).final
      ((partition r₀ (toList p₀)).drop (n + m)).flatten (window p₀ r₀ n m) := by
  have hstart : PullInv toList p₀ r₀ PInv (ofRule (Cursor.ofProducer p₀ : Cursor π α) r₀) :=
    pullInv_ofRule toList hr ⟨hp, Cursor.PulledFrom.ofProducer p₀⟩
      (by simp [Cursor.ahead, Cursor.ofProducer])
  -- the groups of the window are followed by the rest of the window and the groups after it
  have hfollow : Grouped.Shape.FollowedBy ((partition r₀ (toList p₀)).drop (n + m)).flatten
      (windowShape toList p₀ r₀ (window p₀ r₀ n m).stream).next := by
    have hg : (pullShape toList p₀ r₀ (ofRule (Cursor.ofProducer p₀ : Cursor π α) r₀)).next.map
        (·.2.1) = partition r₀ (toList p₀) := groups_pullShape_start
    have h₀ := (((Grouped.Shape.followedBy_groupsFrom hr 0 (toList p₀)).relabel
      (pullsAfter toList p₀ r₀) (fun _ _ ↦ rfl)).drop n).take m
    rw [← pullShape_start_next, List.drop_drop, List.map_drop, hg, List.append_nil] at h₀
    exact h₀
  exact ⟨⟨⟨hstart, fun _ ↦ rfl⟩, fun _ ↦ rfl, rfl⟩,
    ⟨fun h ↦ absurd h Bool.false_ne_true, fun _ ↦ Or.inl rfl⟩, hfollow, Or.inl rfl⟩

/-- A fresh window has no group open. -/
theorem cur_start (n m : Nat) : (windowShape toList p₀ r₀ (window p₀ r₀ n m).stream).cur = [] :=
  rfl

/-- A fresh window has to come the groups it selects. -/
theorem groups_start (n m : Nat) :
    (windowShape toList p₀ r₀ (window p₀ r₀ n m).stream).groups =
      ((partition r₀ (toList p₀)).drop n).take m := by
  have hg : (pullShape toList p₀ r₀ (ofRule (Cursor.ofProducer p₀ : Cursor π α) r₀)).next.map
      (·.2.1) = partition r₀ (toList p₀) := groups_pullShape_start
  simp only [windowShape, window, Grouped.concat, Grouped.takeGroups, Grouped.dropGroups,
    Grouped.Shape.take, Grouped.Shape.drop, Grouped.Shape.groups, List.map_take, List.map_drop, hg]

/-- A fresh window hands out the groups it selects, joined. -/
theorem rest_start (n m : Nat) :
    Rejoin.rest (windowShape toList p₀ r₀) (window p₀ r₀ n m) =
      (((partition r₀ (toList p₀)).drop n).take m).flatten := by
  rw [Rejoin.rest, cur_start, groups_start, List.nil_append]

/-- An empty window ends where it starts: nothing pulled, the whole list left. -/
theorem final_start_zero (n : Nat) :
    (windowShape toList p₀ r₀ (window p₀ r₀ n 0).stream).final = (0, toList p₀) := by
  simp only [windowShape, window, Grouped.concat, Grouped.takeGroups, Grouped.dropGroups,
    Grouped.Shape.take, Grouped.Shape.drop, List.getElem?_cons_zero, Option.getD_some]
  exact pullShape_start_done

/-- A window of `k + 1` groups ends where its last group, the group `n + k`, is read: or, with no
such group, where the list ends. -/
theorem final_start_succ (hr : Restarts α r₀) (n k : Nat) :
    (windowShape toList p₀ r₀ (window p₀ r₀ n (k + 1)).stream).final =
      (((partition r₀ (toList p₀))[n + k]?).map fun g ↦ pullsAfter toList p₀ r₀ g
          (n + k + 1, ((partition r₀ (toList p₀)).drop (n + k + 1)).flatten)).getD
        ((toList p₀).length + 1, []) := by
  simp only [windowShape, window, Grouped.concat, Grouped.takeGroups, Grouped.dropGroups,
    Grouped.Shape.take, Grouped.Shape.drop, List.getElem?_cons_succ, List.getElem?_map,
    List.getElem?_drop, pullShape_start_next, hr.groupsFrom_eq, List.getElem?_zipIdx,
    Option.map_map, Function.comp_def, Nat.zero_add, Nat.sub_zero]
  rfl

variable (h : Producer.Streams toList PInv) (hp : PInv p₀) (hr : Restarts α r₀)
  (ho : OpenAfterRefusal β α)
include h hp hr ho

/-- Every state of a window's run keeps the pull accounting of the stream underneath. -/
theorem pullInv_window_advance (n m k : Nat) :
    PullInv toList p₀ r₀ PInv (Producer.advance k (window p₀ r₀ n m)).stream.inner.inner :=
  ((windowStreams h hp hr ho _ _).advance_spec k (windowState_start hr hp n m)).2.1.1.1

/-- When a window hands out its `j + 1`-th element, the cursor has pulled the groups passed over
and those `j + 1` elements. -/
theorem window_pulls_of_some (n m j : Nat) {a : α}
    (hpull : (Producer.pull (Producer.advance j (window p₀ r₀ n m))).1 = some a) :
    (Producer.pull (Producer.advance j (window p₀ r₀ n m))).2.stream.inner.inner.view.parent.pulls =
        ((partition r₀ (toList p₀)).take n).flatten.length + (j + 1) ∧
      ((partition r₀ (toList p₀)).take n).flatten.length + (j + 1) ≤ (toList p₀).length := by
  have hS := windowStreams h hp hr ho (windowShape toList p₀ r₀ (window p₀ r₀ n m).stream).final
    ((partition r₀ (toList p₀)).drop (n + m)).flatten
  obtain ⟨hrest, hj⟩ := hS.advance_spec j (windowState_start hr hp n m)
  have hcount := pulls_of_window_pull_some h hp hr ho hj hpull
  have hfst := hS.pull_fst _ hj
  rw [hS.pull_snd _ hj, hrest, rest_start] at hcount
  rw [hrest, rest_start, hpull] at hfst
  -- the element handed out is one of the window's
  have hlt : j < (((partition r₀ (toList p₀)).drop n).take m).flatten.length := by
    by_contra hge
    rw [List.drop_eq_nil_of_le (by omega)] at hfst
    cases hfst
  have hsplit := length_partition_split hr (toList p₀) n m
  simp only [List.length_tail, List.length_drop] at hcount
  omega

/-- When a window answers `none`, the cursor is where the window ends. -/
theorem window_pulls_of_none (n m j : Nat)
    (hpull : (Producer.pull (Producer.advance j (window p₀ r₀ n m))).1 = none) :
    ((Producer.pull (Producer.advance j (window p₀ r₀ n m))).2.stream.inner.inner.view.parent.pulls,
      Cursor.contents toList
        (Producer.pull (Producer.advance j (window p₀ r₀ n m))).2.stream.inner.inner.view.parent) =
      (windowShape toList p₀ r₀ (window p₀ r₀ n m).stream).final :=
  window_pull_none h hp hr ho
    ((windowStreams h hp hr ho _ _).advance_spec j (windowState_start hr hp n m)).2 hpull

/-- Read to its end one fold per group, a window folds each group it selects, and leaves the
cursor where the window ends, keeping the pull accounting. -/
theorem window_foldGroups {δ : Type} (init : δ) (step : δ → α → δ) (n m : Nat) :
    (Producer.elements (Grouped.foldGroups init step (window p₀ r₀ n m).stream)).1 =
        (((partition r₀ (toList p₀)).drop n).take m).map (List.foldl step init) ∧
      PullInv toList p₀ r₀ PInv
        (Producer.elements (Grouped.foldGroups init step (window p₀ r₀ n m).stream)).2.stream.inner.inner ∧
      ((Producer.elements
          (Grouped.foldGroups init step (window p₀ r₀ n m).stream)).2.stream.inner.inner.view.parent.pulls,
        Cursor.contents toList (Producer.elements
          (Grouped.foldGroups init step (window p₀ r₀ n m).stream)).2.stream.inner.inner.view.parent) =
        (windowShape toList p₀ r₀ (window p₀ r₀ n m).stream).final := by
  have hreads := windowReads h hp hr ho
  have hbase := pullReads toList PInv p₀ r₀ h hp hr ho
  -- the folds stream the window's groups, and keep the stream underneath quiet between groups
  have hS := (FoldGroups.streams hreads (windowShape toList p₀ r₀ (window p₀ r₀ n m).stream).final).and_inv
    (K := fun f : FoldGroups _ δ α ↦ Quiet f.stream.inner.inner)
    (fun _ hv hQ ↦ FoldGroups.settled_pull (DropGroups.reads hbase)
      (DropGroups.settles hbase (settles h)) hv hQ)
  have hf : FoldGroups.Valid (windowShape toList p₀ r₀) (WindowInv toList p₀ r₀ PInv)
      (windowShape toList p₀ r₀ (window p₀ r₀ n m).stream).final
      (Grouped.foldGroups init step (window p₀ r₀ n m).stream) :=
    ⟨(windowState_start hr hp n m).1.1, cur_start n m, rfl⟩
  have hstart := And.intro hf (Or.inl rfl : Quiet (window p₀ r₀ n m).stream.inner.inner)
  have hlen := hS.length_le_supply _ hstart
  -- the last pull found no group left: the window has ended, and the stream underneath is quiet
  obtain ⟨q, hq, hnil, hpull⟩ := hS.pullUpTo_ends hstart (Nat.lt_succ_of_le hlen)
  have hpull' : FoldGroups.pull q = (none, (Producer.elements
      (Grouped.foldGroups init step (window p₀ r₀ n m).stream)).2) := hpull
  obtain ⟨-, -, hv, hend⟩ := FoldGroups.pull_spec hreads hq.1
  have hquiet : Quiet (Producer.elements
      (Grouped.foldGroups init step (window p₀ r₀ n m).stream)).2.stream.inner.inner := by
    have hq' := (hS.pull_inv q hq).2
    rw [hpull] at hq'
    exact hq'
  have hshape := hend hnil
  have hseen := hreads.obs_spec _ hv.1 (by rw [hshape]; rfl)
  rw [hshape, Grouped.Shape.ended_done, hq.1.2.2] at hseen
  rw [hpull'] at hv hseen
  dsimp only at hv hseen
  refine ⟨?_, hv.1.1, ?_⟩
  · rw [(hS.elements_spec hstart).1, FoldGroups.rest]
    exact congrArg (List.map _) (groups_start n m)
  · rw [← hseen, pullsSeen, closingPull_of_quiet hquiet, Nat.add_zero]

end Start

section List

variable {β : Type}

variable (α : Type) [GroupingRule β α] in
/-- The concatenation of the groups `rule` cuts a list into, all but the first `n` and at most `m`
of the rest, reads the list's source lazily and exactly, `d` being how far past a group the rule
reads to close it. After the window's `j + 1`-th element the source has yielded the groups passed
over and those `j + 1` elements. Once the window answers `none`, it has yielded nothing for an empty
window, and otherwise the groups up to the window's end and `d` more, up to the end of the list;
reading on then gives the groups after the window, or the whole list for an empty window. -/
def ReadsLazily (rule : β) (d : Nat) : Prop :=
  ∀ {ρ : Type} (l : List α) (R : ρ) (n m j : Nat),
    let P := partition rule l
    let after := Producer.pull (Producer.advance j (window (Source.ofList l R) rule n m))
    ((∃ a, after.1 = some a) →
        (Producer.finish after.2).producer.pulled = (P.take n).flatten.length + (j + 1)) ∧
      (after.1 = none →
        (Producer.finish after.2).producer.pulled =
            (if m = 0 then 0 else min l.length ((P.take (n + m)).flatten.length + d)) ∧
          Producer.collectAll (Producer.finish after.2) =
            ((P.drop (if m = 0 then 0 else n + m)).flatten, R))

variable {α : Type} [GroupingRule β α]

/-- A rule that reads `d` past every group followed by another reads every window lazily, with
that `d`: past the last group of the list it reads only to the end. -/
theorem readsLazily_of_peeksPast {r₀ : β} (hr : Restarts α r₀) (ho : OpenAfterRefusal β α)
    {d : Nat} (hd : ∀ (l : List α) (i : Nat) (hi : i + 1 < (partition r₀ l).length),
      peeksPast r₀ (partition r₀ l)[i] = d) :
    ReadsLazily α r₀ d := by
  intro ρ l R n m j
  have h := Source.streams_to (α := α) R
  have hp : (Source.ofList l R).result = R := rfl
  have hl : Source.remaining (Source.ofList l R) = l := Source.remaining_ofList l R
  -- the cursor the window leaves after the pull, and what the source has yielded by then
  have hinv := pullInv_window_advance h hp hr ho n m (j + 1)
  rw [Producer.advance_succ'] at hinv
  have hpulled := Source.pulled_of_pulledFrom hinv.1.1.1.2
  refine ⟨fun ⟨a, hpull⟩ ↦ ?_, fun hpull ↦ ?_⟩
  · obtain ⟨hpulls, hle⟩ := window_pulls_of_some h hp hr ho n m j hpull
    rw [hl] at hpulls hle
    show (Producer.pull (Producer.advance j (window (Source.ofList l R) r₀ n m))).2.stream.inner.inner.view.parent.producer.pulled = _
    rw [hpulled, hpulls]
    omega
  · have hend := window_pulls_of_none h hp hr ho n m j hpull
    have hcollect := collectAll_cursor hinv.1.1.1.1
    show (Producer.pull (Producer.advance j (window (Source.ofList l R) r₀ n m))).2.stream.inner.inner.view.parent.producer.pulled = _ ∧
      Producer.collectAll (Producer.pull (Producer.advance j (window (Source.ofList l R) r₀ n m))).2.stream.inner.inner.view.parent = _
    rw [hpulled, hcollect]
    cases m with
    | zero =>
      -- an empty window pulls nothing
      rw [final_start_zero, hl] at hend
      simp only [Prod.mk.injEq] at hend
      simp [hend, hr.flatten_partition]
    | succ k =>
      rw [final_start_succ hr, hl] at hend
      have hsplit := length_partition_split hr l (n + k + 1) 0
      simp only [List.take_zero, List.flatten_nil, List.length_nil, Nat.add_zero] at hsplit
      simp only [Nat.add_one_ne_zero, if_false, ← Nat.add_assoc]
      cases hg : (partition r₀ l)[n + k]? with
      | none =>
        -- past the last group: the whole list is read
        have hlen := List.getElem?_eq_none_iff.mp hg
        rw [hg] at hend
        simp only [Option.map_none, Option.getD_none, Prod.mk.injEq] at hend
        rw [List.take_of_length_le (by omega), hr.flatten_partition] at hsplit ⊢
        rw [List.drop_of_length_le (by omega)]
        simp [hend]
      | some g =>
        -- the window ends on the group `n + k`, read up to `d` past its end
        obtain ⟨hi, rfl⟩ := List.getElem?_eq_some_iff.mp hg
        rw [hg] at hend
        simp only [Option.map_some, Option.getD_some, pullsAfter, hl, Prod.mk.injEq] at hend
        refine ⟨?_, by rw [hend.2]⟩
        rw [hend.1]
        by_cases hlast : n + k + 1 < (partition r₀ l).length
        · rw [hd l (n + k) hlast]
          omega
        · rw [List.drop_of_length_le (by omega)] at hsplit ⊢
          simp only [List.flatten_nil, List.length_nil, Nat.add_zero, Nat.sub_zero] at hsplit ⊢
          omega

end List

end Groups

namespace Chunks

variable {α : Type}

/-- Offering elements counts a chunk's room down, to zero. -/
theorem admitAll_eq (size left : Nat) (g : List α) :
    Boundary.admitAll ({ size := size, left := left } : Chunks) g =
      { size := size, left := left - g.length } := by
  induction g generalizing left with
  | nil => rfl
  | cons a g ih =>
    have hoff : (Boundary.offer ({ size := size, left := left } : Chunks) a).2 =
        { size := size, left := left - 1 } := by
      rw [offer_eq]
      split <;> simp_all
    rw [Boundary.admitAll_cons, hoff, ih, List.length_cons, Nat.sub_sub, Nat.add_comm 1]

/-- A chunk followed by another is full, so the rule closes it without reading past it. -/
theorem peeksPast_of_followed (n : Nat) (l : List α) (i : Nat)
    (hi : i + 1 < (Boundary.partition (ofSize n) l).length) :
    Boundary.peeksPast (ofSize n) (Boundary.partition (ofSize n) l)[i] = 0 := by
  have hfull := (partition_laws n l).2.getElem i hi
  have hleft : Boundary.admitAll (ofSize n) (Boundary.partition (ofSize n) l)[i] =
      { size := max n 1, left := max n 1 - (Boundary.partition (ofSize n) l)[i].length } :=
    admitAll_eq _ _ _
  unfold Boundary.peeksPast
  rw [hleft, hfull, Nat.sub_self]
  rfl

end Chunks

namespace Groups

/-- A window of groups reads its source lazily and exactly for every rule of the library: one
element past the groups it ends on for runs, runs of related elements, groups of related neighbours
and partitions, which must see the next element to end a group, and none for chunks, which end
when full. -/
theorem window_reads_lazily (α : Type) :
    (∀ [BEq α], ReadsLazily α (runs : RunsBy α) 1) ∧
      (∀ same : α → α → Bool, ReadsLazily α ({ same := same } : RunsBy α) 1) ∧
      (∀ same : α → α → Bool, ReadsLazily α ({ same := same } : AdjacentBy α) 1) ∧
      (∀ holds : α → Bool, ReadsLazily α ({ holds := holds } : Partitions α) 1) ∧
      ∀ size : Nat, ReadsLazily α (Chunks.ofSize size) 0 := by
  have hrunsBy : ∀ same : α → α → Bool, ReadsLazily α ({ same := same } : RunsBy α) 1 :=
    fun same ↦ readsLazily_of_peeksPast (RunsBy.restarts same) (RunsBy.openAfterRefusal α)
      fun _ _ _ ↦ rfl
  refine ⟨fun {_} ↦ hrunsBy _, hrunsBy, fun same ↦ ?_, fun holds ↦ ?_, fun size ↦ ?_⟩
  · exact readsLazily_of_peeksPast (AdjacentBy.restarts same) (AdjacentBy.openAfterRefusal α)
      fun _ _ _ ↦ rfl
  · exact readsLazily_of_peeksPast (Partitions.restarts holds) (Partitions.openAfterRefusal α)
      fun _ _ _ ↦ rfl
  · exact readsLazily_of_peeksPast (Chunks.restarts size) (Chunks.openAfterRefusal α)
      (Chunks.peeksPast_of_followed size)

/- The second group of `[1, 1, 2, 2, 3, 3]`: runs read the first `3` to see the group end, chunks
of two do not. -/
example : (Producer.finish (Producer.pull (Producer.advance 2
    (window (Source.ofList [1, 1, 2, 2, 3, 3] ()) (runs : RunsBy Nat) 1 1))).2).producer.pulled =
      5 := by
  decide

example : (Producer.finish (Producer.pull (Producer.advance 2
    (window (Source.ofList [1, 1, 2, 2, 3, 3] ()) (Chunks.ofSize 2) 1 1))).2).producer.pulled =
      4 := by
  decide

end Groups

end Spool
