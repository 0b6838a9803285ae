import Spool.Grouping.Rejoin
import Spool.Proofs.Lifo

/-!
# Group streams that read as lists

A group stream is read by opening a group (`openNext`) and drawing from it (`drawInGroup`), and
every reader of the library drives it that way: a group's handle, `readGroups`, `concat`,
`intercalate` and `foldGroups`. This module states once what such a reading sees, so that each
stream, the base one or a window, proves it once, and each reader is proved once for all of them.

A `Grouped.Shape` is what a stream holds, as lists: the rest of the open group, and the groups still
to come, each with its index. It also records what is seen of the stream's rest at the points where
a reading can stop: once the open group is read (`done`), once each later group is read, and once
the stream has answered that no group is left (`final`). Groups are never empty.
`Grouped.Reads obs shape Inv` says that on the states satisfying `Inv`, drawing reads the open
group of `shape s`, opening a group once the open one is read opens the next group of the shape,
`obs` sees `done` between groups, and the supply bounds what is left.

For every such stream: the open group read to its end (`readGroup_spec`, `drainGroup_spec`, and
through its handle `Group.drawAll_eq`, `Group.collectAll_eq`), every group with its index, as a
client loop of `next_group` and `draw_all` reads them (`readIndexed_spec`), every group
(`readGroups_spec`), their concatenation (`concat_spec`), the groups with a separator between them
(`intercalate_spec`), and one fold per group (`foldGroups_spec`). A reading that goes to the end
stops in a state where `obs` sees `final`.
-/

set_option autoImplicit false

namespace Spool

namespace Grouped

/-- What a group stream holds, read as lists: the rest of the open group; the groups still to
come, each with its index, its contents and what is seen of the stream's rest once it is read;
what is seen once the open group is read, and once no group is left. -/
@[ext] structure Shape (α ω : Type) where
  /-- The rest of the open group. -/
  cur : List α
  /-- What is seen once the open group is read. -/
  done : ω
  /-- The groups still to come: index, contents, and what is seen once the group is read. -/
  next : List (Nat × List α × ω)
  /-- What is seen once the stream has answered that no group is left. -/
  final : ω
  /-- No group to come is empty. -/
  next_ne_nil : ∀ e ∈ next, e.2.1 ≠ []

namespace Shape

variable {α ω : Type}

/-- The contents of the groups still to come. -/
def groups (x : Shape α ω) : List (List α) :=
  x.next.map (·.2.1)

/-- The groups still to come, each with its index. -/
def indexed (x : Shape α ω) : List (List α × Nat) :=
  x.next.map fun e ↦ (e.2.1, e.1)

/-- The shape once no group is left. -/
def ended (x : Shape α ω) : Shape α ω where
  cur := []
  done := x.final
  next := []
  final := x.final
  next_ne_nil := by simp

/-- Reads one element of the open group. -/
def draw (x : Shape α ω) : Option α × Shape α ω :=
  (x.cur.head?, { x with cur := x.cur.tail })

/-- Opens the next group: its index, and the shape with that group open; with no group left, the
ended shape. -/
def openNext (x : Shape α ω) : Option Nat × Shape α ω :=
  match hx : x.next with
  | [] => (none, x.ended)
  | (i, g, o) :: gs =>
    (some i,
      { cur := g, done := o, next := gs, final := x.final
        next_ne_nil := fun e he ↦ x.next_ne_nil e (hx ▸ List.mem_cons_of_mem _ he) })

@[simp] theorem ended_cur (x : Shape α ω) : x.ended.cur = [] := rfl
@[simp] theorem ended_done (x : Shape α ω) : x.ended.done = x.final := rfl
@[simp] theorem ended_next (x : Shape α ω) : x.ended.next = [] := rfl
@[simp] theorem ended_final (x : Shape α ω) : x.ended.final = x.final := rfl
@[simp] theorem ended_ended (x : Shape α ω) : x.ended.ended = x.ended := rfl

@[simp] theorem groups_ended (x : Shape α ω) : x.ended.groups = [] := rfl

/-- Only `final` matters for the ended shape. -/
theorem ended_eq_of_final {x y : Shape α ω} (h : x.final = y.final) : x.ended = y.ended := by
  ext <;> simp [h]

@[simp] theorem draw_fst (x : Shape α ω) : x.draw.1 = x.cur.head? := rfl
@[simp] theorem draw_snd_cur (x : Shape α ω) : x.draw.2.cur = x.cur.tail := rfl
@[simp] theorem draw_snd_done (x : Shape α ω) : x.draw.2.done = x.done := rfl
@[simp] theorem draw_snd_next (x : Shape α ω) : x.draw.2.next = x.next := rfl
@[simp] theorem draw_snd_final (x : Shape α ω) : x.draw.2.final = x.final := rfl
@[simp] theorem groups_with_cur (x : Shape α ω) (c : List α) :
    ({ x with cur := c } : Shape α ω).groups = x.groups := rfl
@[simp] theorem groups_draw_snd (x : Shape α ω) : x.draw.2.groups = x.groups := rfl

@[simp] theorem map_fst_indexed (x : Shape α ω) : x.indexed.map Prod.fst = x.groups := by
  simp [indexed, groups]

theorem openNext_of_nil {x : Shape α ω} (hx : x.next = []) : x.openNext = (none, x.ended) := by
  unfold openNext
  split
  · rfl
  · simp_all

/-- Opening the group `(i, g, o)` gives `i`, with `g` open and `o` seen once it is read. -/
theorem openNext_of_cons {x : Shape α ω} {i : Nat} {g : List α} {o : ω}
    {gs : List (Nat × List α × ω)} (hx : x.next = (i, g, o) :: gs) :
    x.openNext.1 = some i ∧ x.openNext.2.cur = g ∧ x.openNext.2.done = o ∧
      x.openNext.2.next = gs ∧ x.openNext.2.final = x.final := by
  unfold openNext
  split
  · simp_all
  · rename_i i' g' o' gs' hx'
    rw [hx] at hx'
    cases hx'
    exact ⟨rfl, rfl, rfl, rfl, rfl⟩

/-- Opening answers that no group is left only when none is to come. -/
theorem next_eq_nil_of_openNext {x : Shape α ω} (h : x.openNext.1 = none) : x.next = [] := by
  cases hx : x.next with
  | nil => rfl
  | cons e gs =>
    obtain ⟨i, g, o⟩ := e
    rw [(openNext_of_cons hx).1] at h
    cases h

/-- Opening answers index `i` only when the next group to come has that index. -/
theorem next_eq_cons_of_openNext {x : Shape α ω} {i : Nat} (h : x.openNext.1 = some i) :
    ∃ g o gs, x.next = (i, g, o) :: gs := by
  cases hx : x.next with
  | nil =>
    rw [openNext_of_nil hx] at h
    cases h
  | cons e gs =>
    obtain ⟨j, g, o⟩ := e
    rw [(openNext_of_cons hx).1, Option.some.injEq] at h
    exact ⟨g, o, gs, h ▸ rfl⟩

/-- Opening keeps what is seen once no group is left. -/
@[simp] theorem final_openNext (x : Shape α ω) : x.openNext.2.final = x.final := by
  cases hx : x.next with
  | nil => simp [openNext_of_nil hx]
  | cons e gs => exact (openNext_of_cons (o := e.2.2) (hx.trans rfl)).2.2.2.2

theorem with_cur_nil {x : Shape α ω} (hx : x.cur = []) : { x with cur := [] } = x :=
  Shape.ext hx.symm rfl rfl rfl

/-- With the open group read, a draw reads nothing and changes nothing. -/
theorem draw_cur_nil {x : Shape α ω} (hx : x.cur = []) : x.draw = (none, x) := by
  simp only [draw, hx, List.head?_nil, List.tail_nil, with_cur_nil hx]

/-- There are no more groups to come than elements in them, as none is empty. -/
theorem length_next_le (x : Shape α ω) : x.next.length ≤ x.groups.flatten.length := by
  obtain ⟨cur, done, next, final, hne⟩ := x
  unfold groups
  dsimp only
  induction next with
  | nil => simp
  | cons e es ih =>
    have he : e.2.1 ≠ [] := hne e List.mem_cons_self
    have hlen : 0 < e.2.1.length := List.length_pos_iff.mpr he
    have hes := ih (fun e' he' ↦ hne e' (List.mem_cons_of_mem _ he'))
    simp only [List.length_cons, List.map_cons, List.flatten_cons, List.length_append]
    omega

end Shape

variable {τ α ρ ω : Type} [Grouped τ α ρ]

/-- On the states satisfying `Inv`, the stream reads as the shape `shape s`: drawing reads its
open group; once that group is read, opening a group opens the shape's next one; between groups
`obs` sees the shape's `done`; and the supply bounds what is left. -/
structure Reads (obs : τ → ω) (shape : τ → Shape α ω) (Inv : τ → Prop) : Prop where
  drawInGroup_spec : ∀ s, Inv s → (drawInGroup s).1 = (shape s).draw.1 ∧
    shape (drawInGroup s).2 = (shape s).draw.2 ∧ Inv (drawInGroup s).2
  openNext_spec : ∀ s, Inv s → (shape s).cur = [] → (openNext s).1 = (shape s).openNext.1 ∧
    shape (openNext s).2 = (shape s).openNext.2 ∧ Inv (openNext s).2
  obs_spec : ∀ s, Inv s → (shape s).cur = [] → obs s = (shape s).done
  length_le_supply : ∀ s, Inv s →
    (shape s).cur.length + (shape s).groups.flatten.length ≤ supply s

/-- Draining reads exactly as far as reading does. -/
theorem drainUpTo_eq_readGroupUpTo (n : Nat) (s : τ) :
    drainUpTo n s = ((readGroupUpTo n s).1.length, (readGroupUpTo n s).2) := by
  induction n generalizing s with
  | zero => rfl
  | succ n ih =>
    unfold drainUpTo readGroupUpTo
    rcases drawInGroup s with ⟨_ | a, s'⟩
    · rfl
    · simp only [ih, List.length_cons]

/-- Draining a group leaves the stream as reading it does. -/
theorem drainGroup_eq (s : τ) : drainGroup s = (readGroup s).2 := by
  simp only [drainGroup, readGroup, drainUpTo_eq_readGroupUpTo]

end Grouped

namespace Group

variable {τ α ρ : Type} [Grouped τ α ρ]

theorem draw_mk (s : τ) (i : Nat) :
    Context.draw (Group.mk s i) =
      ((Grouped.drawInGroup s).1, Group.mk (Grouped.drawInGroup s).2 i) := by
  show Group.draw _ = _
  unfold Group.draw
  cases Grouped.drawInGroup s
  rfl

theorem pull_mk (s : τ) (i : Nat) :
    Producer.pull (Group.mk s i) =
      ((Grouped.drawInGroup s).1, Group.mk (Grouped.drawInGroup s).2 i) :=
  draw_mk s i

/-- Draws through a group's handle are draws from the open group of its stream. -/
theorem drawUpTo_eq (n : Nat) (s : τ) (i : Nat) :
    Context.drawUpTo n (Group.mk s i) =
      ((Grouped.readGroupUpTo n s).1, Group.mk (Grouped.readGroupUpTo n s).2 i) := by
  induction n generalizing s with
  | zero => rfl
  | succ n ih =>
    unfold Context.drawUpTo Grouped.readGroupUpTo
    rw [draw_mk]
    rcases Grouped.drawInGroup s with ⟨_ | a, s'⟩
    · rfl
    · simp only [ih]

/-- Pulls from a group's handle are draws from the open group of its stream. -/
theorem pullUpTo_eq (n : Nat) (s : τ) (i : Nat) :
    Producer.pullUpTo n (Group.mk s i) =
      ((Grouped.readGroupUpTo n s).1, Group.mk (Grouped.readGroupUpTo n s).2 i) := by
  induction n generalizing s with
  | zero => rfl
  | succ n ih =>
    unfold Producer.pullUpTo Grouped.readGroupUpTo
    rw [pull_mk]
    rcases Grouped.drawInGroup s with ⟨_ | a, s'⟩
    · rfl
    · simp only [ih]

/-- `drawAll` on a group's handle reads the open group to its end. -/
theorem drawAll_eq (s : τ) (i : Nat) :
    Context.drawAll (Group.mk s i) =
      ((Grouped.readGroup s).1, Group.mk (Grouped.readGroup s).2 i) :=
  drawUpTo_eq _ s i

/-- `collectAll` on a group's handle reads the open group to its end and gives back the stream. -/
theorem collectAll_eq (s : τ) (i : Nat) :
    Producer.collectAll (Group.mk s i) = Grouped.readGroup s := by
  show ((Producer.pullUpTo (Grouped.supply s + 1) (Group.mk s i)).1,
    (Producer.pullUpTo (Grouped.supply s + 1) (Group.mk s i)).2.stream) = _
  rw [pullUpTo_eq]
  rfl

end Group

namespace Grouped

variable {τ α ρ ω : Type} [Grouped τ α ρ]

/-- At most `n` groups, each opened, drained through its handle and kept with its index: the loop
a client writes with `next_group` and `draw_all`. -/
def readIndexedUpTo : Nat → τ → List (List α × Nat) × τ
  | 0, s => ([], s)
  | n + 1, s =>
    match openNext s with
    | (none, s) => ([], s)
    | (some i, s) =>
      let (items, g) := Context.drawAll (Group.mk s i)
      let (rest, s) := readIndexedUpTo n g.stream
      ((items, g.index) :: rest, s)

/-- Every group with its index. -/
def readIndexed (s : τ) : List (List α × Nat) × τ :=
  readIndexedUpTo (supply s + 1) s

/-- Reading whole groups is reading them with their indices, and forgetting the indices. -/
theorem readGroupsUpTo_eq (n : Nat) (s : τ) :
    readGroupsUpTo n s = ((readIndexedUpTo n s).1.map Prod.fst, (readIndexedUpTo n s).2) := by
  induction n generalizing s with
  | zero => rfl
  | succ n ih =>
    unfold readGroupsUpTo readIndexedUpTo
    rcases openNext s with ⟨_ | i, s'⟩
    · rfl
    · simp only [Group.drawAll_eq, ih, List.map_cons]

namespace Reads

variable {obs : τ → ω} {shape : τ → Shape α ω} {Inv : τ → Prop}

/-- At most `n` draws, with `n` more than the open group holds, read the whole group. -/
theorem readGroupUpTo_spec (h : Reads obs shape Inv) {n : Nat} {s : τ} (hs : Inv s)
    (hn : (shape s).cur.length < n) :
    (readGroupUpTo n s).1 = (shape s).cur ∧
      shape (readGroupUpTo n s).2 = { shape s with cur := [] } ∧ Inv (readGroupUpTo n s).2 := by
  induction n generalizing s with
  | zero => omega
  | succ n ih =>
    obtain ⟨hfst, hshape, hinv⟩ := h.drawInGroup_spec s hs
    unfold readGroupUpTo
    cases hc : (shape s).cur with
    | nil =>
      -- the group is read: the draw answers nothing
      rw [Shape.draw_cur_nil hc] at hfst hshape
      rcases hd : drawInGroup s with ⟨_ | a, s'⟩ <;> rw [hd] at hfst hshape hinv
      · exact ⟨rfl, by rw [hshape, Shape.with_cur_nil hc], hinv⟩
      · cases hfst
    | cons a c =>
      simp only [Shape.draw, hc, List.head?_cons, List.tail_cons] at hfst hshape
      rcases hd : drawInGroup s with ⟨_ | b, s'⟩ <;> rw [hd] at hfst hshape hinv
      · cases hfst
      · cases hfst
        have hlen : (shape s').cur.length < n := by
          simp only [hc, List.length_cons] at hn
          simpa [hshape] using hn
        obtain ⟨ih₁, ih₂, ih₃⟩ := ih hinv hlen
        refine ⟨by simp [ih₁, hshape], ?_, ih₃⟩
        simp only [ih₂, hshape]

/-- The open group read to its end. -/
theorem readGroup_spec (h : Reads obs shape Inv) {s : τ} (hs : Inv s) :
    (readGroup s).1 = (shape s).cur ∧ shape (readGroup s).2 = { shape s with cur := [] } ∧
      Inv (readGroup s).2 := by
  have hlen := h.length_le_supply s hs
  exact h.readGroupUpTo_spec hs (by omega)

/-- Draining the open group leaves the shape with that group read. -/
theorem drainGroup_spec (h : Reads obs shape Inv) {s : τ} (hs : Inv s) :
    shape (drainGroup s) = { shape s with cur := [] } ∧ Inv (drainGroup s) := by
  rw [drainGroup_eq]
  exact (h.readGroup_spec hs).2

/-- From a state with no group open, at most `n` groups, for `n` more than are left, are every
group with its index, and the stream ends with its shape ended. -/
theorem readIndexedUpTo_spec (h : Reads obs shape Inv) {n : Nat} {s : τ} (hs : Inv s)
    (hc : (shape s).cur = []) (hn : (shape s).next.length < n) :
    (readIndexedUpTo n s).1 = (shape s).indexed ∧
      shape (readIndexedUpTo n s).2 = (shape s).ended ∧ Inv (readIndexedUpTo n s).2 := by
  induction n generalizing s with
  | zero => omega
  | succ n ih =>
    obtain ⟨hfst, hshape, hinv⟩ := h.openNext_spec s hs hc
    unfold readIndexedUpTo
    cases hx : (shape s).next with
    | nil =>
      rw [Shape.openNext_of_nil hx] at hfst hshape
      rcases ho : openNext s with ⟨_ | i, s'⟩ <;> rw [ho] at hfst hshape hinv
      · exact ⟨by simp [Shape.indexed, hx], hshape, hinv⟩
      · cases hfst
    | cons e gs =>
      obtain ⟨i, g, o⟩ := e
      obtain ⟨hx₁, hx₂, -, hx₄, hx₅⟩ := Shape.openNext_of_cons hx
      rcases ho : openNext s with ⟨_ | j, s'⟩ <;> rw [ho] at hfst hshape hinv
      · rw [hx₁] at hfst
        cases hfst
      · -- the group opens with its own index, is drained, then the rest are read
        rw [hx₁, Option.some.injEq] at hfst
        subst hfst
        obtain ⟨hr₁, hr₂, hr₃⟩ := h.readGroup_spec hinv
        have hn' : (shape (readGroup s').2).next.length < n := by
          rw [hr₂, hshape, hx₄]
          simp only [hx, List.length_cons] at hn
          omega
        obtain ⟨ih₁, ih₂, ih₃⟩ := ih hr₃ (by rw [hr₂]) hn'
        dsimp only
        rw [Group.drawAll_eq]
        refine ⟨?_, ?_, ih₃⟩
        · simp only [ih₁, hr₁, hr₂, hshape, hx₂, Shape.indexed, hx₄, hx, List.map_cons]
        · rw [ih₂, hr₂]
          exact Shape.ended_eq_of_final (by simp [hshape])

/-- From a state with no group open, `readIndexed` reads every group with its index, and the
stream ends. -/
theorem readIndexed_spec (h : Reads obs shape Inv) {s : τ} (hs : Inv s)
    (hc : (shape s).cur = []) :
    (readIndexed s).1 = (shape s).indexed ∧ shape (readIndexed s).2 = (shape s).ended ∧
      Inv (readIndexed s).2 := by
  have hlen := h.length_le_supply s hs
  have hnext := (shape s).length_next_le
  exact h.readIndexedUpTo_spec hs hc (by omega)

/-- From a state with no group open, at most `n` groups, for `n` more than are left, are every
group, and the stream ends with its shape ended. -/
theorem readGroupsUpTo_spec (h : Reads obs shape Inv) {n : Nat} {s : τ} (hs : Inv s)
    (hc : (shape s).cur = []) (hn : (shape s).next.length < n) :
    (readGroupsUpTo n s).1 = (shape s).groups ∧
      shape (readGroupsUpTo n s).2 = (shape s).ended ∧ Inv (readGroupsUpTo n s).2 := by
  obtain ⟨hi₁, hi₂, hi₃⟩ := h.readIndexedUpTo_spec hs hc hn
  rw [readGroupsUpTo_eq, hi₁, Shape.map_fst_indexed]
  exact ⟨rfl, hi₂, hi₃⟩

/-- From a state with no group open, `readGroups` reads every group, and the stream ends. -/
theorem readGroups_spec (h : Reads obs shape Inv) {s : τ} (hs : Inv s) (hc : (shape s).cur = []) :
    (readGroups s).1 = (shape s).groups ∧ shape (readGroups s).2 = (shape s).ended ∧
      Inv (readGroups s).2 := by
  have hlen := h.length_le_supply s hs
  have hnext := (shape s).length_next_le
  exact h.readGroupsUpTo_spec hs hc (by omega)

end Reads

end Grouped


namespace Rejoin

variable {τ α ρ ω : Type} [Grouped τ α ρ] {obs : τ → ω} {shape : τ → Grouped.Shape α ω}
  {Inv : τ → Prop}

open Grouped

variable (shape) in
/-- What a concatenation still hands out: the rest of the open group, then the groups to come. -/
def rest (r : Rejoin τ) : List α :=
  (shape r.stream).cur ++ (shape r.stream).groups.flatten

variable (shape Inv) in
/-- The stream is in a reading state, has no group open unless the concatenation is reading one,
and sees `F` once no group is left. -/
def Valid (F : ω) (r : Rejoin τ) : Prop :=
  Inv r.stream ∧ (r.active = false → (shape r.stream).cur = []) ∧ (shape r.stream).final = F

/-- Inside a group with elements left, a pull hands out the next one. -/
theorem pullUpTo_of_cur_cons (h : Reads obs shape Inv) (n : Nat) {r : Rejoin τ}
    (hs : Inv r.stream) (ha : r.active = true) {a : α} {c : List α}
    (hc : (shape r.stream).cur = a :: c) :
    pullUpTo (n + 1) r = (some a, { r with stream := (drawInGroup r.stream).2 }) := by
  obtain ⟨hfst, -, -⟩ := h.drawInGroup_spec _ hs
  simp only [Shape.draw, hc, List.head?_cons] at hfst
  unfold pullUpTo
  simp only [ha, if_true]
  rcases hd : drawInGroup r.stream with ⟨_ | b, s'⟩ <;> rw [hd] at hfst
  · cases hfst
  · cases hfst
    rfl

/-- Inside a group read to its end, a pull draws nothing and goes on as from no group open. -/
theorem pullUpTo_of_cur_nil (h : Reads obs shape Inv) (n : Nat) {r : Rejoin τ}
    (hs : Inv r.stream) (ha : r.active = true) (hc : (shape r.stream).cur = []) :
    pullUpTo (n + 1) r =
      pullUpTo (n + 1) { stream := (drawInGroup r.stream).2, active := false } := by
  obtain ⟨hfst, -, -⟩ := h.drawInGroup_spec _ hs
  rw [Shape.draw_cur_nil hc] at hfst
  unfold pullUpTo
  simp only [ha, if_true, Bool.false_eq_true, if_false]
  rcases hd : drawInGroup r.stream with ⟨_ | b, s'⟩
  · rfl
  · rw [hd] at hfst
    cases hfst

/-- With no group open, a pull with room for two steps opens the next group and hands out its first
element, or finds that no group is left and ends the stream. -/
theorem pullUpTo_of_inactive (h : Reads obs shape Inv) (m : Nat) {s : τ} (hs : Inv s)
    (hc : (shape s).cur = []) :
    (pullUpTo (m + 2) ({ stream := s, active := false } : Rejoin τ)).1 =
        (shape s).groups.flatten.head? ∧
      rest shape (pullUpTo (m + 2) ({ stream := s, active := false } : Rejoin τ)).2 =
        (shape s).groups.flatten.tail ∧
      Valid shape Inv (shape s).final
        (pullUpTo (m + 2) ({ stream := s, active := false } : Rejoin τ)).2 ∧
      ((shape s).groups.flatten = [] →
        shape (pullUpTo (m + 2) ({ stream := s, active := false } : Rejoin τ)).2.stream =
          (shape s).ended) := by
  obtain ⟨hfst, hshape, hinv⟩ := h.openNext_spec s hs hc
  unfold pullUpTo
  simp only [Bool.false_eq_true, if_false]
  cases hx : (shape s).next with
  | nil =>
    -- no group is left: the stream ends
    rw [Shape.openNext_of_nil hx] at hfst hshape
    rcases ho : openNext s with ⟨_ | i, s'⟩ <;> rw [ho] at hfst hshape hinv
    · have hgroups : (shape s).groups = [] := by simp [Shape.groups, hx]
      refine ⟨by simp [hgroups], by simp [rest, hshape, hgroups],
        ⟨hinv, fun _ ↦ by simp [hshape], by simp [hshape]⟩, fun _ ↦ hshape⟩
    · cases hfst
  | cons e gs =>
    -- the next group opens, and its first element comes out
    obtain ⟨i, g, o⟩ := e
    obtain ⟨hx₁, hx₂, -, hx₄, hx₅⟩ := Shape.openNext_of_cons hx
    have hg : g ≠ [] := (shape s).next_ne_nil (i, g, o) (by simp [hx])
    obtain ⟨b, c, rfl⟩ := List.exists_cons_of_ne_nil hg
    rcases ho : openNext s with ⟨_ | j, s'⟩ <;> rw [ho] at hfst hshape hinv
    · rw [hx₁] at hfst
      cases hfst
    · have hcur : (shape s').cur = b :: c := by rw [hshape, hx₂]
      dsimp only
      rw [pullUpTo_of_cur_cons h m hinv rfl hcur]
      obtain ⟨-, hd₂, hd₃⟩ := h.drawInGroup_spec s' hinv
      have hrest : (shape (drawInGroup s').2).cur = c := by simp [hd₂, Shape.draw, hcur]
      have hnext : (shape (drawInGroup s').2).groups = (shape s').groups := by
        simp [hd₂, Shape.draw, Shape.groups]
      have hflat : (shape s).groups.flatten = b :: (c ++ (shape s').groups.flatten) := by
        simp [Shape.groups, hx, hshape, hx₄]
      refine ⟨by simp [hflat], ?_, ⟨hd₃, fun h' ↦ absurd h' (by simp), ?_⟩,
        fun h' ↦ absurd h' (by simp [hflat])⟩
      · simp only [rest, hrest, hnext, hflat, List.tail_cons]
      · simp [hd₂, hshape]

/-- One pull, with room for two steps, hands out the head of what is left and leaves its tail;
when nothing is left it ends the stream. -/
theorem pullUpTo_spec (h : Reads obs shape Inv) {F : ω} {n : Nat} (hn : 2 ≤ n) {r : Rejoin τ}
    (hr : Valid shape Inv F r) :
    (pullUpTo n r).1 = (rest shape r).head? ∧ rest shape (pullUpTo n r).2 = (rest shape r).tail ∧
      Valid shape Inv F (pullUpTo n r).2 ∧
      (rest shape r = [] → shape (pullUpTo n r).2.stream = (shape r.stream).ended) := by
  obtain ⟨m, rfl⟩ : ∃ m, n = m + 2 := ⟨n - 2, by omega⟩
  obtain ⟨hs, hact, hF⟩ := hr
  cases ha : r.active with
  | false =>
    have hc := hact ha
    have hr' : r = { stream := r.stream, active := false } := by cases r; simp_all
    rw [hr', ← hF]
    simpa [rest, hc] using pullUpTo_of_inactive h m hs hc
  | true =>
    cases hc : (shape r.stream).cur with
    | nil =>
      obtain ⟨-, hd₂, hd₃⟩ := h.drawInGroup_spec _ hs
      rw [Shape.draw_cur_nil hc] at hd₂
      rw [pullUpTo_of_cur_nil h (m + 1) hs ha hc, ← hF]
      have hc' : (shape (drawInGroup r.stream).2).cur = [] := by rw [hd₂, hc]
      simpa [rest, hc, hd₂] using pullUpTo_of_inactive h m hd₃ hc'
    | cons a c =>
      obtain ⟨-, hd₂, hd₃⟩ := h.drawInGroup_spec _ hs
      rw [pullUpTo_of_cur_cons h (m + 1) hs ha hc]
      refine ⟨by simp [rest, hc], ?_, ⟨hd₃, fun h' ↦ absurd h' (by simp [ha]), ?_⟩,
        fun h' ↦ absurd h' (by simp [rest, hc])⟩
      · simp [rest, hd₂, Shape.draw, hc]
      · simp [hd₂, Shape.draw, hF]

/-- A concatenation streams what is left of the open group and then every later group. -/
theorem streams (h : Reads obs shape Inv) (F : ω) :
    Producer.Streams (π := Rejoin τ) (rest shape) (Valid shape Inv F) where
  pull_fst r hr := (pullUpTo_spec h (by omega) hr).1
  pull_snd r hr := (pullUpTo_spec h (by omega) hr).2.1
  pull_inv r hr := (pullUpTo_spec h (by omega) hr).2.2.1
  length_le_supply r hr := by
    have hle := h.length_le_supply r.stream hr.1
    show (rest shape r).length ≤ supply r.stream
    rw [rest, List.length_append]
    exact hle

end Rejoin

namespace Intercalate

variable {τ α ρ ω : Type} [Grouped τ α ρ] {obs : τ → ω} {shape : τ → Grouped.Shape α ω}
  {Inv : τ → Prop}

open Grouped

/-- A group followed by others, each after the separator. -/
theorem intercalate_cons (sep g : List α) (gs : List (List α)) :
    sep.intercalate (g :: gs) = g ++ (gs.map (sep ++ ·)).flatten := by
  induction gs generalizing g with
  | nil => simp
  | cons g' gs ih => simp [List.intercalate_cons_cons, ih]

variable (shape) in
/-- What an intercalation still hands out, by phase. -/
def rest (p : Intercalate τ α) : List α :=
  match p.phase with
  | .start => p.separator.intercalate (shape p.stream).groups
  | .group => (shape p.stream).cur ++ ((shape p.stream).groups.map (p.separator ++ ·)).flatten
  | .separator pos =>
    p.separator.drop pos ++ (shape p.stream).cur ++
      ((shape p.stream).groups.map (p.separator ++ ·)).flatten
  | .done => []

variable (shape Inv) in
/-- The stream is in a reading state and sees `F` once no group is left; before the first group
nothing is open, inside a separator the next group is open and unread, and at the end the stream
has ended. -/
def Valid (F : ω) (p : Intercalate τ α) : Prop :=
  Inv p.stream ∧ (shape p.stream).final = F ∧
    match p.phase with
    | .start => (shape p.stream).cur = []
    | .group => True
    | .separator _ => (shape p.stream).cur ≠ []
    | .done => shape p.stream = (shape p.stream).ended

variable (shape Inv) in
/-- What one pull must do from `p`: hand out the head of what is left, leave its tail, stay valid,
and with nothing left end the stream. -/
def PullsFrom (F : ω) (p : Intercalate τ α) (q : Option α × Intercalate τ α) : Prop :=
  q.1 = (rest shape p).head? ∧ rest shape q.2 = (rest shape p).tail ∧ Valid shape Inv F q.2 ∧
    (rest shape p = [] → shape q.2.stream = (shape p.stream).ended)

/-- A pull from another state with the same list left and the same end does what one from `p`
must. -/
theorem PullsFrom.of_rest_eq {F : ω} {p p' : Intercalate τ α} {q : Option α × Intercalate τ α}
    (hq : PullsFrom shape Inv F p' q) (hrest : rest shape p' = rest shape p)
    (hend : (shape p'.stream).ended = (shape p.stream).ended) : PullsFrom shape Inv F p q := by
  obtain ⟨h₁, h₂, h₃, h₄⟩ := hq
  exact ⟨hrest ▸ h₁, hrest ▸ h₂, h₃, fun h' ↦ (h₄ (hrest.trans h')).trans hend⟩

theorem pullUpTo_done {n : Nat} {p : Intercalate τ α} (hp : p.phase = .done) :
    pullUpTo n p = (none, p) := by
  cases n with
  | zero => rfl
  | succ n => rw [pullUpTo.eq_2, hp]

theorem pullUpTo_start (n : Nat) {p : Intercalate τ α} (hp : p.phase = .start) :
    pullUpTo (n + 1) p =
      pullUpTo n
        { p with
          stream := (openNext p.stream).2
          phase := if (openNext p.stream).1.isSome then .group else .done } := by
  rw [pullUpTo.eq_2, hp]

theorem pullUpTo_group_cons (h : Reads obs shape Inv) (n : Nat) {p : Intercalate τ α}
    (hp : p.phase = .group) (hs : Inv p.stream) {a : α} {c : List α}
    (hc : (shape p.stream).cur = a :: c) :
    pullUpTo (n + 1) p = (some a, { p with stream := (drawInGroup p.stream).2 }) := by
  obtain ⟨hfst, -, -⟩ := h.drawInGroup_spec _ hs
  simp only [Shape.draw_fst, hc, List.head?_cons] at hfst
  rw [pullUpTo.eq_2, hp]
  rcases hd : drawInGroup p.stream with ⟨_ | b, s'⟩ <;> rw [hd] at hfst
  · cases hfst
  · cases hfst
    dsimp only

theorem pullUpTo_group_nil (h : Reads obs shape Inv) (n : Nat) {p : Intercalate τ α}
    (hp : p.phase = .group) (hs : Inv p.stream) (hc : (shape p.stream).cur = []) :
    pullUpTo (n + 1) p =
      pullUpTo n
        { p with
          stream := (openNext (drawInGroup p.stream).2).2
          phase :=
            if (openNext (drawInGroup p.stream).2).1.isSome then .separator 0 else .done } := by
  obtain ⟨hfst, -, -⟩ := h.drawInGroup_spec _ hs
  rw [Shape.draw_cur_nil hc] at hfst
  rw [pullUpTo.eq_2, hp]
  rcases hd : drawInGroup p.stream with ⟨_ | b, s'⟩
  · rfl
  · rw [hd] at hfst
    cases hfst

theorem pullUpTo_separator (n : Nat) {p : Intercalate τ α} {pos : Nat}
    (hp : p.phase = .separator pos) :
    pullUpTo (n + 1) p = match p.separator[pos]? with
      | some a => (some a, { p with phase := .separator (pos + 1) })
      | none => pullUpTo n { p with phase := .group } := by
  obtain ⟨stream, separator, phase⟩ := p
  cases hp
  rfl

/-- Inside a group with elements left, one pull hands out the next one. -/
theorem pullsFrom_group_cons (h : Reads obs shape Inv) {F : ω} (n : Nat) {p : Intercalate τ α}
    (hp : p.phase = .group) (hv : Valid shape Inv F p) {a : α} {c : List α}
    (hc : (shape p.stream).cur = a :: c) :
    PullsFrom shape Inv F p (pullUpTo (n + 1) p) := by
  obtain ⟨hs, hF, -⟩ := hv
  obtain ⟨-, hd₂, hd₃⟩ := h.drawInGroup_spec _ hs
  rw [pullUpTo_group_cons h n hp hs hc]
  refine ⟨by simp [rest, hp, hc], ?_, ⟨hd₃, by simp [hd₂, hF], by simp [hp]⟩,
    fun h' ↦ absurd h' (by simp [rest, hp, hc])⟩
  simp [rest, hp, hd₂, hc]

/-- Inside a separator, one pull with room for two steps hands out its next element, or, past its
end, the first element of the group that follows it. -/
theorem pullsFrom_separator (h : Reads obs shape Inv) {F : ω} (n : Nat) {p : Intercalate τ α}
    {pos : Nat} (hp : p.phase = .separator pos) (hv : Valid shape Inv F p) :
    PullsFrom shape Inv F p (pullUpTo (n + 2) p) := by
  obtain ⟨hs, hF, hcur⟩ := hv
  simp only [hp] at hcur
  rw [pullUpTo_separator (n + 1) hp]
  cases ha : p.separator[pos]? with
  | some a =>
    -- the separator's next element
    obtain ⟨hlt, hget⟩ := List.getElem?_eq_some_iff.mp ha
    have hdrop : p.separator.drop pos = a :: p.separator.drop (pos + 1) := by
      rw [List.drop_eq_getElem_cons hlt, hget]
    refine ⟨by simp [rest, hp, hdrop], ?_, ⟨hs, hF, hcur⟩,
      fun h' ↦ absurd h' (by simp [rest, hp, hdrop])⟩
    simp [rest, hp, hdrop]
  | none =>
    -- the separator is over: the next group's first element
    have hdrop : p.separator.drop pos = [] :=
      List.drop_eq_nil_of_le (List.getElem?_eq_none_iff.mp ha)
    obtain ⟨a, c, hc⟩ := List.exists_cons_of_ne_nil hcur
    exact (pullsFrom_group_cons (p := { p with phase := .group }) h n rfl ⟨hs, hF, trivial⟩
      hc).of_rest_eq (by simp [rest, hp, hdrop]) rfl

/-- At the end, a pull hands out nothing and changes nothing. -/
theorem pullsFrom_done {F : ω} (n : Nat) {p : Intercalate τ α} (hp : p.phase = .done)
    (hv : Valid shape Inv F p) : PullsFrom shape Inv F p (pullUpTo n p) := by
  have hend := hv.2.2
  simp only [hp] at hend
  rw [pullUpTo_done hp]
  exact ⟨by simp [rest, hp], by simp [rest, hp], hv, fun _ ↦ hend⟩

/-- With no group open, opening the next group and reading it next in phase `ph` (the group
itself, or the separator before it) hands out what was left, when that is what `ph` makes of the
opened group and the later ones; with no group left, the intercalation ends. -/
theorem pullsFrom_open (h : Reads obs shape Inv) {F : ω} (n : Nat) {p : Intercalate τ α}
    (hs : Inv p.stream) (hc : (shape p.stream).cur = []) (hF : (shape p.stream).final = F)
    (ph : Phase) (hph : ph = .group ∨ ph = .separator 0)
    (hnil : (shape p.stream).groups = [] → rest shape p = [])
    (hcons : ∀ g gs (t : τ), (shape p.stream).groups = g :: gs → (shape t).cur = g →
      (shape t).groups = gs → rest shape { p with stream := t, phase := ph } = rest shape p) :
    PullsFrom shape Inv F p
      (pullUpTo (n + 2)
        { p with
          stream := (openNext p.stream).2
          phase := if (openNext p.stream).1.isSome then ph else .done }) := by
  obtain ⟨hfst, hshape, hinv⟩ := h.openNext_spec _ hs hc
  cases hx : (shape p.stream).next with
  | nil =>
    -- no group is left: the intercalation ends
    rw [Shape.openNext_of_nil hx] at hfst hshape
    have hgroups : (shape p.stream).groups = [] := by simp [Shape.groups, hx]
    simp only [hfst, Option.isSome_none, Bool.false_eq_true, if_false]
    rw [pullUpTo_done rfl]
    refine ⟨by rw [hnil hgroups]; rfl, by rw [hnil hgroups]; rfl,
      ⟨hinv, by simp [hshape, hF], by simp [hshape]⟩, fun _ ↦ hshape⟩
  | cons e gs =>
    -- the next group opens, and is read in phase `ph`
    obtain ⟨i, g, o⟩ := e
    obtain ⟨hx₁, hx₂, -, hx₄, hx₅⟩ := Shape.openNext_of_cons hx
    have hgroups : (shape p.stream).groups = g :: gs.map (·.2.1) := by simp [Shape.groups, hx]
    have hcur : (shape (openNext p.stream).2).cur = g := by rw [hshape, hx₂]
    have hnext : (shape (openNext p.stream).2).groups = gs.map (·.2.1) := by
      simp [Shape.groups, hshape, hx₄]
    have hg : g ≠ [] := (shape p.stream).next_ne_nil (i, g, o) (by simp [hx])
    have hF' : (shape (openNext p.stream).2).final = F := by rw [hshape, hx₅, hF]
    have hend : (shape (openNext p.stream).2).ended = (shape p.stream).ended :=
      Shape.ended_eq_of_final (by rw [hshape, hx₅])
    have hrest := hcons g _ _ hgroups hcur hnext
    simp only [hfst, hx₁, Option.isSome_some, if_true]
    rcases hph with rfl | rfl
    · obtain ⟨a, c, hac⟩ := List.exists_cons_of_ne_nil (hcur ▸ hg)
      exact (pullsFrom_group_cons h (n + 1) rfl ⟨hinv, hF', trivial⟩ hac).of_rest_eq hrest hend
    · exact (pullsFrom_separator h n rfl ⟨hinv, hF', hcur ▸ hg⟩).of_rest_eq hrest hend

/-- One pull, with room for three steps, hands out the head of what is left and leaves its tail;
when nothing is left it ends the stream. -/
theorem pullUpTo_spec (h : Reads obs shape Inv) {F : ω} {n : Nat} (hn : 3 ≤ n)
    {p : Intercalate τ α} (hv : Valid shape Inv F p) :
    PullsFrom shape Inv F p (pullUpTo n p) := by
  obtain ⟨m, rfl⟩ : ∃ m, n = m + 3 := ⟨n - 3, by omega⟩
  cases hp : p.phase with
  | start =>
    -- open the first group, which is read next
    obtain ⟨hs, hF, hc⟩ := hv
    simp only [hp] at hc
    rw [pullUpTo_start (m + 2) hp]
    refine pullsFrom_open h m hs hc hF .group (Or.inl rfl) (fun hgs ↦ by simp [rest, hp, hgs])
      (fun g gs t hgs hcur hnext ↦ ?_)
    simp [rest, hp, hgs, hcur, hnext, intercalate_cons]
  | group =>
    cases hc : (shape p.stream).cur with
    | cons a c => exact pullsFrom_group_cons h (m + 2) hp hv hc
    | nil =>
      -- the group is read: open the next one, which comes after a separator
      obtain ⟨hs, hF, -⟩ := hv
      obtain ⟨-, hd₂, hd₃⟩ := h.drawInGroup_spec _ hs
      rw [Shape.draw_cur_nil hc] at hd₂
      rw [pullUpTo_group_nil h (m + 2) hp hs hc]
      have hc' : (shape (drawInGroup p.stream).2).cur = [] := by rw [hd₂, hc]
      have hF' : (shape (drawInGroup p.stream).2).final = F := by rw [hd₂, hF]
      refine (pullsFrom_open (p := { p with stream := (drawInGroup p.stream).2 }) h m hd₃ hc' hF'
        (.separator 0) (Or.inr rfl) (fun hgs ↦ ?_) (fun g gs t hgs hcur hnext ↦ ?_)).of_rest_eq
          ?_ (by rw [hd₂])
      · simp [rest, hp, hgs, hc']
      · simp [rest, hp, hgs, hcur, hnext, hc']
      · simp [rest, hp, hd₂]
  | separator pos => exact pullsFrom_separator h (m + 1) hp hv
  | done => exact pullsFrom_done (m + 3) hp hv

/-- Groups each preceded by the separator are as long as the groups and one separator each. -/
theorem length_flatten_map_append (sep : List α) (gs : List (List α)) :
    (gs.map (sep ++ ·)).flatten.length = gs.length * sep.length + gs.flatten.length := by
  induction gs with
  | nil => simp
  | cons g gs ih =>
    simp only [List.map_cons, List.flatten_cons, List.length_append, ih, List.length_cons,
      Nat.succ_mul]
    omega

/-- What is left to hand out is within the supply: every element of the stream, one separator per
group, and the rest of the separator being handed out. -/
theorem length_rest_le (h : Reads obs shape Inv) {F : ω} {p : Intercalate τ α}
    (hv : Valid shape Inv F p) : (rest shape p).length ≤ Producer.supply p := by
  have hle := h.length_le_supply p.stream hv.1
  have hk := (shape p.stream).length_next_le
  have hgroups : (shape p.stream).groups.length = (shape p.stream).next.length := by
    simp [Shape.groups]
  -- one separator per group: no more than one per element of the stream
  have hsep : (shape p.stream).groups.length * p.separator.length ≤
      Grouped.supply p.stream * p.separator.length :=
    Nat.mul_le_mul_right _ (by omega)
  have hsupply : Producer.supply p =
      Grouped.supply p.stream * p.separator.length + Grouped.supply p.stream +
        p.separator.length + 1 +
        p.separator.length := by
    show (Grouped.supply p.stream + 1) * (p.separator.length + 1) + p.separator.length = _
    rw [Nat.add_mul, Nat.mul_add, Nat.mul_one, Nat.one_mul]
    omega
  rw [hsupply]
  unfold rest
  split
  · cases hgs : (shape p.stream).groups with
    | nil => simp
    | cons g gs =>
      rw [intercalate_cons, List.length_append, length_flatten_map_append]
      rw [hgs] at hsep hle
      simp only [List.flatten_cons, List.length_append, List.length_cons, Nat.succ_mul] at hsep hle
      omega
  · simp only [List.length_append, length_flatten_map_append]
    omega
  · simp only [List.length_append, length_flatten_map_append, List.length_drop]
    omega
  · simp

/-- An intercalation streams what is left, by phase. -/
theorem streams (h : Reads obs shape Inv) (F : ω) :
    Producer.Streams (π := Intercalate τ α) (rest shape) (Valid shape Inv F) where
  pull_fst p hp := (pullUpTo_spec h (by omega) hp).1
  pull_snd p hp := (pullUpTo_spec h (by omega) hp).2.1
  pull_inv p hp := (pullUpTo_spec h (by omega) hp).2.2.1
  length_le_supply _ hp := length_rest_le h hp

end Intercalate

namespace FoldGroups

variable {τ α ρ ω β : Type} [Grouped τ α ρ] {obs : τ → ω} {shape : τ → Grouped.Shape α ω}
  {Inv : τ → Prop}

open Grouped

/-- Folding at most `n` elements of the open group, for `n` more than it holds, folds the whole
group. -/
theorem foldGroupUpTo_spec (h : Reads obs shape Inv) (step : β → α → β) {n : Nat} (acc : β)
    {s : τ} (hs : Inv s) (hn : (shape s).cur.length < n) :
    (foldGroupUpTo step n acc s).1 = (shape s).cur.foldl step acc ∧
      shape (foldGroupUpTo step n acc s).2 = { shape s with cur := [] } ∧
      Inv (foldGroupUpTo step n acc s).2 := by
  induction n generalizing s acc with
  | zero => omega
  | succ n ih =>
    obtain ⟨hfst, hshape, hinv⟩ := h.drawInGroup_spec s hs
    unfold foldGroupUpTo
    cases hc : (shape s).cur with
    | nil =>
      rw [Shape.draw_cur_nil hc] at hfst hshape
      rcases hd : drawInGroup s with ⟨_ | a, s'⟩ <;> rw [hd] at hfst hshape hinv
      · exact ⟨rfl, by rw [hshape, Shape.with_cur_nil hc], hinv⟩
      · cases hfst
    | cons a c =>
      simp only [Shape.draw, hc, List.head?_cons, List.tail_cons] at hfst hshape
      rcases hd : drawInGroup s with ⟨_ | b, s'⟩ <;> rw [hd] at hfst hshape hinv
      · cases hfst
      · cases hfst
        have hlen : (shape s').cur.length < n := by
          simp only [hc, List.length_cons] at hn
          simpa [hshape] using hn
        obtain ⟨ih₁, ih₂, ih₃⟩ := ih (step acc a) hinv hlen
        refine ⟨by simp [ih₁, hshape], ?_, ih₃⟩
        simp only [ih₂, hshape]

variable (shape) in
/-- What a fold per group still hands out: the fold of each group to come. -/
def rest (f : FoldGroups τ β α) : List β :=
  (shape f.stream).groups.map (List.foldl f.step f.init)

variable (shape Inv) in
/-- Between groups, with the stream seeing `F` once no group is left. -/
def Valid (F : ω) (f : FoldGroups τ β α) : Prop :=
  Inv f.stream ∧ (shape f.stream).cur = [] ∧ (shape f.stream).final = F

/-- One pull folds the next group, or, with no group left, ends the stream. -/
theorem pull_spec (h : Reads obs shape Inv) {F : ω} {f : FoldGroups τ β α}
    (hv : Valid shape Inv F f) :
    (pull f).1 = (rest shape f).head? ∧ rest shape (pull f).2 = (rest shape f).tail ∧
      Valid shape Inv F (pull f).2 ∧
      (rest shape f = [] → shape (pull f).2.stream = (shape f.stream).ended) := by
  obtain ⟨hs, hc, hF⟩ := hv
  obtain ⟨hfst, hshape, hinv⟩ := h.openNext_spec _ hs hc
  unfold pull
  cases hx : (shape f.stream).next with
  | nil =>
    -- no group is left
    rw [Shape.openNext_of_nil hx] at hfst hshape
    have hrest : rest shape f = [] := by simp [rest, Shape.groups, hx]
    rcases ho : openNext f.stream with ⟨_ | i, s'⟩ <;> rw [ho] at hfst hshape hinv
    · exact ⟨by rw [hrest]; rfl, by rw [hrest]; simp [rest, hshape],
        ⟨hinv, by simp [hshape], by simp [hshape, hF]⟩, fun _ ↦ hshape⟩
    · cases hfst
  | cons e gs =>
    -- the next group opens and is folded to its end
    obtain ⟨i, g, o⟩ := e
    obtain ⟨hx₁, hx₂, -, hx₄, hx₅⟩ := Shape.openNext_of_cons hx
    rcases ho : openNext f.stream with ⟨_ | j, s'⟩ <;> rw [ho] at hfst hshape hinv
    · rw [hx₁] at hfst
      cases hfst
    · have hlen : (shape s').cur.length < supply s' + 1 := by
        have := h.length_le_supply s' hinv
        omega
      obtain ⟨h₁, h₂, h₃⟩ := foldGroupUpTo_spec h f.step f.init hinv hlen
      have hrest : rest shape f = g.foldl f.step f.init :: rest shape { f with stream := s' } := by
        simp [rest, Shape.groups, hx, hshape, hx₄]
      refine ⟨by simp [hrest, h₁, hshape, hx₂], ?_, ⟨h₃, by simp [h₂], by simp [h₂, hshape, hF]⟩,
        fun h' ↦ absurd h' (by simp [hrest])⟩
      rw [hrest]
      simp [rest, h₂]

/-- A fold per group streams the fold of each group to come. -/
theorem streams (h : Reads obs shape Inv) (F : ω) :
    Producer.Streams (π := FoldGroups τ β α) (rest shape) (Valid shape Inv F) where
  pull_fst _ hv := (pull_spec h hv).1
  pull_snd _ hv := (pull_spec h hv).2.1
  pull_inv _ hv := (pull_spec h hv).2.2.1
  length_le_supply f hv := by
    have hle := h.length_le_supply f.stream hv.1
    have hk := (shape f.stream).length_next_le
    have hgroups : (shape f.stream).groups.length = (shape f.stream).next.length := by
      simp [Shape.groups]
    show ((shape f.stream).groups.map _).length ≤ supply f.stream
    rw [List.length_map]
    omega

end FoldGroups

namespace Grouped.Reads

variable {τ α ρ ω : Type} [Grouped τ α ρ] {obs : τ → ω} {shape : τ → Grouped.Shape α ω}
  {Inv : τ → Prop}

/-- From a state with no group open, `concat` hands out the elements of every group in order, and
its result is the rest of the stream once it has answered that no group is left. -/
theorem concat_spec (h : Reads obs shape Inv) {s : τ} (hs : Inv s) (hc : (shape s).cur = []) :
    (Producer.collectAll (concat s)).1 = (shape s).groups.flatten ∧
      ∃ s', Inv s' ∧ shape s' = (shape s).ended ∧
        (Producer.collectAll (concat s)).2 = intoRest s' := by
  have hv : Rejoin.Valid shape Inv (shape s).final (concat s) := ⟨hs, fun _ ↦ hc, rfl⟩
  obtain ⟨h₁, q, hq, hnil, -, hfin⟩ := (Rejoin.streams h (shape s).final).collectAll_ends hv
  obtain ⟨-, -, hv', hend⟩ := Rejoin.pullUpTo_spec h (by omega : 2 ≤ supply q.stream + 2) hq
  refine ⟨by simpa [Rejoin.rest, concat, hc] using h₁, _, hv'.1, ?_, hfin⟩
  rw [hend hnil]
  exact Shape.ended_eq_of_final hq.2.2

/-- From a state with no group open, `intercalate sep` hands out the groups with `sep` between
consecutive ones, and its result is the rest of the stream once it has answered that no group is
left. -/
theorem intercalate_spec (h : Reads obs shape Inv) (sep : List α) {s : τ} (hs : Inv s)
    (hc : (shape s).cur = []) :
    (Producer.collectAll (intercalate sep s)).1 = sep.intercalate (shape s).groups ∧
      ∃ s', Inv s' ∧ shape s' = (shape s).ended ∧
        (Producer.collectAll (intercalate sep s)).2 = intoRest s' := by
  have hv : Intercalate.Valid shape Inv (shape s).final (intercalate sep s) := ⟨hs, rfl, hc⟩
  obtain ⟨h₁, q, hq, hnil, -, hfin⟩ := (Intercalate.streams h (shape s).final).collectAll_ends hv
  obtain ⟨-, -, hv', hend⟩ :=
    Intercalate.pullUpTo_spec h (by omega : 3 ≤ Intercalate.supply q + 4) hq
  refine ⟨h₁, _, hv'.1, ?_, hfin⟩
  rw [hend hnil]
  exact Shape.ended_eq_of_final hq.2.1

/-- From a state with no group open, `foldGroups init step` hands out the fold of each group from
`init`, and its result is the rest of the stream once it has answered that no group is left. -/
theorem foldGroups_spec {β : Type} (h : Reads obs shape Inv) (init : β) (step : β → α → β)
    {s : τ} (hs : Inv s) (hc : (shape s).cur = []) :
    (Producer.collectAll (foldGroups init step s)).1 = (shape s).groups.map (List.foldl step init) ∧
      ∃ s', Inv s' ∧ shape s' = (shape s).ended ∧
        (Producer.collectAll (foldGroups init step s)).2 = intoRest s' := by
  have hv : FoldGroups.Valid shape Inv (shape s).final (foldGroups init step s) := ⟨hs, hc, rfl⟩
  obtain ⟨h₁, q, hq, hnil, -, hfin⟩ := (FoldGroups.streams h (shape s).final).collectAll_ends hv
  obtain ⟨-, -, hv', hend⟩ := FoldGroups.pull_spec h hq
  refine ⟨h₁, _, hv'.1, ?_, hfin⟩
  rw [hend hnil]
  exact Shape.ended_eq_of_final hq.2.2

end Grouped.Reads

end Spool
