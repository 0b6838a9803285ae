import Mathlib.Data.List.Flatten
import Spool.Grouping.Window
import Spool.Proofs.Reading

/-!
# Windows read as windows of the groups to come

A window on a group stream that reads as a `Grouped.Shape` reads as the same window of that shape:
the first groups to come (`Grouped.Shape.take`), all but the first ones (`Grouped.Shape.drop`), or
those whose index is selected (`Grouped.Shape.filter`). The open group is the one underneath,
indices are those of the stream underneath, and what is seen between groups is what the stream
underneath sees then. Where the window ends is where it stops asking: a take that has delivered its
groups leaves the stream where the last of them left it, while a drop or a filter, which pass over
groups by reading them to their end, go on to the end of the stream underneath.

`TakeGroups.reads`, `DropGroups.reads`, `FilterGroups.reads` and `Borrow.reads` carry
`Grouped.Reads` from a stream to a window on it, so the specifications of the readers hold of
every chain of windows on a stream that reads as a shape.
-/

set_option autoImplicit false

namespace Spool

namespace Grouped.Shape

variable {α ω : Type}

/-- The first `m` groups to come. Once they are read the stream ends where the `m`-th of them
left it, or, with fewer groups to come, where the stream ends. -/
def take (m : Nat) (x : Shape α ω) : Shape α ω where
  cur := x.cur
  done := x.done
  next := x.next.take m
  final := ((x.done :: x.next.map (·.2.2))[m]?).getD x.final
  next_ne_nil e he := x.next_ne_nil e (List.mem_of_mem_take he)

/-- All but the first `n` groups to come. -/
def drop (n : Nat) (x : Shape α ω) : Shape α ω where
  cur := x.cur
  done := x.done
  next := x.next.drop n
  final := x.final
  next_ne_nil e he := x.next_ne_nil e (List.mem_of_mem_drop he)

/-- The groups to come whose index `select` accepts. -/
def filter (select : Nat → Bool) (x : Shape α ω) : Shape α ω where
  cur := x.cur
  done := x.done
  next := x.next.filter fun e ↦ select e.1
  final := x.final
  next_ne_nil e he := x.next_ne_nil e (List.mem_filter.mp he).1

/-- Opening a group depends only on the groups to come and on where the stream ends. -/
theorem openNext_congr {x y : Shape α ω} (hn : x.next = y.next) (hf : x.final = y.final) :
    x.openNext = y.openNext := by
  cases hx : x.next with
  | nil =>
    rw [openNext_of_nil hx, openNext_of_nil (hn.symm.trans hx), ended_eq_of_final hf]
  | cons e gs =>
    obtain ⟨i, g, o⟩ := e
    obtain ⟨hx₁, hx₂, hx₃, hx₄, hx₅⟩ := openNext_of_cons hx
    obtain ⟨hy₁, hy₂, hy₃, hy₄, hy₅⟩ := openNext_of_cons (hn.symm.trans hx)
    exact Prod.ext (hx₁.trans hy₁.symm) (Shape.ext (hx₂.trans hy₂.symm) (hx₃.trans hy₃.symm)
      (hx₄.trans hy₄.symm) (hx₅.trans (hf.trans hy₅.symm)))

@[simp] theorem take_ended (m : Nat) (x : Shape α ω) : x.ended.take m = x.ended :=
  Shape.ext rfl rfl List.take_nil (by cases m <;> rfl)

@[simp] theorem drop_ended (n : Nat) (x : Shape α ω) : x.ended.drop n = x.ended :=
  Shape.ext rfl rfl List.drop_nil rfl

@[simp] theorem filter_ended (select : Nat → Bool) (x : Shape α ω) :
    x.ended.filter select = x.ended :=
  Shape.ext rfl rfl rfl rfl

@[simp] theorem drop_zero (x : Shape α ω) : x.drop 0 = x :=
  Shape.ext rfl rfl List.drop_zero rfl

/-- A take with nothing left to deliver ends at once, where the stream stands. -/
theorem openNext_take_zero {x : Shape α ω} (hc : x.cur = []) :
    (x.take 0).openNext = (none, x.take 0) := by
  rw [openNext_of_nil (x := x.take 0) rfl]
  exact congrArg _ (Shape.ext hc.symm rfl rfl rfl)

/-- Opening under a take opens the next group to come, and leaves one fewer to take. -/
theorem openNext_take_succ (m : Nat) (x : Shape α ω) :
    (x.take (m + 1)).openNext = (x.openNext.1, x.openNext.2.take m) := by
  cases hx : x.next with
  | nil =>
    have hn : (x.take (m + 1)).next = [] := by simp [take, hx]
    rw [openNext_of_nil hn, openNext_of_nil hx, take_ended]
    exact congrArg _ (ended_eq_of_final (by simp [take, hx]))
  | cons e gs =>
    obtain ⟨i, g, o⟩ := e
    have hn : (x.take (m + 1)).next = (i, g, o) :: gs.take m := by simp [take, hx]
    obtain ⟨hx₁, hx₂, hx₃, hx₄, hx₅⟩ := openNext_of_cons hx
    obtain ⟨hy₁, hy₂, hy₃, hy₄, hy₅⟩ := openNext_of_cons hn
    refine Prod.ext (hy₁.trans hx₁.symm) (Shape.ext (hy₂.trans hx₂.symm) (hy₃.trans hx₃.symm)
      (hy₄.trans (congrArg (List.take m) hx₄.symm)) ?_)
    -- where the take ends: after the `m`-th group after the one opened
    rw [hy₅]
    show ((x.done :: x.next.map (·.2.2))[m + 1]?).getD x.final =
      ((x.openNext.2.done :: x.openNext.2.next.map (·.2.2))[m]?).getD x.openNext.2.final
    simp [hx, hx₃, hx₄]

/-- Opening a selected group under a filter opens it. -/
theorem openNext_filter_of_select {select : Nat → Bool} {x : Shape α ω} {i : Nat} {g : List α}
    {o : ω} {gs : List (Nat × List α × ω)} (hx : x.next = (i, g, o) :: gs)
    (hs : select i = true) : (x.filter select).openNext = (some i, x.openNext.2.filter select) := by
  have hn : (x.filter select).next = (i, g, o) :: gs.filter fun e ↦ select e.1 := by
    simp [filter, hx, hs]
  obtain ⟨-, hx₂, hx₃, hx₄, hx₅⟩ := openNext_of_cons hx
  obtain ⟨hy₁, hy₂, hy₃, hy₄, hy₅⟩ := openNext_of_cons hn
  exact Prod.ext hy₁ (Shape.ext (hy₂.trans hx₂.symm) (hy₃.trans hx₃.symm)
    (hy₄.trans (congrArg (List.filter _) hx₄.symm)) (hy₅.trans hx₅.symm))

end Grouped.Shape

namespace Grouped.Reads

variable {τ α ρ ω : Type} [Grouped τ α ρ] {obs : τ → ω} {shape : τ → Grouped.Shape α ω}
  {Inv : τ → Prop}

/-- The supply bounds the open group together with any sublist of the groups to come, as it
bounds them with all of them. -/
theorem length_le_supply_of_sublist (h : Reads obs shape Inv) {s : τ} (hs : Inv s)
    {l : List (Nat × List α × ω)} (hl : l.Sublist (shape s).next) :
    (shape s).cur.length + (l.map (·.2.1)).flatten.length ≤ supply s := by
  have hsub := ((hl.map (·.2.1)).flatten).length_le
  have hle := h.length_le_supply s hs
  exact Nat.le_trans (Nat.add_le_add_left hsub _) hle

end Grouped.Reads

namespace TakeGroups

variable {τ α ρ ω : Type} [Grouped τ α ρ] {obs : τ → ω} {shape : τ → Grouped.Shape α ω}
  {Inv : τ → Prop}

theorem drawInGroup_eq (t : TakeGroups τ) :
    Grouped.drawInGroup t = if t.active then
      ((Grouped.drawInGroup t.inner).1, { t with inner := (Grouped.drawInGroup t.inner).2 })
    else (none, t) :=
  rfl

theorem peekInGroup_eq (t : TakeGroups τ) :
    Grouped.peekInGroup t = if t.active then
      ((Grouped.peekInGroup t.inner).1, { t with inner := (Grouped.peekInGroup t.inner).2 })
    else (none, t) :=
  rfl

variable (shape Inv) in
/-- The stream underneath keeps its invariant, and has no group open unless a delivered group
is open. -/
def Valid (t : TakeGroups τ) : Prop :=
  Inv t.inner ∧ (t.active = false → (shape t.inner).cur = [])

/-- With nothing left to deliver, a take answers that no group is left, and asks nothing of the
stream underneath. -/
theorem openNext_of_zero {t : TakeGroups τ} (hm : t.remaining = 0) :
    Grouped.openNext t = (none, { t with active := false }) := by
  show openNext t = _
  unfold openNext
  rw [if_pos hm]

theorem openNext_of_succ_none {t : TakeGroups τ} {m : Nat} (hm : t.remaining = m + 1) {s' : τ}
    (ho : Grouped.openNext t.inner = (none, s')) :
    Grouped.openNext t = (none, { t with inner := s', active := false }) := by
  show openNext t = _
  unfold openNext
  rw [if_neg (by omega), ho]

theorem openNext_of_succ_some {t : TakeGroups τ} {m : Nat} (hm : t.remaining = m + 1)
    {i : Nat} {s' : τ} (ho : Grouped.openNext t.inner = (some i, s')) :
    Grouped.openNext t = (some i, { inner := s', remaining := m, active := true }) := by
  show openNext t = _
  unfold openNext
  rw [if_neg (by omega), ho, hm]
  rfl

/-- A take reads as the first `remaining` groups to come of the stream underneath. -/
theorem reads (h : Grouped.Reads obs shape Inv) :
    Grouped.Reads (fun t : TakeGroups τ ↦ obs t.inner)
      (fun t ↦ (shape t.inner).take t.remaining) (Valid shape Inv) where
  drawInGroup_spec t ht := by
    rw [drawInGroup_eq]
    split
    · rename_i ha
      obtain ⟨h₁, h₂, h₃⟩ := h.drawInGroup_spec t.inner ht.1
      refine ⟨h₁, ?_, h₃, fun hf ↦ Bool.noConfusion (ha.symm.trans hf)⟩
      show (shape (Grouped.drawInGroup t.inner).2).take t.remaining = _
      rw [h₂]
      rfl
    · -- no delivered group is open: the draw answers nothing, as the shape does
      rename_i ha
      have hc : ((shape t.inner).take t.remaining).cur = [] := ht.2 (by simpa using ha)
      rw [Grouped.Shape.draw_cur_nil hc]
      exact ⟨rfl, rfl, ht⟩
  openNext_spec t ht hc := by
    have hc' : (shape t.inner).cur = [] := hc
    cases hm : t.remaining with
    | zero =>
      rw [openNext_of_zero hm, Grouped.Shape.openNext_take_zero hc']
      exact ⟨rfl, by rw [hm], ht.1, fun _ ↦ hc'⟩
    | succ m =>
      obtain ⟨h₁, h₂, h₃⟩ := h.openNext_spec t.inner ht.1 hc'
      rw [Grouped.Shape.openNext_take_succ]
      rcases ho : Grouped.openNext t.inner with ⟨_ | i, s'⟩ <;> rw [ho] at h₁ h₂ h₃
      · -- the stream underneath has ended, and so has the take
        have hended : (shape t.inner).openNext.2 = (shape t.inner).ended := by
          rw [Grouped.Shape.openNext_of_nil (Grouped.Shape.next_eq_nil_of_openNext h₁.symm)]
        rw [openNext_of_succ_none hm ho]
        refine ⟨h₁, ?_, h₃, fun _ ↦ by rw [h₂, hended]; rfl⟩
        show (shape s').take t.remaining = _
        rw [h₂, hended, Grouped.Shape.take_ended, Grouped.Shape.take_ended]
      · rw [openNext_of_succ_some hm ho]
        exact ⟨h₁, by rw [h₂], h₃, fun hf ↦ Bool.noConfusion hf⟩
  obs_spec t ht hc := h.obs_spec t.inner ht.1 hc
  length_le_supply t ht := h.length_le_supply_of_sublist ht.1 (List.take_sublist _ _)

end TakeGroups

namespace DropGroups

variable {τ α ρ ω : Type} [Grouped τ α ρ] {obs : τ → ω} {shape : τ → Grouped.Shape α ω}
  {Inv : τ → Prop}

theorem skipThenOpen_zero {s s' : τ} {i : Option Nat} (ho : Grouped.openNext s = (i, s')) :
    skipThenOpen 0 s = (i, 0, s') := by
  simp only [skipThenOpen, ho]

theorem skipThenOpen_succ_none {n : Nat} {s s' : τ} (ho : Grouped.openNext s = (none, s')) :
    skipThenOpen (n + 1) s = (none, n + 1, s') := by
  simp only [skipThenOpen, ho]

theorem skipThenOpen_succ_some {n : Nat} {s s' : τ} {i : Nat}
    (ho : Grouped.openNext s = (some i, s')) :
    skipThenOpen (n + 1) s = skipThenOpen n (Grouped.drainGroup s') := by
  simp only [skipThenOpen, ho]

/-- Passing over `n` groups and opening the next opens the next group of the shape with its first
`n` groups dropped; if the stream ends first, the count left to pass over does not matter. -/
theorem skipThenOpen_spec (h : Grouped.Reads obs shape Inv) (n : Nat) {s : τ} (hs : Inv s)
    (hc : (shape s).cur = []) :
    (skipThenOpen n s).1 = ((shape s).drop n).openNext.1 ∧
      (shape (skipThenOpen n s).2.2).drop (skipThenOpen n s).2.1 =
        ((shape s).drop n).openNext.2 ∧
      Inv (skipThenOpen n s).2.2 := by
  induction n generalizing s with
  | zero =>
    obtain ⟨h₁, h₂, h₃⟩ := h.openNext_spec s hs hc
    rcases ho : Grouped.openNext s with ⟨i, s'⟩
    rw [ho] at h₁ h₂ h₃
    rw [skipThenOpen_zero ho, Grouped.Shape.drop_zero, Grouped.Shape.drop_zero]
    exact ⟨h₁, h₂, h₃⟩
  | succ n ih =>
    obtain ⟨h₁, h₂, h₃⟩ := h.openNext_spec s hs hc
    rcases ho : Grouped.openNext s with ⟨_ | j, s'⟩ <;> rw [ho] at h₁ h₂ h₃
    · -- the stream underneath ends before the count runs out
      have hx := Grouped.Shape.next_eq_nil_of_openNext h₁.symm
      rw [Grouped.Shape.openNext_of_nil hx] at h₂
      have hd : ((shape s).drop (n + 1)).next = [] := by simp [Grouped.Shape.drop, hx]
      rw [skipThenOpen_succ_none ho, Grouped.Shape.openNext_of_nil hd]
      refine ⟨rfl, ?_, h₃⟩
      show (shape s').drop (n + 1) = _
      rw [h₂, Grouped.Shape.drop_ended]
      exact Grouped.Shape.ended_eq_of_final rfl
    · -- the group passed over is drained, and one fewer is left to pass over
      obtain ⟨g, o, gs, hx⟩ := Grouped.Shape.next_eq_cons_of_openNext h₁.symm
      obtain ⟨-, -, -, hx₄, -⟩ := Grouped.Shape.openNext_of_cons hx
      obtain ⟨hd₁, hd₂⟩ := h.drainGroup_spec h₃
      have hsame : ((shape s).drop (n + 1)).openNext =
          ((shape (Grouped.drainGroup s')).drop n).openNext :=
        Grouped.Shape.openNext_congr (by simp [Grouped.Shape.drop, hd₁, h₂, hx, hx₄])
          (by simp [Grouped.Shape.drop, hd₁, h₂])
      rw [skipThenOpen_succ_some ho, hsame]
      exact ih hd₂ (by rw [hd₁])

/-- A drop reads as the groups to come of the stream underneath, but the first `skip`. -/
theorem reads (h : Grouped.Reads obs shape Inv) :
    Grouped.Reads (fun d : DropGroups τ ↦ obs d.inner) (fun d ↦ (shape d.inner).drop d.skip)
      (fun d ↦ Inv d.inner) where
  drawInGroup_spec d hd := by
    obtain ⟨h₁, h₂, h₃⟩ := h.drawInGroup_spec d.inner hd
    refine ⟨h₁, ?_, h₃⟩
    show (shape (Grouped.drawInGroup d.inner).2).drop d.skip = _
    rw [h₂]
    rfl
  openNext_spec d hd hc := skipThenOpen_spec h d.skip hd hc
  obs_spec d hd hc := h.obs_spec d.inner hd hc
  length_le_supply d hd := h.length_le_supply_of_sublist hd (List.drop_sublist _ _)

end DropGroups

namespace FilterGroups

variable {τ α ρ ω : Type} [Grouped τ α ρ] {obs : τ → ω} {shape : τ → Grouped.Shape α ω}
  {Inv : τ → Prop}

theorem openSelected_succ_none (select : Nat → Bool) {n : Nat} {s s' : τ}
    (ho : Grouped.openNext s = (none, s')) :
    openSelected select (n + 1) s = (none, s') := by
  simp only [openSelected, ho]

theorem openSelected_succ_some (select : Nat → Bool) {n : Nat} {s s' : τ} {i : Nat}
    (ho : Grouped.openNext s = (some i, s')) :
    openSelected select (n + 1) s =
      if select i then (some i, s') else openSelected select n (Grouped.drainGroup s') := by
  simp only [openSelected, ho]

/-- With more tries than groups to come, opening the selected groups opens the next group of the
shape cut down to the selected ones. -/
theorem openSelected_spec (h : Grouped.Reads obs shape Inv) (select : Nat → Bool) {n : Nat}
    {s : τ} (hs : Inv s) (hc : (shape s).cur = []) (hn : (shape s).next.length < n) :
    (openSelected select n s).1 = ((shape s).filter select).openNext.1 ∧
      (shape (openSelected select n s).2).filter select =
        ((shape s).filter select).openNext.2 ∧
      Inv (openSelected select n s).2 := by
  induction n generalizing s with
  | zero => omega
  | succ n ih =>
    obtain ⟨h₁, h₂, h₃⟩ := h.openNext_spec s hs hc
    rcases ho : Grouped.openNext s with ⟨_ | j, s'⟩ <;> rw [ho] at h₁ h₂ h₃
    · -- the stream underneath has ended
      have hx := Grouped.Shape.next_eq_nil_of_openNext h₁.symm
      rw [Grouped.Shape.openNext_of_nil hx] at h₂
      have hf : ((shape s).filter select).next = [] := by simp [Grouped.Shape.filter, hx]
      rw [openSelected_succ_none select ho, Grouped.Shape.openNext_of_nil hf]
      refine ⟨rfl, ?_, h₃⟩
      show (shape s').filter select = _
      rw [h₂, Grouped.Shape.filter_ended]
      exact Grouped.Shape.ended_eq_of_final rfl
    · obtain ⟨g, o, gs, hx⟩ := Grouped.Shape.next_eq_cons_of_openNext h₁.symm
      obtain ⟨-, -, -, hx₄, -⟩ := Grouped.Shape.openNext_of_cons hx
      rw [openSelected_succ_some select ho]
      split
      · rename_i hsel
        rw [Grouped.Shape.openNext_filter_of_select hx hsel]
        exact ⟨rfl, congrArg (Grouped.Shape.filter select) h₂, h₃⟩
      · -- not selected: the group is drained and the next one is tried
        rename_i hsel
        obtain ⟨hd₁, hd₂⟩ := h.drainGroup_spec h₃
        have hlen : (shape (Grouped.drainGroup s')).next.length < n := by
          simp only [hd₁, h₂, hx₄]
          simp only [hx, List.length_cons] at hn
          omega
        have hsame : ((shape s).filter select).openNext =
            ((shape (Grouped.drainGroup s')).filter select).openNext :=
          Grouped.Shape.openNext_congr (by simp [Grouped.Shape.filter, hd₁, h₂, hx, hx₄, hsel])
            (by simp [Grouped.Shape.filter, hd₁, h₂])
        rw [hsame]
        exact ih hd₂ (by rw [hd₁]) hlen

/-- A filter reads as the groups to come of the stream underneath whose index is selected. -/
theorem reads (h : Grouped.Reads obs shape Inv) :
    Grouped.Reads (fun f : FilterGroups τ ↦ obs f.inner)
      (fun f ↦ (shape f.inner).filter f.select) (fun f ↦ Inv f.inner) where
  drawInGroup_spec f hf := by
    obtain ⟨h₁, h₂, h₃⟩ := h.drawInGroup_spec f.inner hf
    refine ⟨h₁, ?_, h₃⟩
    show (shape (Grouped.drawInGroup f.inner).2).filter f.select = _
    rw [h₂]
    rfl
  openNext_spec f hf hc := by
    -- one try more than there are elements is one more than there are groups
    have hle := h.length_le_supply f.inner hf
    have hnext := (shape f.inner).length_next_le
    exact openSelected_spec h f.select hf hc (by omega)
  obs_spec f hf hc := h.obs_spec f.inner hf hc
  length_le_supply f hf := h.length_le_supply_of_sublist hf List.filter_sublist

end FilterGroups

namespace Borrow

variable {τ α ρ ω : Type} [Grouped τ α ρ] {obs : τ → ω} {shape : τ → Grouped.Shape α ω}
  {Inv : τ → Prop}

/-- A borrow reads as the borrowed stream. -/
theorem reads (h : Grouped.Reads obs shape Inv) :
    Grouped.Reads (fun b : Borrow τ ↦ obs b.stream) (fun b ↦ shape b.stream)
      (fun b ↦ Inv b.stream) where
  drawInGroup_spec b hb := h.drawInGroup_spec b.stream hb
  openNext_spec b hb hc := h.openNext_spec b.stream hb hc
  obs_spec b hb hc := h.obs_spec b.stream hb hc
  length_le_supply b hb := h.length_le_supply b.stream hb

end Borrow

end Spool
