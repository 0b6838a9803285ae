import Spool.Grouping.Groups
import Spool.Proofs.Partition
import Spool.Proofs.Reading

/-!
# Group streams over a context that reads as a list

`Groups` reads every group through one view. Opening a group restarts that view, resets its rule
and peeks; so, whatever was read before, the group that opens is what the reset rule admits of the
parent as it stands then (`openNext_spec`). This needs only that the view is backed and that its
rule resets to a start state `r₀` of the rule (`Groups.Sound`), which every operation keeps.

While a group is open, the stream's element operations are those of the view, so the open group
reads as the view's contents; with no group open, draws answer nothing. Read in this way the stream
is the list `r₀` cuts its parent into (`Groups.reads`): the open group is the view's contents, the
groups to come are those `r₀` cuts of what follows it in the parent, numbered on from `opened`, and
once no group is left every group has been opened and the parent is empty.
-/

set_option autoImplicit false

namespace Spool

namespace Groups

open GroupingRule

variable {γ β α : Type} [Context γ α] [GroupingRule β α] {toList : γ → List α} {I : γ → Prop}

variable (toList I) in
/-- The view is backed and the rule resets to `r₀`. -/
def Sound (r₀ : β) (g : Groups γ β) : Prop :=
  View.Backed toList I g.view ∧ reset (α := α) g.view.bound = r₀

omit [Context γ α] in
theorem sound_ofRule {s : γ} (hs : I s) (rule : β) :
    Sound toList I (reset (α := α) rule) (ofRule s rule) :=
  ⟨View.backed_ofBound hs rule, rfl⟩

/-- The view a group is read through, restarted with its rule reset, before the opening peek. -/
def reopened (g : Groups γ β) : View γ β :=
  { g.view.restart with bound := reset (α := α) g.view.bound }

theorem openNext_eq (g : Groups γ β) :
    openNext g =
      if (reopened (α := α) g).peek.1.isSome then
        (some g.opened,
          { g with view := (reopened (α := α) g).peek.2, opened := g.opened + 1, active := true })
      else (none, { g with view := (reopened (α := α) g).peek.2, active := false }) :=
  rfl

omit [Context γ α] in
/-- The reopened view reads as what the start state admits of the parent. -/
theorem contents_reopened {r₀ : β} {g : Groups γ β} (hg : reset (α := α) g.view.bound = r₀) :
    View.contents toList (reopened (α := α) g) = Boundary.span r₀ (toList g.view.parent) := by
  simp [reopened, View.contents, View.restart, hg]

/-- Opening a group: the answer is the next index exactly when the parent is not empty, the
stream stays sound, the parent is unchanged, and the group reads as what the start state admits of
the parent. -/
theorem openNext_spec (h : Context.Lifo toList I) {r₀ : β} (hr : Restarts α r₀)
    {g : Groups γ β} (hg : Sound toList I r₀ g) :
    (openNext g).1 = (if toList g.view.parent = [] then none else some g.opened) ∧
      Sound toList I r₀ (openNext g).2 ∧
      toList (openNext g).2.view.parent = toList g.view.parent ∧
      View.contents toList (openNext g).2.view = Boundary.span r₀ (toList g.view.parent) ∧
      (openNext g).2.active = !(toList g.view.parent).isEmpty ∧
      (openNext g).2.opened = (if toList g.view.parent = [] then g.opened else g.opened + 1) := by
  obtain ⟨hback, hreset⟩ := hg
  have hw : View.Backed toList I (reopened (α := α) g) :=
    View.backed_setBound (View.backed_restart hback) _
  have hwb : reset (α := α) (reopened (α := α) g).bound = r₀ := by
    show reset (α := α) (reset (α := α) g.view.bound) = r₀
    rw [hreset, hr.reset_start]
  obtain ⟨hp₁, hp₂, hp₃, hp₄⟩ := View.peek_spec h hw
  have hcont :
      View.contents toList (reopened (α := α) g) = Boundary.span r₀ (toList g.view.parent) :=
    contents_reopened hreset
  -- the peek shows the parent's head, since the start state admits it
  have hfirst : (reopened (α := α) g).peek.1 = (toList g.view.parent).head? := by
    rw [hp₁, hcont, hr.head?_span]
  -- every offer keeps the rule's reset, so the peeked view still resets to `r₀`
  have hb : reset (α := α) (reopened (α := α) g).peek.2.bound = r₀ :=
    View.bound_peek (Q := fun b ↦ reset (α := α) b = r₀) (fun b a hb ↦ hr.reset_offer b a hb) hwb
  rw [openNext_eq]
  cases hP : toList g.view.parent with
  | nil =>
    rw [hP] at hfirst hcont
    simp only [hfirst, if_true]
    exact ⟨rfl, ⟨hp₃, hb⟩, hp₄.trans hP, hp₂.trans hcont, rfl, rfl⟩
  | cons a l =>
    rw [hP] at hfirst hcont
    simp only [hfirst, reduceCtorEq, if_false]
    exact ⟨rfl, ⟨hp₃, hb⟩, hp₄.trans hP, hp₂.trans hcont, rfl, rfl⟩

section Reading

variable (toList) (r₀ : β)

/-- What follows the open group in the parent: what lies beyond the view while a group is open,
the whole parent otherwise. -/
def after (g : Groups γ β) : List α :=
  if g.active then View.beyond toList g.view else toList g.view.parent

/-- The stream read as lists: the open group is what the view reads as; the groups to come are
those `r₀` cuts of what follows it, numbered from `opened`; what is seen is how many groups are
opened and what the parent holds. -/
def shape (g : Groups γ β) : Grouped.Shape α (Nat × List α) where
  cur := if g.active then View.contents toList g.view else []
  done := (g.opened, after toList g)
  next := Boundary.groupsFrom r₀ g.opened (after toList g)
  final := (g.opened + (Boundary.partition r₀ (after toList g)).length, [])
  next_ne_nil _ he := Boundary.ne_nil_of_mem_groupsFrom he

/-- How many groups are opened, and what the parent holds. -/
def seen (g : Groups γ β) : Nat × List α :=
  (g.opened, toList g.view.parent)

omit [Context γ α] in
/-- The open group and what follows it make up the parent. -/
theorem cur_append_after (g : Groups γ β) :
    (shape toList r₀ g).cur ++ after toList g = toList g.view.parent := by
  show (if g.active then View.contents toList g.view else []) ++
    (if g.active then View.beyond toList g.view else toList g.view.parent) = _
  cases g.active
  · rfl
  · exact View.contents_append_beyond toList g.view

omit [Context γ α] in
theorem after_of_cur_nil {g : Groups γ β} (hc : (shape toList r₀ g).cur = []) :
    after toList g = toList g.view.parent := by
  have hsplit := cur_append_after toList r₀ g
  rwa [hc, List.nil_append] at hsplit

omit [Context γ α] in
/-- The groups to come are what follows the open group, cut up. -/
theorem flatten_groups {r₀ : β} (hr : Restarts α r₀) (g : Groups γ β) :
    (shape toList r₀ g).groups.flatten = after toList g := by
  simp [Grouped.Shape.groups, shape, hr.flatten_partition]

omit [Context γ α] in
/-- The open group and the groups to come make up the parent. -/
theorem cur_append_groups {r₀ : β} (hr : Restarts α r₀) (g : Groups γ β) :
    (shape toList r₀ g).cur ++ (shape toList r₀ g).groups.flatten = toList g.view.parent := by
  rw [flatten_groups toList hr, cur_append_after]

end Reading

theorem drawInGroup_of_active {g : Groups γ β} (ha : g.active = true) :
    Grouped.drawInGroup g = (g.view.draw.1, { g with view := g.view.draw.2 }) := by
  show drawInGroup g = _
  simp [drawInGroup, ha]

theorem drawInGroup_of_inactive {g : Groups γ β} (ha : g.active = false) :
    Grouped.drawInGroup g = (none, g) := by
  show drawInGroup g = _
  simp [drawInGroup, ha]

/-- A draw from the base stream reads the open group, and leaves what follows it in place. -/
theorem drawInGroup_spec (h : Context.Lifo toList I) {r₀ : β} (hr : Restarts α r₀)
    {g : Groups γ β} (hg : Sound toList I r₀ g) :
    (Grouped.drawInGroup g).1 = (shape toList r₀ g).draw.1 ∧
      shape toList r₀ (Grouped.drawInGroup g).2 = (shape toList r₀ g).draw.2 ∧
      Sound toList I r₀ (Grouped.drawInGroup g).2 := by
  cases ha : g.active with
  | false =>
    have hc : (shape toList r₀ g).cur = [] := by simp [shape, ha]
    rw [drawInGroup_of_inactive ha, Grouped.Shape.draw_cur_nil hc]
    exact ⟨rfl, rfl, hg⟩
  | true =>
    obtain ⟨hback, hreset⟩ := hg
    obtain ⟨hd₁, hd₂, hd₃, -⟩ := View.draw_spec h hback
    have hafter : after toList { view := g.view.draw.2, opened := g.opened, active := true } =
        after toList g := by
      simp [after, ha, View.beyond_draw h hback]
    rw [drawInGroup_of_active ha]
    refine ⟨by simp [shape, ha, hd₁], ?_, ⟨hd₃, ?_⟩⟩
    · refine Grouped.Shape.ext ?_ ?_ ?_ ?_ <;> simp [shape, ha, hd₂, hafter, Grouped.Shape.draw]
    · exact View.bound_draw (Q := fun b ↦ reset (α := α) b = r₀)
        (fun b a hb ↦ hr.reset_offer b a hb) hreset

/-- Opening a group once the open one is read opens the next group `r₀` cuts of the parent. -/
theorem openNext_shape (h : Context.Lifo toList I) {r₀ : β} (hr : Restarts α r₀)
    {g : Groups γ β} (hg : Sound toList I r₀ g) (hc : (shape toList r₀ g).cur = []) :
    (Grouped.openNext g).1 = (shape toList r₀ g).openNext.1 ∧
      shape toList r₀ (Grouped.openNext g).2 = (shape toList r₀ g).openNext.2 ∧
      Sound toList I r₀ (Grouped.openNext g).2 := by
  obtain ⟨ho₁, ho₂, ho₃, ho₄, ho₅, ho₆⟩ := openNext_spec h hr hg
  have hopen : Grouped.openNext g = openNext g := rfl
  rw [hopen]
  have hafter := after_of_cur_nil toList r₀ hc
  -- after opening, what follows the new group is what the parent holds beyond it
  have hafter' : after toList (openNext g).2 =
      (toList g.view.parent).drop (Boundary.span r₀ (toList g.view.parent)).length := by
    cases hP : toList g.view.parent with
    | nil => simp [after, ho₅, hP, ho₃]
    | cons a l =>
      simp only [after, ho₅, hP, List.isEmpty_cons, Bool.not_false, if_true]
      rw [View.beyond_eq_drop, ho₄, ho₃, hP]
  refine ⟨?_, ?_, ho₂⟩
  · cases hP : toList g.view.parent with
    | nil =>
      have hx : (shape toList r₀ g).next = [] := by
        simp [shape, hafter, hP]
      rw [Grouped.Shape.openNext_of_nil hx]
      simpa [hP] using ho₁
    | cons a l =>
      have hne := hr.span_ne_nil (List.cons_ne_nil a l)
      rw [← hP] at hne
      have hx : (shape toList r₀ g).next =
          (g.opened, Boundary.span r₀ (toList g.view.parent),
            (g.opened + 1,
              (toList g.view.parent).drop (Boundary.span r₀ (toList g.view.parent)).length)) ::
            Boundary.groupsFrom r₀ (g.opened + 1)
              ((toList g.view.parent).drop (Boundary.span r₀ (toList g.view.parent)).length) := by
        simp only [shape, hafter]
        exact Boundary.groupsFrom_of_span_ne_nil hne
      rw [(Grouped.Shape.openNext_of_cons hx).1]
      simpa [hP] using ho₁
  · cases hP : toList g.view.parent with
    | nil =>
      have hx : (shape toList r₀ g).next = [] := by
        simp [shape, hafter, hP]
      rw [Grouped.Shape.openNext_of_nil hx]
      refine Grouped.Shape.ext ?_ ?_ ?_ ?_ <;>
        simp [shape, ho₅, ho₆, hP, hafter, hafter', Grouped.Shape.ended]
    | cons a l =>
      have hne := hr.span_ne_nil (List.cons_ne_nil a l)
      rw [← hP] at hne
      have hx : (shape toList r₀ g).next =
          (g.opened, Boundary.span r₀ (toList g.view.parent),
            (g.opened + 1,
              (toList g.view.parent).drop (Boundary.span r₀ (toList g.view.parent)).length)) ::
            Boundary.groupsFrom r₀ (g.opened + 1)
              ((toList g.view.parent).drop (Boundary.span r₀ (toList g.view.parent)).length) := by
        simp only [shape, hafter]
        exact Boundary.groupsFrom_of_span_ne_nil hne
      obtain ⟨-, hx₂, hx₃, hx₄, hx₅⟩ := Grouped.Shape.openNext_of_cons hx
      refine Grouped.Shape.ext ?_ ?_ ?_ ?_
      · rw [hx₂]
        simp [shape, ho₅, hP, ho₄]
      · rw [hx₃]
        simp [shape, ho₆, hP, hafter']
      · rw [hx₄]
        simp [shape, ho₆, hP, hafter']
      · rw [hx₅]
        have hne' : Boundary.span r₀ (a :: l) ≠ [] := hr.span_ne_nil (List.cons_ne_nil a l)
        simp only [shape, ho₆, hP, hafter', hafter, Boundary.partition_of_span_ne_nil hne',
          List.length_cons, reduceCtorEq, if_false, Prod.mk.injEq, and_true]
        omega

/-- The base stream reads as the groups `r₀` cuts of its parent. -/
theorem reads (h : Context.Lifo toList I) {r₀ : β} (hr : Restarts α r₀) :
    Grouped.Reads (seen toList) (shape toList r₀) (Sound toList I r₀) where
  drawInGroup_spec _ hg := drawInGroup_spec h hr hg
  openNext_spec _ hg hc := openNext_shape h hr hg hc
  obs_spec g _ hc := by simp [seen, shape, after_of_cur_nil toList r₀ hc]
  length_le_supply g hg := by
    rw [← List.length_append, cur_append_groups toList hr]
    exact h.length_le_supply g.view.parent hg.1.1

/-- A reading that goes to the end from `g` leaves every group the rule cuts of what follows the
open group opened, and the parent empty. -/
theorem seen_of_ended (h : Context.Lifo toList I) {r₀ : β} (hr : Restarts α r₀) {g g' : Groups γ β}
    (hg' : Sound toList I r₀ g') (he : shape toList r₀ g' = (shape toList r₀ g).ended) :
    g'.opened = g.opened + (Boundary.partition r₀ (after toList g)).length ∧
      toList g'.view.parent = [] := by
  have hseen := (reads h hr).obs_spec g' hg' (by rw [he]; rfl)
  rw [he] at hseen
  simpa only [seen, Grouped.Shape.ended_done, shape, Prod.mk.injEq] using hseen

end Groups

end Spool
