import Mathlib.Data.List.SplitBy
import Spool.Grouping.Rule
import Spool.Proofs.View

/-!
# What the grouping rules admit

A group stream resets its rule when it opens a group, so every group is read from the rule's
reset state. `GroupingRule.Restarts r₀` collects what the stream relies on of that state: `r₀` is
its own reset, the reset of any state reached from `r₀` by offers is `r₀` again, and from `r₀` the
first element offered is admitted. The four rule types satisfy it: `runs_by`, `runs_by_adjacent`
and `partitions` from their empty state, and `chunks_of n` because its size is at least one.

The rest of the module computes what each rule admits, as `Boundary.span`:

* `RunsBy`: the first element, then the elements related to it (`List.takeWhile`);
* `Partitions`: the first element, then the elements on which the condition answers alike;
* `Chunks`: the first `size` elements;
* `AdjacentBy`: the first element, then elements each related to the one before; the element that
  ends the group is not related to the last one admitted.
-/

set_option autoImplicit false

namespace Spool

namespace GroupingRule

variable {β α : Type} [GroupingRule β α]

variable (α) in
/-- `r₀` is the state every group starts from: it is its own reset, resetting any state reached
from it by offers gives `r₀` back, and from `r₀` the first element offered is admitted. -/
structure Restarts (r₀ : β) : Prop where
  reset_start : reset (α := α) r₀ = r₀
  reset_offer : ∀ (b : β) (a : α), reset (α := α) b = r₀ →
    reset (α := α) (Boundary.offer b a).2 = r₀
  isOpen_start : Boundary.isOpen (α := α) r₀ = true
  admit_start : ∀ a : α, (Boundary.offer r₀ a).1 = true

/-- From a start state the first element is always admitted. -/
theorem Restarts.span_cons {r₀ : β} (h : Restarts α r₀) (a : α) (l : List α) :
    Boundary.span r₀ (a :: l) = a :: Boundary.span (Boundary.offer r₀ a).2 l := by
  have hadmit := h.admit_start a
  rcases hoff : Boundary.offer r₀ a with ⟨_ | _, b⟩ <;> rw [hoff] at hadmit
  · cases hadmit
  · exact Boundary.span_cons_of_admit h.isOpen_start hoff l

theorem Restarts.span_ne_nil {r₀ : β} (h : Restarts α r₀) {l : List α} (hl : l ≠ []) :
    Boundary.span r₀ l ≠ [] := by
  obtain ⟨a, l, rfl⟩ := List.exists_cons_of_ne_nil hl
  simp [h.span_cons]

end GroupingRule

open GroupingRule

namespace RunsBy

variable {α : Type}

@[simp] theorem offer_first (x : α) (same : α → α → Bool) (a : α) :
    Boundary.offer ({ first := some x, same := same } : RunsBy α) a =
      (same x a, { first := some x, same := same }) :=
  rfl

@[simp] theorem offer_start (same : α → α → Bool) (a : α) :
    Boundary.offer ({ same := same } : RunsBy α) a = (true, { first := some a, same := same }) :=
  rfl

theorem reset_offer (r : RunsBy α) (a : α) :
    reset (α := α) (Boundary.offer r a).2 = reset (α := α) r := by
  rcases r with ⟨_ | x, same⟩ <;> rfl

/-- Runs start from the rule with no first element. -/
theorem restarts (same : α → α → Bool) : Restarts α ({ same := same } : RunsBy α) where
  reset_start := rfl
  reset_offer b a hb := (reset_offer b a).trans hb
  isOpen_start := rfl
  admit_start _ := rfl

/-- Once the first element is known, a run admits the elements related to it. -/
theorem span_first (x : α) (same : α → α → Bool) (l : List α) :
    Boundary.span ({ first := some x, same := same } : RunsBy α) l = l.takeWhile (same x) := by
  induction l with
  | nil => rfl
  | cons a l ih =>
    cases hxa : same x a with
    | false =>
      have hoff : Boundary.offer ({ first := some x, same := same } : RunsBy α) a =
          (false, { first := some x, same := same }) := by
        simp [hxa]
      simpa [hxa] using Boundary.span_cons_of_refuse hoff l
    | true =>
      have hoff : Boundary.offer ({ first := some x, same := same } : RunsBy α) a =
          (true, { first := some x, same := same }) := by
        simp [hxa]
      rw [Boundary.span_cons_of_admit rfl hoff l, ih]
      simp [hxa]

/-- A run is its first element followed by the elements related to it. -/
theorem span_start (same : α → α → Bool) (a : α) (l : List α) :
    Boundary.span ({ same := same } : RunsBy α) (a :: l) = a :: l.takeWhile (same a) := by
  rw [(restarts same).span_cons, offer_start, span_first]

end RunsBy

namespace Partitions

variable {α : Type}

@[simp] theorem offer_side (side : Bool) (holds : α → Bool) (a : α) :
    Boundary.offer ({ side := some side, holds := holds } : Partitions α) a =
      (side == holds a, { side := some side, holds := holds }) :=
  rfl

@[simp] theorem offer_start (holds : α → Bool) (a : α) :
    Boundary.offer ({ holds := holds } : Partitions α) a =
      (true, { side := some (holds a), holds := holds }) :=
  rfl

theorem reset_offer (r : Partitions α) (a : α) :
    reset (α := α) (Boundary.offer r a).2 = reset (α := α) r := by
  rcases r with ⟨_ | x, holds⟩ <;> rfl

/-- Partitions start from the rule that has not answered yet. -/
theorem restarts (holds : α → Bool) : Restarts α ({ holds := holds } : Partitions α) where
  reset_start := rfl
  reset_offer b a hb := (reset_offer b a).trans hb
  isOpen_start := rfl
  admit_start _ := rfl

/-- Once the first answer is known, a partition admits the elements with the same answer. -/
theorem span_side (side : Bool) (holds : α → Bool) (l : List α) :
    Boundary.span ({ side := some side, holds := holds } : Partitions α) l =
      l.takeWhile (fun b ↦ side == holds b) := by
  induction l with
  | nil => rfl
  | cons a l ih =>
    cases hxa : side == holds a with
    | false =>
      have hoff : Boundary.offer ({ side := some side, holds := holds } : Partitions α) a =
          (false, { side := some side, holds := holds }) := by
        simp [hxa]
      simpa [hxa] using Boundary.span_cons_of_refuse hoff l
    | true =>
      have hoff : Boundary.offer ({ side := some side, holds := holds } : Partitions α) a =
          (true, { side := some side, holds := holds }) := by
        simp [hxa]
      rw [Boundary.span_cons_of_admit rfl hoff l, ih]
      simp [hxa]

/-- A partition is its first element followed by the elements on which the condition answers as
it does on the first. -/
theorem span_start (holds : α → Bool) (a : α) (l : List α) :
    Boundary.span ({ holds := holds } : Partitions α) (a :: l) =
      a :: l.takeWhile (fun b ↦ holds a == holds b) := by
  rw [(restarts holds).span_cons, offer_start, span_side]

end Partitions

namespace Chunks

variable {α : Type}

theorem offer_eq (r : Chunks) (a : α) :
    Boundary.offer r a = if r.left = 0 then (false, r) else (true, { r with left := r.left - 1 }) :=
  rfl

theorem reset_offer (r : Chunks) (a : α) :
    reset (α := α) (Boundary.offer r a).2 = reset (α := α) r := by
  rw [offer_eq]
  split <;> rfl

/-- `chunks_of n` starts every group with room for `max n 1` elements. -/
theorem restarts (n : Nat) : Restarts α (ofSize n) where
  reset_start := rfl
  reset_offer b a hb := (reset_offer b a).trans hb
  isOpen_start := by
    show decide (0 < max n 1) = true
    simp only [decide_eq_true_eq]
    omega
  admit_start a := by
    rw [offer_eq]
    simp [ofSize]

/-- A chunk with room for `left` more elements admits the first `left` elements. -/
theorem span_left (size left : Nat) (l : List α) :
    Boundary.span ({ size := size, left := left } : Chunks) l = l.take left := by
  induction l generalizing left with
  | nil => simp
  | cons a l ih =>
    cases left with
    | zero => exact Boundary.span_cons_of_not_isOpen rfl a l
    | succ k =>
      have hoff : Boundary.offer ({ size := size, left := k + 1 } : Chunks) a =
          (true, { size := size, left := k }) := by
        rw [offer_eq]
        simp
      rw [Boundary.span_cons_of_admit rfl hoff, ih]
      simp

/-- A chunk of `chunks_of n` is the first `max n 1` elements. -/
theorem span_ofSize (n : Nat) (l : List α) :
    Boundary.span (ofSize n) l = l.take (max n 1) :=
  span_left _ _ l

end Chunks

namespace AdjacentBy

variable {α : Type}

@[simp] theorem offer_previous (x : α) (same : α → α → Bool) (a : α) :
    Boundary.offer ({ previous := some x, same := same } : AdjacentBy α) a =
      (same x a, if same x a then { previous := some a, same := same }
        else { previous := some x, same := same }) :=
  rfl

@[simp] theorem offer_start (same : α → α → Bool) (a : α) :
    Boundary.offer ({ same := same } : AdjacentBy α) a =
      (true, { previous := some a, same := same }) :=
  rfl

theorem reset_offer (r : AdjacentBy α) (a : α) :
    reset (α := α) (Boundary.offer r a).2 = reset (α := α) r := by
  rcases r with ⟨_ | x, same⟩
  · rfl
  · show reset (α := α) (if same x a then _ else _) = _
    split <;> rfl

/-- Adjacent runs start from the rule with no previous element. -/
theorem restarts (same : α → α → Bool) : Restarts α ({ same := same } : AdjacentBy α) where
  reset_start := rfl
  reset_offer b a hb := (reset_offer b a).trans hb
  isOpen_start := rfl
  admit_start _ := rfl

theorem span_previous_cons (x : α) (same : α → α → Bool) (a : α) (l : List α) :
    Boundary.span ({ previous := some x, same := same } : AdjacentBy α) (a :: l) =
      if same x a then a :: Boundary.span ({ previous := some a, same := same } : AdjacentBy α) l
      else [] := by
  cases hxa : same x a with
  | false =>
    have hoff : Boundary.offer ({ previous := some x, same := same } : AdjacentBy α) a =
        (false, { previous := some x, same := same }) := by
      simp [hxa]
    simpa using Boundary.span_cons_of_refuse hoff l
  | true =>
    have hoff : Boundary.offer ({ previous := some x, same := same } : AdjacentBy α) a =
        (true, { previous := some a, same := same }) := by
      simp [hxa]
    simpa using Boundary.span_cons_of_admit rfl hoff l

/-- After `x`, an adjacent run admits elements each related to the one before it, and the element
that ends it, if any, is not related to the last one admitted. -/
theorem span_previous_chain (x : α) (same : α → α → Bool) (l : List α) :
    (x :: Boundary.span ({ previous := some x, same := same } : AdjacentBy α) l).IsChain
        (fun a b ↦ same a b = true) ∧
      ∀ c ∈ (l.drop
        (Boundary.span ({ previous := some x, same := same } : AdjacentBy α) l).length).head?,
        same ((x :: Boundary.span ({ previous := some x, same := same } : AdjacentBy α) l).getLast
          (List.cons_ne_nil _ _)) c = false := by
  induction l generalizing x with
  | nil => simp
  | cons a l ih =>
    rw [span_previous_cons]
    cases hxa : same x a with
    | false => simp [hxa]
    | true =>
      obtain ⟨hchain, hend⟩ := ih a
      refine ⟨List.isChain_cons_cons.mpr ⟨hxa, hchain⟩, ?_⟩
      simpa [List.getLast_cons] using hend

end AdjacentBy

end Spool
