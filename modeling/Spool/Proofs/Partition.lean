import Mathlib.Data.List.TakeWhile
import Spool.Proofs.Rule

/-!
# Cutting a list into groups

`Boundary.partition r₀ l` is what a group stream makes of a list when every group is read from
the rule state `r₀`: the first group is what `r₀` admits of the list, and the other groups are the
groups of the rest. A rule that admits nothing of a nonempty rest ends the groups there; the rules
of the library never do (`GroupingRule.Restarts`), so for them the groups are nonempty and join
to the whole list (`flatten_partition`).

`forall_isChain_partition` turns a fact about one group, and a fact about a group and the one
after it, into facts about the whole partition. From it come the laws of each rule:

* `runs_by R`: each group is its first element followed by elements related to it, and the first
  element of the next group is not; for `runs`, runs are uniform and neighbouring runs differ;
* `runs_by_adjacent R`: neighbours inside a group are related, the last element of a group and the
  first of the next are not; so the groups are `List.splitBy R`, the maximal chains of related
  neighbours;
* `partitions P`: `P` is constant on each group and changes between neighbouring groups;
* `chunks_of n`: every group but the last has `max n 1` elements, and the last at most that many.
-/

set_option autoImplicit false

namespace Spool

namespace Boundary

variable {β α : Type} [Boundary β α]

/-- The groups `r₀` cuts `l` into: what `r₀` admits of `l`, then the groups of the rest, up to a
rest of which `r₀` admits nothing. -/
def partition (r₀ : β) (l : List α) : List (List α) :=
  if _h : span r₀ l = [] then []
  else span r₀ l :: partition r₀ (l.drop (span r₀ l).length)
termination_by l.length
decreasing_by
  have hpos := List.length_pos_of_ne_nil _h
  have hle := length_span_le r₀ l
  simp only [List.length_drop]
  omega

theorem partition_of_span_eq_nil {r₀ : β} {l : List α} (h : span r₀ l = []) :
    partition r₀ l = [] := by
  rw [partition, dif_pos h]

theorem partition_of_span_ne_nil {r₀ : β} {l : List α} (h : span r₀ l ≠ []) :
    partition r₀ l = span r₀ l :: partition r₀ (l.drop (span r₀ l).length) := by
  rw [partition, dif_neg h]

/-- What follows a prefix is what dropping its length leaves. -/
theorem drop_length_of_append_eq {l s t : List α} (h : s ++ t = l) : l.drop s.length = t := by
  subst h
  exact List.drop_left

@[simp] theorem partition_nil (r₀ : β) : partition r₀ ([] : List α) = [] :=
  partition_of_span_eq_nil rfl

/-- No group is empty. -/
theorem ne_nil_of_mem_partition {r₀ : β} {l : List α} {g : List α} (hg : g ∈ partition r₀ l) :
    g ≠ [] := by
  fun_induction partition r₀ l with
  | case1 l h => simp at hg
  | case2 l h ih =>
    rcases List.mem_cons.mp hg with rfl | hg
    · exact h
    · exact ih hg

/-- The groups after the `i`-th hold nothing exactly when there are none. -/
theorem flatten_drop_partition_eq_nil_iff (r₀ : β) (l : List α) (i : Nat) :
    ((partition r₀ l).drop i).flatten = [] ↔ (partition r₀ l).length ≤ i := by
  rw [List.flatten_eq_nil_iff, ← List.drop_eq_nil_iff, List.eq_nil_iff_forall_not_mem]
  exact forall_congr' fun g ↦
    ⟨fun h hg ↦ ne_nil_of_mem_partition (List.mem_of_mem_drop hg) (h hg), fun h hg ↦ absurd hg h⟩

/-- The groups join to a prefix of the list. -/
theorem flatten_partition_prefix (r₀ : β) (l : List α) : (partition r₀ l).flatten <+: l := by
  fun_induction partition r₀ l with
  | case1 l h => exact List.nil_prefix
  | case2 l h ih =>
    obtain ⟨t, ht⟩ := isPrefix_span r₀ l
    obtain ⟨u, hu⟩ := ih
    refine ⟨u, ?_⟩
    rw [List.flatten_cons, List.append_assoc, hu, drop_length_of_append_eq ht, ht]

theorem length_partition_le (r₀ : β) (l : List α) : (partition r₀ l).length ≤ l.length := by
  fun_induction partition r₀ l with
  | case1 l h => simp
  | case2 l h ih =>
    have hpos := List.length_pos_of_ne_nil h
    have hle := length_span_le r₀ l
    simp only [List.length_cons, List.length_drop] at ih ⊢
    omega

/-- A fact about every group and a relation between every group and the next one hold of the
whole partition, when the first holds of what `r₀` admits of any list and the second of what it
admits of a list and of the rest after that. -/
theorem forall_isChain_partition {r₀ : β} {P : List α → Prop} {Q : List α → List α → Prop}
    (hP : ∀ l, span r₀ l ≠ [] → P (span r₀ l))
    (hQ : ∀ l, span r₀ l ≠ [] → span r₀ (l.drop (span r₀ l).length) ≠ [] →
      Q (span r₀ l) (span r₀ (l.drop (span r₀ l).length)))
    (l : List α) : (∀ g ∈ partition r₀ l, P g) ∧ (partition r₀ l).IsChain Q := by
  fun_induction partition r₀ l with
  | case1 l h => simp
  | case2 l h ih =>
    obtain ⟨ihP, ihQ⟩ := ih
    refine ⟨?_, ?_⟩
    · intro g hg
      rcases List.mem_cons.mp hg with rfl | hg
      · exact hP l h
      · exact ihP g hg
    · by_cases hnext : span r₀ (l.drop (span r₀ l).length) = []
      · rw [partition_of_span_eq_nil hnext]
        exact List.isChain_singleton _
      · rw [partition_of_span_ne_nil hnext] at ihQ ⊢
        exact List.IsChain.cons_cons (hQ l h hnext) ihQ

/-- The groups `r₀` cuts `l` into, numbered from `o`, each with what is seen once it is read: the
number of groups then opened, and what is left of `l`. -/
def groupsFrom (r₀ : β) (o : Nat) (l : List α) : List (Nat × List α × (Nat × List α)) :=
  if _h : span r₀ l = [] then []
  else (o, span r₀ l, (o + 1, l.drop (span r₀ l).length)) ::
    groupsFrom r₀ (o + 1) (l.drop (span r₀ l).length)
termination_by l.length
decreasing_by
  have hpos := List.length_pos_of_ne_nil _h
  have hle := length_span_le r₀ l
  simp only [List.length_drop]
  omega

theorem groupsFrom_of_span_eq_nil {r₀ : β} {o : Nat} {l : List α} (h : span r₀ l = []) :
    groupsFrom r₀ o l = [] := by
  rw [groupsFrom, dif_pos h]

theorem groupsFrom_of_span_ne_nil {r₀ : β} {o : Nat} {l : List α} (h : span r₀ l ≠ []) :
    groupsFrom r₀ o l = (o, span r₀ l, (o + 1, l.drop (span r₀ l).length)) ::
      groupsFrom r₀ (o + 1) (l.drop (span r₀ l).length) := by
  rw [groupsFrom, dif_neg h]

@[simp] theorem groupsFrom_nil (r₀ : β) (o : Nat) : groupsFrom r₀ o ([] : List α) = [] :=
  groupsFrom_of_span_eq_nil rfl

/-- Without their numbers and what is seen after them, the groups are the partition. -/
@[simp] theorem map_groupsFrom (r₀ : β) (o : Nat) (l : List α) :
    (groupsFrom r₀ o l).map (·.2.1) = partition r₀ l := by
  fun_induction groupsFrom r₀ o l with
  | case1 o l h => simp [partition_of_span_eq_nil h]
  | case2 o l h ih => simp [partition_of_span_ne_nil h, ih]

/-- The groups are numbered in order from `o`. -/
theorem indexed_groupsFrom (r₀ : β) (o : Nat) (l : List α) :
    (groupsFrom r₀ o l).map (fun e ↦ (e.2.1, e.1)) = (partition r₀ l).zipIdx o := by
  fun_induction groupsFrom r₀ o l with
  | case1 o l h => simp [partition_of_span_eq_nil h]
  | case2 o l h ih => simp [partition_of_span_ne_nil h, ih]

theorem ne_nil_of_mem_groupsFrom {r₀ : β} {o : Nat} {l : List α}
    {e : Nat × List α × (Nat × List α)} (he : e ∈ groupsFrom r₀ o l) : e.2.1 ≠ [] :=
  ne_nil_of_mem_partition (by rw [← map_groupsFrom r₀ o l]; exact List.mem_map_of_mem he)

end Boundary

namespace GroupingRule

open Boundary

variable {β α : Type} [GroupingRule β α]

/-- With a rule that admits the first element of every group, the groups join to the whole
list. -/
theorem Restarts.flatten_partition {r₀ : β} (h : Restarts α r₀) (l : List α) :
    (partition r₀ l).flatten = l := by
  fun_induction partition r₀ l with
  | case1 l hs =>
    cases l with
    | nil => rfl
    | cons a l => exact absurd hs (h.span_ne_nil (List.cons_ne_nil a l))
  | case2 l hs ih =>
    obtain ⟨t, ht⟩ := isPrefix_span r₀ l
    rw [List.flatten_cons, ih, drop_length_of_append_eq ht, ht]

/-- The next group starts with the element after the previous one. -/
theorem Restarts.head?_span {r₀ : β} (h : Restarts α r₀) (l : List α) :
    (span r₀ l).head? = l.head? := by
  cases l with
  | nil => rfl
  | cons a l => simp [h.span_cons]

/-- With a rule that admits the first element of every group, what is seen once a group is read
is how many groups are then opened and the groups after it, joined. -/
theorem Restarts.groupsFrom_eq {r₀ : β} (h : Restarts α r₀) (o : Nat) (l : List α) :
    groupsFrom r₀ o l = ((partition r₀ l).zipIdx o).map fun g ↦
      (g.2, g.1, (g.2 + 1, ((partition r₀ l).drop (g.2 + 1 - o)).flatten)) := by
  fun_induction groupsFrom r₀ o l with
  | case1 o l hs => simp [partition_of_span_eq_nil hs]
  | case2 o l hs ih =>
    rw [partition_of_span_ne_nil hs, List.zipIdx_cons, List.map_cons, ih]
    -- the first group leaves the rest of the list, which its successors join back to
    have hhead :
        ((span r₀ l :: partition r₀ (l.drop (span r₀ l).length)).drop (o + 1 - o)).flatten =
          l.drop (span r₀ l).length := by
      rw [Nat.add_sub_cancel_left, List.drop_one, List.tail_cons, h.flatten_partition]
    dsimp only
    rw [hhead]
    congr 1
    -- every later group has an index past `o`, so one group less is dropped from the rest
    refine List.map_congr_left fun g hg ↦ ?_
    obtain ⟨x, i⟩ := g
    have hi := (List.mem_zipIdx hg).1
    have hdrop : i + 1 - o = (i + 1 - (o + 1)) + 1 := by omega
    simp only [hdrop, List.drop_succ_cons]

end GroupingRule

open Boundary GroupingRule

/-- What follows the elements a condition takes is what it drops. -/
theorem drop_length_takeWhile {α : Type} (p : α → Bool) (l : List α) :
    l.drop (l.takeWhile p).length = l.dropWhile p := by
  induction l with
  | nil => rfl
  | cons a t ih => cases hp : p a <;> simp [hp, ih]

/-- The element after the ones a condition takes, if any, fails the condition. -/
theorem eq_false_of_mem_head?_dropWhile {α : Type} {p : α → Bool} {l : List α} {y : α}
    (hy : y ∈ (l.dropWhile p).head?) : p y = false := by
  have hnot := List.head?_dropWhile_not p l
  rw [Option.mem_def] at hy
  rw [hy] at hnot
  exact hnot

namespace RunsBy

variable {α : Type}

/-- Runs by a relation with the first element: every element of a group after its first is
related to the first, and the first element of the next group is not. -/
theorem partition_laws (same : α → α → Bool) (l : List α) :
    (∀ g ∈ partition ({ same := same } : RunsBy α) l, ∀ x ∈ g.head?, ∀ b ∈ g.tail,
        same x b = true) ∧
      (partition ({ same := same } : RunsBy α) l).IsChain
        (fun g g' ↦ ∀ x ∈ g.head?, ∀ y ∈ g'.head?, same x y = false) := by
  apply forall_isChain_partition
  · intro l hl
    cases l with
    | nil => simp at hl
    | cons a t =>
      intro x hx b hb
      rw [span_start] at hx hb
      simp only [List.head?_cons, Option.mem_def, Option.some.injEq, List.tail_cons] at hx hb
      subst hx
      exact List.mem_takeWhile_imp hb
  · intro l hl _
    cases l with
    | nil => simp at hl
    | cons a t =>
      intro x hx y hy
      rw [span_start] at hx hy
      simp only [List.head?_cons, Option.mem_def, Option.some.injEq] at hx
      subst hx
      -- the next group starts where the related elements stop
      rw [(restarts same).head?_span, List.length_cons, List.drop_succ_cons,
        drop_length_takeWhile] at hy
      exact eq_false_of_mem_head?_dropWhile hy

/-- Runs of equal elements are uniform, and neighbouring runs differ. -/
theorem runs_partition_laws [BEq α] [LawfulBEq α] (l : List α) :
    (∀ g ∈ partition (runs : RunsBy α) l, ∀ x ∈ g.head?, ∀ b ∈ g, b = x) ∧
      (partition (runs : RunsBy α) l).IsChain
        (fun g g' ↦ ∀ x ∈ g.head?, ∀ y ∈ g'.head?, x ≠ y) := by
  obtain ⟨hin, hout⟩ := partition_laws (fun a b : α ↦ a == b) l
  refine ⟨fun g hg x hx b hb ↦ ?_, hout.imp fun g g' hgg' x hx y hy hxy ↦ ?_⟩
  · cases g with
    | nil => cases hx
    | cons a t =>
      simp only [List.head?_cons, Option.mem_def, Option.some.injEq] at hx
      subst hx
      rcases List.mem_cons.mp hb with rfl | hb
      · rfl
      · exact (beq_iff_eq.mp (hin _ hg _ rfl b hb)).symm
  · -- a run's first element equal to the next run's first would have joined it
    subst hxy
    simpa using hgg' x hx x hy

end RunsBy

namespace Partitions

variable {α : Type}

/-- Partitions by a condition: the condition answers alike on all elements of a group, and
differently on the first elements of neighbouring groups. -/
theorem partition_laws (holds : α → Bool) (l : List α) :
    (∀ g ∈ partition ({ holds := holds } : Partitions α) l, ∀ x ∈ g.head?, ∀ b ∈ g,
        holds b = holds x) ∧
      (partition ({ holds := holds } : Partitions α) l).IsChain
        (fun g g' ↦ ∀ x ∈ g.head?, ∀ y ∈ g'.head?, holds x ≠ holds y) := by
  apply forall_isChain_partition
  · intro l hl
    cases l with
    | nil => simp at hl
    | cons a t =>
      intro x hx b hb
      rw [span_start] at hx hb
      simp only [List.head?_cons, Option.mem_def, Option.some.injEq] at hx
      subst hx
      rcases List.mem_cons.mp hb with rfl | hb
      · rfl
      · have hab := List.mem_takeWhile_imp hb
        exact (beq_iff_eq.mp hab).symm
  · intro l hl _
    cases l with
    | nil => simp at hl
    | cons a t =>
      intro x hx y hy
      rw [span_start] at hx hy
      simp only [List.head?_cons, Option.mem_def, Option.some.injEq] at hx
      subst hx
      rw [(restarts holds).head?_span, List.length_cons, List.drop_succ_cons,
        drop_length_takeWhile] at hy
      intro hxy
      have hfalse := eq_false_of_mem_head?_dropWhile hy
      simp [hxy] at hfalse

end Partitions

namespace Chunks

variable {α : Type}

/-- Chunks: no group is longer than `max n 1`, and every group followed by another is exactly
that long. -/
theorem partition_laws (n : Nat) (l : List α) :
    (∀ g ∈ partition (ofSize n) l, g.length ≤ max n 1) ∧
      (partition (ofSize n) l).IsChain (fun g _ ↦ g.length = max n 1) := by
  apply forall_isChain_partition
  · intro l _
    rw [span_ofSize]
    exact List.length_take_le _ _
  · intro l _ hnext
    simp only [span_ofSize] at hnext ⊢
    -- a next group means more elements than one chunk holds
    have hlong : max n 1 < l.length := by
      by_contra hle
      have hdrop : l.drop (l.take (max n 1)).length = [] := by
        apply List.drop_of_length_le
        simp only [List.length_take]
        omega
      rw [hdrop] at hnext
      simp at hnext
    simp only [List.length_take]
    omega

end Chunks

namespace AdjacentBy

variable {α : Type}

theorem span_start (same : α → α → Bool) (a : α) (t : List α) :
    Boundary.span ({ same := same } : AdjacentBy α) (a :: t) =
      a :: Boundary.span ({ previous := some a, same := same } : AdjacentBy α) t := by
  rw [(restarts same).span_cons, offer_start]

/-- Inside an adjacent run every element is related to the one before it, and the first element
of the next run is not related to the last one of the run before. -/
theorem partition_laws (same : α → α → Bool) (l : List α) :
    (∀ g ∈ partition ({ same := same } : AdjacentBy α) l,
        g.IsChain (fun x y ↦ same x y = true)) ∧
      (partition ({ same := same } : AdjacentBy α) l).IsChain
        (fun g g' ↦ ∃ hg hg', same (g.getLast hg) (g'.head hg') = false) := by
  apply forall_isChain_partition
  · intro l hl
    cases l with
    | nil => simp at hl
    | cons a t => rw [span_start]; exact (span_previous_chain a same t).1
  · intro l hl hnext
    cases l with
    | nil => simp at hl
    | cons a t =>
      rw [span_start] at hnext ⊢
      simp only [List.length_cons, List.drop_succ_cons] at hnext ⊢
      -- the next group starts with the element that ended this one
      have hhead := (restarts same).head?_span
        (t.drop (Boundary.span ({ previous := some a, same := same } : AdjacentBy α) t).length)
      refine ⟨List.cons_ne_nil _ _, hnext, ?_⟩
      apply (span_previous_chain a same t).2
      rw [← hhead]
      exact List.head_mem_head? hnext

/-- Adjacent runs cut a list into its maximal chains of related neighbours, as `List.splitBy`
does. -/
theorem partition_eq_splitBy (same : α → α → Bool) (l : List α) :
    partition ({ same := same } : AdjacentBy α) l = l.splitBy same := by
  have hlaws := partition_laws same l
  symm
  rw [List.splitBy_eq_iff]
  exact ⟨((restarts same).flatten_partition l).symm, fun h ↦ ne_nil_of_mem_partition h rfl,
    hlaws.1, hlaws.2⟩

end AdjacentBy

end Spool
