import Spool.Text.Blank
import Spool.Proofs.Partition

/-!
# Paragraphs of lines

A paragraph is a maximal run of lines that are not blank. `Tool.paragraphs` says so on its own:
cut the lines at every blank line and keep the pieces that are not empty.

Grouped by whether they are blank, the lines after the leading blank ones fall into runs that
alternate between paragraphs and gaps, a paragraph first (`Partitions.partition_cons` gives one
run at a time). So the paragraphs are the runs of even index, and there are twice as many runs as
paragraphs, one fewer when the lines end in a paragraph (`Tool.partition_blank_dropWhile`).
`getElem?_filter_zipIdx_even` finds the runs of even index among runs numbered from zero.
-/

set_option autoImplicit false

namespace Spool

namespace Partitions

variable {α : Type}

/-- A partition starts with its first element and the elements after it on which the condition
answers alike, and goes on from the first element on which it answers otherwise. -/
theorem partition_cons (holds : α → Bool) (a : α) (t : List α) :
    Boundary.partition ({ holds := holds } : Partitions α) (a :: t) =
      (a :: t.takeWhile (fun b ↦ holds a == holds b)) ::
        Boundary.partition ({ holds := holds } : Partitions α)
          (t.dropWhile (fun b ↦ holds a == holds b)) := by
  rw [Boundary.partition_of_span_ne_nil (by rw [span_start]; exact List.cons_ne_nil _ _),
    span_start, List.length_cons, List.drop_succ_cons, drop_length_takeWhile]

end Partitions

namespace Tool

/-- The paragraphs of a list of lines: its maximal runs of lines that are not blank. -/
def paragraphs (lines : List String) : List (List String) :=
  (lines.splitOnP Text.isBlank).filter fun p ↦ !p.isEmpty

@[simp] theorem paragraphs_nil : paragraphs [] = [] :=
  rfl

/-- A blank line starts no paragraph. -/
theorem paragraphs_cons_of_blank {a : String} (ha : Text.isBlank a = true) (t : List String) :
    paragraphs (a :: t) = paragraphs t := by
  simp [paragraphs, List.splitOnP_cons_eq_if_modifyHead, ha]

/-- Leading blank lines start no paragraph. -/
theorem paragraphs_dropWhile (lines : List String) :
    paragraphs (lines.dropWhile Text.isBlank) = paragraphs lines := by
  induction lines with
  | nil => rfl
  | cons a t ih =>
    cases ha : Text.isBlank a with
    | false => simp [ha]
    | true => rw [List.dropWhile_cons_of_pos ha, ih, paragraphs_cons_of_blank ha]

/-- Lines none of which is blank are one paragraph. -/
theorem paragraphs_of_forall {g : List String} (hg : g ≠ [])
    (hall : ∀ x ∈ g, Text.isBlank x = false) : paragraphs g = [g] := by
  simp [paragraphs, List.splitOnP_eq_singleton hall, hg]

/-- A paragraph ended by a blank line is followed by the paragraphs after that line. -/
theorem paragraphs_append_cons {g : List String} (hg : g ≠ [])
    (hall : ∀ x ∈ g, Text.isBlank x = false) {b : String} (hb : Text.isBlank b = true)
    (rest : List String) : paragraphs (g ++ b :: rest) = g :: paragraphs rest := by
  simp [paragraphs, List.splitOnP_append_cons_of_forall_mem hall b hb, hg]

/-- Lines after blank ones end in a paragraph exactly when they do, or when those after the blank
ones do. -/
theorem getLast?_any_append_of_blank {xs : List String} (hxs : ∀ x ∈ xs, Text.isBlank x = true)
    (ys : List String) :
    ((xs ++ ys).getLast?.any fun x ↦ !Text.isBlank x) = (ys.getLast?.any fun x ↦ !Text.isBlank x) := by
  rw [List.getLast?_append]
  cases hy : ys.getLast? with
  | some y => rfl
  | none =>
    cases hx : xs.getLast? with
    | none => rfl
    | some x => simp [hxs x (List.mem_of_getLast? hx)]

/-- Lines none of which is blank end in a paragraph. -/
theorem getLast?_any_of_forall {g : List String} (hg : g ≠ [])
    (hall : ∀ x ∈ g, Text.isBlank x = false) : (g.getLast?.any fun x ↦ !Text.isBlank x) = true := by
  obtain ⟨y, hy⟩ := Option.isSome_iff_exists.mp (List.getLast?_isSome.mpr hg)
  simp [hy, hall y (List.mem_of_getLast? hy)]

/-- Lines from a blank one on end in a paragraph exactly when the lines after the blank ones at
their start do. -/
theorem getLast?_any_cons_of_blank {b : String} (hb : Text.isBlank b = true) (u : List String) :
    ((b :: u).getLast?.any fun x ↦ !Text.isBlank x) =
      ((u.dropWhile Text.isBlank).getLast?.any fun x ↦ !Text.isBlank x) := by
  have hgap : ∀ x ∈ b :: u.takeWhile Text.isBlank, Text.isBlank x = true := by
    intro x hx
    rcases List.mem_cons.mp hx with rfl | hx
    · exact hb
    · exact List.mem_takeWhile_imp hx
  rw [← getLast?_any_append_of_blank hgap (u.dropWhile Text.isBlank), List.cons_append,
    List.takeWhile_append_dropWhile]

/-- Lines that start with a paragraph are grouped, by whether they are blank, into paragraphs and
gaps in turn: the paragraphs are the groups of even index, and there are twice as many groups as
paragraphs, one fewer when the lines end in a paragraph. -/
theorem paragraphs_partition_blank {l : List String} (hl : ∀ x ∈ l.head?, Text.isBlank x = false) :
    (∀ j, (paragraphs l)[j]? =
        (Boundary.partition ({ holds := Text.isBlank } : Partitions String) l)[2 * j]?) ∧
      (Boundary.partition ({ holds := Text.isBlank } : Partitions String) l).length +
          (l.getLast?.any fun x ↦ !Text.isBlank x).toNat =
        2 * (paragraphs l).length := by
  -- by strong induction on the length: a paragraph and the gap after it are taken off at once
  induction hn : l.length using Nat.strong_induction_on generalizing l with
  | _ n ih =>
  cases l with
  | nil => simp
  | cons a t =>
    have ha : Text.isBlank a = false := hl a rfl
    rw [List.length_cons] at hn
    rw [Partitions.partition_cons]
    simp only [ha, Bool.false_beq]
    have hgall : ∀ x ∈ a :: t.takeWhile (fun b ↦ !Text.isBlank b), Text.isBlank x = false := by
      intro x hx
      rcases List.mem_cons.mp hx with rfl | hx
      · exact ha
      · simpa using List.mem_takeWhile_imp hx
    have hsplit := List.takeWhile_append_dropWhile (p := fun b ↦ !Text.isBlank b) (l := t)
    cases hu : t.dropWhile (fun b ↦ !Text.isBlank b) with
    | nil =>
      -- no blank line follows: the lines are one paragraph
      rw [hu, List.append_nil] at hsplit
      rw [hsplit] at hgall
      have hpar := paragraphs_of_forall (List.cons_ne_nil a t) hgall
      have hlast := getLast?_any_of_forall (List.cons_ne_nil a t) hgall
      refine ⟨fun j ↦ ?_, ?_⟩
      · rw [hpar, hsplit]
        cases j with
        | zero => rfl
        | succ j => simp
      · rw [hpar, hlast, Boundary.partition_nil]
        rfl
    | cons b u =>
      -- a blank line `b` ends the paragraph; the gap goes on to the next paragraph `v`
      have hb : Text.isBlank b = true := by
        have := eq_false_of_mem_head?_dropWhile (p := fun b ↦ !Text.isBlank b) (l := t)
          (by rw [hu]; rfl)
        simpa using this
      have hblank : (fun c ↦ true == Text.isBlank c) = Text.isBlank :=
        funext fun c ↦ Bool.true_beq _
      rw [Partitions.partition_cons, hb, hblank]
      have hv : ∀ x ∈ (u.dropWhile Text.isBlank).head?, Text.isBlank x = false :=
        fun x hx ↦ eq_false_of_mem_head?_dropWhile hx
      have hlt : (u.dropWhile Text.isBlank).length < n := by
        have := List.length_dropWhile_le Text.isBlank u
        have := congrArg List.length hsplit
        simp only [hu, List.length_append, List.length_cons] at this
        omega
      obtain ⟨hidx, hlen⟩ := ih _ hlt hv rfl
      have hpar : paragraphs (a :: t) = (a :: t.takeWhile (fun b ↦ !Text.isBlank b)) ::
          paragraphs (u.dropWhile Text.isBlank) := by
        rw [paragraphs_dropWhile, ← paragraphs_append_cons (List.cons_ne_nil _ _) hgall hb,
          List.cons_append, ← hu, hsplit]
      -- the lines end where the next paragraph and what follows it end
      have hlast : ((a :: t).getLast?.any fun x ↦ !Text.isBlank x) =
          ((u.dropWhile Text.isBlank).getLast?.any fun x ↦ !Text.isBlank x) := by
        have hl : a :: t = (a :: t.takeWhile (fun b ↦ !Text.isBlank b)) ++ b :: u := by
          rw [List.cons_append, ← hu, hsplit]
        rw [hl, List.getLast?_append_of_ne_nil _ (List.cons_ne_nil b u), getLast?_any_cons_of_blank hb]
      refine ⟨fun j ↦ ?_, ?_⟩
      · rw [hpar]
        cases j with
        | zero => rfl
        | succ j =>
          rw [List.getElem?_cons_succ, hidx j, show 2 * (j + 1) = 2 * j + 1 + 1 by omega]
          rfl
      · rw [hpar, hlast]
        simp only [List.length_cons]
        omega

/-- After its leading blank lines, a list of lines is grouped, by whether they are blank, into its
paragraphs at even index and the gaps between them; there are twice as many groups as paragraphs,
one fewer when the lines end in a paragraph. -/
theorem partition_blank_dropWhile (lines : List String) :
    (∀ j, (paragraphs lines)[j]? = (Boundary.partition ({ holds := Text.isBlank } : Partitions String)
        (lines.dropWhile Text.isBlank))[2 * j]?) ∧
      (Boundary.partition ({ holds := Text.isBlank } : Partitions String)
          (lines.dropWhile Text.isBlank)).length +
          (lines.getLast?.any fun x ↦ !Text.isBlank x).toNat =
        2 * (paragraphs lines).length := by
  obtain ⟨hidx, hlen⟩ := paragraphs_partition_blank (l := lines.dropWhile Text.isBlank)
    fun _ hx ↦ eq_false_of_mem_head?_dropWhile hx
  rw [paragraphs_dropWhile] at hidx hlen
  -- the leading blank lines do not change where the lines end
  have hlast := getLast?_any_append_of_blank
    (fun x (hx : x ∈ lines.takeWhile Text.isBlank) ↦ List.mem_takeWhile_imp hx)
    (lines.dropWhile Text.isBlank)
  rw [List.takeWhile_append_dropWhile] at hlast
  rw [← hlast] at hlen
  exact ⟨hidx, hlen⟩

end Tool

/-- Among elements numbered from an even `o`, the `j`-th of those with an even number is the
element `2 * j`. -/
theorem getElem?_filter_zipIdx_even {γ : Type} (l : List γ) {o : Nat} (ho : o % 2 = 0) (j : Nat) :
    ((l.zipIdx o).filter fun e ↦ e.2 % 2 == 0)[j]? = l[2 * j]?.map fun x ↦ (x, o + 2 * j) := by
  induction j generalizing l o with
  | zero =>
    cases l with
    | nil => rfl
    | cons a t => simp [List.zipIdx_cons, ho]
  | succ j ih =>
    match l with
    | [] => rfl
    | [a] => simp [ho]
    | a :: b :: t =>
      -- the first element is kept and the second passed over; the rest are numbered from `o + 2`
      have hodd : (o + 1) % 2 = 1 := by omega
      rw [List.zipIdx_cons, List.zipIdx_cons, List.filter_cons_of_pos (by simp [ho]),
        List.filter_cons_of_neg (by simp [hodd]), List.getElem?_cons_succ,
        ih t (by omega), show 2 * (j + 1) = 2 * j + 1 + 1 by omega]
      rw [List.getElem?_cons_succ, List.getElem?_cons_succ,
        show o + 1 + 1 + 2 * j = o + (2 * j + 1 + 1) by omega]

end Spool
