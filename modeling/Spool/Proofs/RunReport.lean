import Spool.Tool.RunLength
import Spool.Proofs.Delivered
import Spool.Proofs.LazyWindow

/-!
# The run-length report

`writeRuns` prints the run-length encoding of the bytes its input delivers, restricted to a window
of runs, and reports a read failure exactly when reading the window meets it.

The encoding is stated on its own (`Tool.IsRunLength`): pairs of a count of at least one and a
byte, no two neighbours with the same byte, that spell out the bytes. The runs rule cuts the bytes
into the runs of that encoding (`Tool.partition_runs_of_isRunLength`), and folding a run into a
`Run` counts it (`Tool.foldl_push_replicate`). Whether the failure is met follows from how far the
window reads (`Groups.window_foldGroups`): the runs rule ends a run only on seeing the next byte,
so the read past the last delivered byte happens exactly when the window reaches the last run, or
asks for runs beyond it.
-/

set_option autoImplicit false

namespace Spool

namespace RunsBy

variable {α : Type} [BEq α] [LawfulBEq α]

/-- Runs of equal elements are the maximal runs that `List.splitBy` finds. -/
theorem partition_runs_eq_splitBy (l : List α) :
    Boundary.partition (runs : RunsBy α) l = l.splitBy (· == ·) := by
  obtain ⟨hsame, hdiff⟩ := runs_partition_laws l
  -- each run is its first element repeated
  have hrep : ∀ g ∈ Boundary.partition (runs : RunsBy α) l, ∀ hg : g ≠ [],
      g = List.replicate g.length (g.head hg) := fun g hg hne ↦
    List.eq_replicate_iff.mpr ⟨rfl, fun b hb ↦ hsame g hg _ (List.head_mem_head? hne) b hb⟩
  symm
  rw [List.splitBy_eq_iff]
  refine ⟨((restarts _).flatten_partition l).symm,
    fun h ↦ Boundary.ne_nil_of_mem_partition h rfl, fun g hg ↦ ?_, ?_⟩
  · cases g with
    | nil => exact List.IsChain.nil
    | cons a t =>
      rw [hrep _ hg (List.cons_ne_nil a t)]
      exact List.isChain_replicate_of_rel _ (beq_self_eq_true a)
  · -- the last element of a run is its first, which differs from the next run's first
    refine List.IsChain.imp_of_mem_imp (fun g g' hg hg' hne ↦ ?_) hdiff
    have hg₀ : g ≠ [] := Boundary.ne_nil_of_mem_partition hg
    have hg₀' : g' ≠ [] := Boundary.ne_nil_of_mem_partition hg'
    refine ⟨hg₀, hg₀', ?_⟩
    have hlast : g.getLast hg₀ = g.head hg₀ :=
      hsame g hg _ (List.head_mem_head? hg₀) _ (List.getLast_mem hg₀)
    rw [hlast, beq_eq_false_iff_ne]
    exact hne _ (List.head_mem_head? hg₀) _ (List.head_mem_head? hg₀')

end RunsBy

namespace Groups

variable {π α ρ β : Type} [Producer π α ρ] [GroupingRule β α]

open Boundary GroupingRule

variable {toList : π → List α} {p₀ : π} {r₀ : β}

/-- Under a rule that must see the element after a group to end it, a window ends within the list
exactly when it is empty or leaves a group after it: reading its last group to the end sees the
first element of the next group, and with no next group it reads past the end. -/
theorem final_le_length_iff (hr : Restarts α r₀) (hpeek : ∀ g : List α, peeksPast r₀ g = 1) (n m : Nat) :
    (windowShape toList p₀ r₀ (window p₀ r₀ n m).stream).final.1 ≤ (toList p₀).length ↔
      ¬(0 < m ∧ (partition r₀ (toList p₀)).length ≤ n + m) := by
  cases m with
  | zero =>
    rw [final_start_zero]
    simp
  | succ k =>
    rw [final_start_succ hr]
    by_cases hk : n + k < (partition r₀ (toList p₀)).length
    · -- the window ends on the group `n + k`, with what follows it after
      have htail : (((partition r₀ (toList p₀)).drop (n + k + 1)).flatten).length = 0 ↔
          (partition r₀ (toList p₀)).length ≤ n + k + 1 := by
        rw [List.length_eq_zero_iff]
        exact flatten_drop_partition_eq_nil_iff r₀ (toList p₀) (n + k + 1)
      rw [List.getElem?_eq_getElem hk, Option.map_some, Option.getD_some]
      simp only [pullsAfter, hpeek]
      omega
    · -- no group `n + k`: the window reads past the end of the list
      rw [List.getElem?_eq_none (by omega), Option.map_none, Option.getD_none]
      omega

end Groups

namespace Tool

variable {α : Type}

/-- `enc` is the run-length encoding of `d`: counts of at least one, no two neighbouring runs of
the same element, and `d` each element repeated its count of times, in order. -/
def IsRunLength (d : List α) (enc : List (Nat × α)) : Prop :=
  (∀ e ∈ enc, 0 < e.1) ∧ enc.IsChain (fun e e' ↦ e.2 ≠ e'.2) ∧
    d = (enc.map fun e ↦ List.replicate e.1 e.2).flatten

instance [DecidableEq α] (d : List α) (enc : List (Nat × α)) : Decidable (IsRunLength d enc) :=
  inferInstanceAs (Decidable (_ ∧ _ ∧ _))

/-- The runs rule cuts a list into the runs of its run-length encoding. -/
theorem partition_runs_of_isRunLength [BEq α] [LawfulBEq α] {d : List α} {enc : List (Nat × α)}
    (h : IsRunLength d enc) :
    Boundary.partition (runs : RunsBy α) d = enc.map fun e ↦ List.replicate e.1 e.2 := by
  obtain ⟨hpos, hchain, hd⟩ := h
  rw [RunsBy.partition_runs_eq_splitBy, List.splitBy_eq_iff]
  refine ⟨hd, fun hnil ↦ ?_, fun g hg ↦ ?_, ?_⟩
  · obtain ⟨e, he, hrep⟩ := List.mem_map.mp hnil
    have := hpos e he
    simp_all
  · obtain ⟨e, -, rfl⟩ := List.mem_map.mp hg
    exact List.isChain_replicate_of_rel _ (beq_self_eq_true e.2)
  · -- neighbouring runs end and start with their own, different, elements
    rw [List.isChain_map]
    refine List.IsChain.imp_of_mem_imp (fun e e' he he' hne ↦ ?_) hchain
    have h₁ : List.replicate e.1 e.2 ≠ [] := by simpa using (hpos e he).ne'
    have h₂ : List.replicate e'.1 e'.2 ≠ [] := by simpa using (hpos e' he').ne'
    exact ⟨h₁, h₂, by rw [List.getLast_replicate, List.head_replicate, beq_eq_false_iff_ne]; exact hne⟩

/-- Folding a run of `c + 1` copies of `b` counts them and keeps `b`. -/
theorem foldl_push_replicate (r : Run) (c : Nat) (b : UInt8) :
    (List.replicate (c + 1) b).foldl Run.push r = { count := r.count + (c + 1), byte := b } := by
  induction c generalizing r with
  | zero => rfl
  | succ c ih =>
    rw [List.replicate_succ, List.foldl_cons, ih]
    simp only [Run.push]
    congr 1
    omega

/-- Folding a run of at least one `b` from the empty run gives its length and `b`. -/
theorem foldl_push_replicate_of_pos {c : Nat} (hc : 0 < c) (b : UInt8) :
    (List.replicate c b).foldl Run.push {} = { count := c, byte := b } := by
  obtain ⟨k, rfl⟩ := Nat.exists_eq_add_one.mpr hc
  rw [foldl_push_replicate]
  congr 1
  exact Nat.zero_add _

open Io Boundary GroupingRule

/-- Read to its end, the fold of a window of runs hands out the fold of each run of the window, and
leaves the input where the window ends: still live unless the window is not empty and reaches the
last run, in which case the input has been read past its last byte. -/
theorem runsOf_elements (input : Reader) (window : Window) :
    (Producer.elements (runsOf input window)).1 =
        (((partition (runs : RunsBy UInt8) (Producer.collectAll (Bytes.ofReader input)).1).drop window.skip).take
          window.limit).map (List.foldl Run.push {}) ∧
      Producer.finish (Producer.finish (Producer.elements (runsOf input window)).2) =
        if 0 < window.limit ∧ (partition (runs : RunsBy UInt8) (Producer.collectAll (Bytes.ofReader input)).1).length ≤
            window.skip + window.limit then
          (Producer.collectAll (Bytes.ofReader input)).2
        else .ok () := by
  have hrestarts : Restarts UInt8 (runs : RunsBy UInt8) := RunsBy.restarts _
  have hfold : runsOf input window = Grouped.foldGroups {} Run.push
      (Groups.window (Bytes.ofReader input) (runs : RunsBy UInt8) window.skip window.limit).stream := rfl
  obtain ⟨hprinted, hinv, hfinal⟩ := Groups.window_foldGroups Bytes.streams
    (show Bytes.Consistent (Bytes.ofReader input) from fun _ ↦ rfl) hrestarts
    (RunsBy.openAfterRefusal UInt8) ({} : Run) Run.push window.skip window.limit
  rw [hfold, Producer.collectAll_fst, Producer.collectAll_snd]
  refine ⟨hprinted, ?_⟩
  -- the input stands after as many pulls as the window's end takes
  show Producer.finish (Producer.elements (Grouped.foldGroups {} Run.push
    (Groups.window (Bytes.ofReader input) (runs : RunsBy UInt8) window.skip window.limit).stream)).2.stream.inner.inner.view.parent.producer = _
  have hpulls := congrArg Prod.fst hfinal
  dsimp only at hpulls
  rw [hinv.1.1.1.2.producer_eq, hpulls,
    Bytes.finish_advance (p := Bytes.ofReader input) rfl rfl]
  simp only [Groups.final_le_length_iff hrestarts (fun _ ↦ rfl)]
  by_cases hlast : 0 < window.limit ∧
      (partition (runs : RunsBy UInt8) (Producer.elements (Bytes.ofReader input)).1).length ≤
        window.skip + window.limit
  · -- reading the window's end meets what the input ended with
    simp only [hlast, and_self, not_true_eq_false, if_false, if_true]
  · simp only [hlast, not_false_eq_true, if_false, if_true]

/-- The run-length report of an input: one line per run of the window, its count, a tab and its
byte escaped; the number of runs printed, unless the input ended at a failure and the window is not
empty and reaches the last run, which reads past the last byte delivered and meets the failure. -/
theorem writeRuns_report (input : Reader) (window : Window) {enc : List (Nat × UInt8)}
    (henc : IsRunLength (Producer.collectAll (Bytes.ofReader input)).1 enc) :
    writeRuns input window =
      { output := String.join (((enc.drop window.skip).take window.limit).map fun e ↦
          toString e.1 ++ "\t" ++ Text.escapeByte e.2 ++ "\n")
        outcome :=
          match (Producer.collectAll (Bytes.ofReader input)).2 with
          | .ok () => .ok ((enc.drop window.skip).take window.limit).length
          | .error e =>
            if 0 < window.limit ∧ enc.length ≤ window.skip + window.limit then .error e
            else .ok ((enc.drop window.skip).take window.limit).length } := by
  obtain ⟨hprinted, hfinish⟩ := runsOf_elements input window
  rw [partition_runs_of_isRunLength henc, List.length_map] at hfinish
  rw [partition_runs_of_isRunLength henc, ← List.map_drop, ← List.map_take, List.map_map] at hprinted
  -- each run of the window folds into its count and byte
  have hruns : ∀ e ∈ (enc.drop window.skip).take window.limit,
      (List.foldl Run.push {} ∘ fun e ↦ List.replicate e.1 e.2) e =
        ({ count := e.1, byte := e.2 } : Run) :=
    fun e he ↦ foldl_push_replicate_of_pos
      (henc.1 e (List.mem_of_mem_drop (List.mem_of_mem_take he))) e.2
  rw [List.map_congr_left hruns] at hprinted
  unfold writeRuns
  rcases hel : Producer.elements (runsOf input window) with ⟨printed, counted⟩
  rw [hel] at hprinted hfinish
  dsimp only at hprinted hfinish ⊢
  rw [hfinish, hprinted, List.map_map, List.length_map]
  cases hR : (Producer.collectAll (Bytes.ofReader input)).2 with
  | ok u =>
    -- an input that ends cleanly ends the report cleanly, however far the window reads
    rw [ite_self]
    rfl
  | error e =>
    by_cases hlast : 0 < window.limit ∧ enc.length ≤ window.skip + window.limit
    · simp only [hlast, and_self, if_true]
      rfl
    · simp only [hlast, if_false]
      rfl

/-- Two runs of `aab` before a failure, in a window of two: the window reaches the last run, so
both lines are printed and the failure is met. -/
theorem writeRuns_report_at_failure :
    IsRunLength (Producer.collectAll (Bytes.ofReader { bytes := #[97, 97, 98], failAt := some 3 })).1
        [(2, 97), (1, 98)] ∧
      writeRuns { bytes := #[97, 97, 98], failAt := some 3 } { take := some 2 } =
        { output := "2\ta\n1\tb\n", outcome := .error (.custom .other "disk on fire") } := by
  have henc : IsRunLength
      (Producer.collectAll (Bytes.ofReader { bytes := #[97, 97, 98], failAt := some 3 })).1
      [(2, 97), (1, 98)] := by
    decide
  refine ⟨henc, ?_⟩
  rw [writeRuns_report _ _ henc, Report.mk.injEq]
  exact ⟨by decide, by decide⟩

end Tool

end Spool
