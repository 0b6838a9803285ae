import Spool.Tool.Paragraphs
import Spool.Proofs.Paragraphs
import Spool.Proofs.Delivered
import Spool.Proofs.LazyWindow

/-!
# The paragraph report

`writeParagraphs` prints the paragraphs of its input that a window selects, and reports a read
failure exactly when reading the window meets it (`Tool.writeParagraphs_report`).

The lines are read in three stages. Passing over the leading blank lines stops at the first line
that is not blank, which waits on the cursor one pull ahead (`Tool.skipBlankLines_spec`). The
groups of the rest by whether they are blank are paragraphs and gaps in turn, so the groups of even
index are the paragraphs (`Tool.map_fst_filter_zipIdx_partition_blank`), and the window of them
ends where its last paragraph is read, one line past it (`Groups.final_evenWindow_succ`). That line
exists exactly when the window is empty or its last paragraph has a blank line after it
(`Tool.final_paragraphWindow_le_iff`); otherwise the window reads past the last line and meets
what the input ended with. `Tool.paragraphsOf_readGroups` puts the stages together, from a cursor
that any group stream over a cursor can start from (`Groups.pullInv_ofRule`).
-/

set_option autoImplicit false

namespace Spool

namespace Cursor

variable {π α ρ : Type} [Producer π α ρ]

/-- A conditional draw from a cursor at most one pull ahead leaves nothing ahead when it hands out
an element, and one pull when it refuses one or finds the end. -/
theorem ahead_drawIf {c : Cursor π α} (hc : c.ahead ≤ 1) (p : α → Bool) :
    (Context.drawIf p c).2.ahead = if (Context.drawIf p c).1.isSome then 0 else 1 := by
  unfold Context.drawIf
  rcases hd : Context.draw c with ⟨_ | a, c'⟩
  · have hd' : draw c = (none, c') := hd
    have := ahead_draw_of_none (c := c) (by rw [hd'])
    rw [hd'] at this
    exact this
  · have hd' : draw c = (some a, c') := hd
    have h₀ := ahead_draw_of_some hc (by rw [hd'])
    rw [hd'] at h₀
    by_cases hp : p a
    · simp only [hp, if_true, Option.isSome_some]
      exact h₀
    · -- the refused element goes back on the stack
      simp only [hp, Bool.false_eq_true, if_false, Option.isSome_none]
      show (undraw a c').ahead = 1
      rw [ahead_undraw, h₀]

end Cursor

namespace Groups

variable {π α ρ β : Type} [Producer π α ρ] [GroupingRule β α] {toList : π → List α} {p₀ : π}
  {r₀ : β}

open Boundary GroupingRule

/-- The groups of even index of what a cursor reads as, past the first `n` of them and at most
`m` of the rest. -/
theorem groups_evenWindow (hr : Restarts α r₀) (c : Cursor π α) (n m : Nat) :
    ((((pullShape toList p₀ r₀ (ofRule c r₀)).filter fun i ↦ i % 2 == 0).drop n).take m).groups =
      (((((partition r₀ (Cursor.contents toList c)).zipIdx.filter fun g ↦ g.2 % 2 == 0).map
        Prod.fst).drop n).take m) := by
  simp only [Grouped.Shape.groups, Grouped.Shape.take, Grouped.Shape.drop, Grouped.Shape.filter,
    pullShape_ofRule_next, hr.groupsFrom_eq, List.map_map, List.filter_map, List.map_take,
    List.map_drop]
  rfl

/-- A window of `k + 1` groups of even index ends where its last group, the group `2 * (n + k)`,
is read: or, with no such group, where the list ends. -/
theorem final_evenWindow_succ (hr : Restarts α r₀) (c : Cursor π α) (n k : Nat) :
    ((((pullShape toList p₀ r₀ (ofRule c r₀)).filter fun i ↦ i % 2 == 0).drop n).take
        (k + 1)).final =
      (((partition r₀ (Cursor.contents toList c))[2 * (n + k)]?).map fun g ↦
          pullsAfter toList p₀ r₀ g
            (2 * (n + k) + 1, ((partition r₀ (Cursor.contents toList c)).drop
              (2 * (n + k) + 1)).flatten)).getD
        ((toList p₀).length + 1, []) := by
  simp only [Grouped.Shape.take, Grouped.Shape.drop, Grouped.Shape.filter, List.getElem?_cons_succ,
    List.getElem?_map, List.getElem?_drop, pullShape_ofRule_next, hr.groupsFrom_eq, List.map_map,
    List.filter_map, Function.comp_def, Nat.sub_zero]
  rw [getElem?_filter_zipIdx_even _ rfl, Option.map_map, Option.map_map, Nat.zero_add]
  rfl

end Groups

namespace Tool

open Boundary GroupingRule

/-- The groups of even index of the lines after the leading blank ones are the paragraphs. -/
theorem map_fst_filter_zipIdx_partition_blank (lines : List String) :
    (((partition ({ holds := Text.isBlank } : Partitions String)
        (lines.dropWhile Text.isBlank)).zipIdx.filter fun g ↦ g.2 % 2 == 0).map Prod.fst) =
      paragraphs lines := by
  apply List.ext_getElem?
  intro j
  rw [List.getElem?_map, getElem?_filter_zipIdx_even _ rfl, Option.map_map,
    (partition_blank_dropWhile lines).1 j]
  exact Option.map_id'

variable {π : Type} {toList : π → List String} {p₀ : π}

/-- Reading a window of the paragraphs of a cursor stopped after the leading blank lines, the
cursor stays within the lines exactly when there is a paragraph, and the window is empty or ends on
a paragraph followed by a blank line. -/
theorem final_paragraphWindow_le_iff {c : Cursor π String}
    (hc : Cursor.contents toList c = (toList p₀).dropWhile Text.isBlank)
    (hpulls : c.pulls + (Cursor.contents toList c).length = (toList p₀).length + 1) (n m : Nat) :
    ((((Groups.pullShape toList p₀ ({ holds := Text.isBlank } : Partitions String)
          (Groups.ofRule c { holds := Text.isBlank })).filter fun i ↦ i % 2 == 0).drop n).take
        m).final.1 ≤ (toList p₀).length ↔
      ¬(paragraphs (toList p₀) = [] ∨ (0 < m ∧ ((paragraphs (toList p₀)).length < n + m ∨
        ((paragraphs (toList p₀)).length = n + m ∧
          ((toList p₀).getLast?.any fun x ↦ !Text.isBlank x) = true)))) := by
  have hr := Partitions.restarts (α := String) Text.isBlank
  obtain ⟨-, hlen⟩ := partition_blank_dropWhile (toList p₀)
  rw [← hc] at hlen
  -- how many paragraphs there are, from how many groups there are and how the lines end
  have hpar : (paragraphs (toList p₀)).length = 0 ↔
      (partition ({ holds := Text.isBlank } : Partitions String)
        (Cursor.contents toList c)).length = 0 := by
    cases hb : (toList p₀).getLast?.any fun x ↦ !Text.isBlank x <;> rw [hb] at hlen <;>
      simp only [Bool.toNat_true, Bool.toNat_false] at hlen <;> omega
  rw [List.eq_nil_iff_length_eq_zero (l := paragraphs _), hpar]
  cases m with
  | zero =>
    -- an empty window reads nothing more: the cursor stays where the blank lines left it
    simp only [Grouped.Shape.take, Grouped.Shape.drop, Grouped.Shape.filter,
      List.getElem?_cons_zero, Option.getD_some, Groups.pullShape_ofRule_done]
    have hnil := Boundary.flatten_drop_partition_eq_nil_iff
      ({ holds := Text.isBlank } : Partitions String) (Cursor.contents toList c) 0
    rw [List.drop_zero, hr.flatten_partition] at hnil
    have hnil' : (Cursor.contents toList c).length = 0 ↔
        (partition ({ holds := Text.isBlank } : Partitions String)
          (Cursor.contents toList c)).length ≤ 0 := by
      rw [List.length_eq_zero_iff]
      exact hnil
    omega
  | succ k =>
    rw [Groups.final_evenWindow_succ hr]
    by_cases hk : 2 * (n + k) < (partition ({ holds := Text.isBlank } : Partitions String)
        (Cursor.contents toList c)).length
    · -- the window ends on the paragraph `2 * (n + k)`, with what follows it after
      have htail := Boundary.flatten_drop_partition_eq_nil_iff
        ({ holds := Text.isBlank } : Partitions String) (Cursor.contents toList c) (2 * (n + k) + 1)
      rw [← List.length_eq_zero_iff] at htail
      rw [List.getElem?_eq_getElem hk, Option.map_some, Option.getD_some]
      simp only [Groups.pullsAfter]
      rw [show peeksPast ({ holds := Text.isBlank } : Partitions String) _ = 1 from rfl]
      cases hb : (toList p₀).getLast?.any fun x ↦ !Text.isBlank x <;> rw [hb] at hlen <;>
        simp only [Bool.toNat_true, Bool.toNat_false, Bool.false_eq_true, and_false, and_true,
          or_false] at hlen ⊢ <;> omega
    · -- no such paragraph: the window reads past the end of the lines
      rw [List.getElem?_eq_none (by omega), Option.map_none, Option.getD_none]
      cases hb : (toList p₀).getLast?.any fun x ↦ !Text.isBlank x <;> rw [hb] at hlen <;>
        simp only [Bool.toNat_true, Bool.toNat_false, Bool.false_eq_true, and_false, and_true,
          or_false] at hlen ⊢ <;> omega

open Io

/-- Passing over blank lines, with more tries than lines, stops at the first line that is not
blank, which waits on the cursor: the cursor reads as the lines after the leading blank ones, one
pull ahead. -/
theorem skipBlankLines_spec {p₀ : Lines} {n : Nat} {c : Cursor Lines String}
    (hc : Lines.Consistent c.producer ∧ Cursor.PulledFrom p₀ c) (hahead : c.ahead ≤ 1)
    (hn : (Cursor.contents (fun p : Lines ↦ (Producer.elements p).1) c).length < n) :
    (Lines.Consistent (skipBlankLines n c).producer ∧ Cursor.PulledFrom p₀ (skipBlankLines n c)) ∧
      (skipBlankLines n c).ahead = 1 ∧
      Cursor.contents (fun p : Lines ↦ (Producer.elements p).1) (skipBlankLines n c) =
        (Cursor.contents (fun p : Lines ↦ (Producer.elements p).1) c).dropWhile Text.isBlank := by
  have hlifo := Cursor.lifo_pulledFrom Io.Lines.streams p₀
  induction n generalizing c with
  | zero => omega
  | succ n ih =>
    obtain ⟨hfst, hsnd, hinv⟩ := hlifo.drawIf_spec Text.isBlank hc
    have hah := Cursor.ahead_drawIf hahead Text.isBlank
    unfold skipBlankLines
    rcases hd : Context.drawIf Text.isBlank c with ⟨_ | x, c'⟩ <;> rw [hd] at hfst hsnd hinv hah <;>
      dsimp only at hfst hsnd hinv hah ⊢
    · -- the first line is not blank, or there is none: it stays, one pull ahead
      refine ⟨hinv, hah, ?_⟩
      cases hl : Cursor.contents (fun p : Lines ↦ (Producer.elements p).1) c with
      | nil => rw [hsnd, hl]; rfl
      | cons a t =>
        rw [hl] at hfst hsnd
        have ha : Text.isBlank a = false := by
          cases hb : Text.isBlank a with
          | false => rfl
          | true => simp [Option.filter, hb] at hfst
        rw [hsnd]
        simp [ha]
    · -- a blank line is passed over
      cases hl : Cursor.contents (fun p : Lines ↦ (Producer.elements p).1) c with
      | nil => rw [hl] at hfst; cases hfst
      | cons a t =>
        rw [hl] at hfst hsnd hn
        have ha : Text.isBlank a = true := by
          cases hb : Text.isBlank a with
          | true => rfl
          | false => simp [Option.filter, hb] at hfst
        rw [List.head?_cons, Option.any_some, ha, if_pos rfl, List.tail_cons] at hsnd
        rw [List.dropWhile_cons_of_pos ha, ← hsnd]
        exact ih hinv (by simp [hah]) (by rw [hsnd]; simp at hn; omega)

/-- Passing over the leading blank lines of an input leaves the cursor keeping the pull
accounting, one pull ahead, reading as the lines after the blank ones: it has pulled the blank
lines and the line after them. -/
theorem skipBlankLines_ofProducer (input : Buffered) :
    let c := skipBlankLines
      (Context.supply (Cursor.ofProducer (Lines.ofBuffered input) : Cursor Lines String) + 1)
      (Cursor.ofProducer (Lines.ofBuffered input))
    (Lines.Consistent c.producer ∧ Cursor.PulledFrom (Lines.ofBuffered input) c) ∧ c.ahead = 1 ∧
      Cursor.contents (fun p : Lines ↦ (Producer.elements p).1) c =
        (Producer.elements (Lines.ofBuffered input)).1.dropWhile Text.isBlank ∧
      c.pulls + (Cursor.contents (fun p : Lines ↦ (Producer.elements p).1) c).length =
        (Producer.elements (Lines.ofBuffered input)).1.length + 1 := by
  have hp : Lines.Consistent (Lines.ofBuffered input) := fun _ ↦ rfl
  have hstart : Lines.Consistent
        (Cursor.ofProducer (Lines.ofBuffered input) : Cursor Lines String).producer ∧
      Cursor.PulledFrom (Lines.ofBuffered input)
        (Cursor.ofProducer (Lines.ofBuffered input) : Cursor Lines String) :=
    ⟨hp, Cursor.PulledFrom.ofProducer _⟩
  -- one try more than there are lines: the supply bounds the lines
  have hsupply := Lines.streams.length_le_supply (Lines.ofBuffered input) hp
  obtain ⟨hinv, hahead, hcontents⟩ := skipBlankLines_spec hstart
    (by simp [Cursor.ahead, Cursor.ofProducer])
    (n := Context.supply (Cursor.ofProducer (Lines.ofBuffered input) : Cursor Lines String) + 1)
    (by
      rw [Groups.contents_ofProducer]
      show _ < Cursor.supply (Cursor.ofProducer (Lines.ofBuffered input) : Cursor Lines String) + 1
      simp only [Cursor.supply, Cursor.ofProducer, List.length_nil, Bool.false_eq_true, if_false,
        Nat.zero_add]
      omega)
  rw [Groups.contents_ofProducer] at hcontents
  have hpulls := hinv.2.pulls_add_length Lines.streams hp
  rw [hahead] at hpulls
  exact ⟨hinv, hahead, hcontents, hpulls⟩

/-- Read whole, the window of paragraphs hands out the paragraphs of the window, and leaves the
input where the window ends: still live unless there is no paragraph, or the window is not empty and
ends on the last paragraph with no blank line after it, or asks for more paragraphs than there
are; then the input has been read past its last line. -/
theorem paragraphsOf_readGroups (input : Buffered) (window : Window) :
    (Grouped.readGroups (paragraphsOf input window)).1 =
        ((paragraphs (Producer.collectAll (Lines.ofBuffered input)).1).drop window.skip).take
          window.limit ∧
      Producer.finish (Grouped.intoRest (Grouped.readGroups (paragraphsOf input window)).2) =
        if paragraphs (Producer.collectAll (Lines.ofBuffered input)).1 = [] ∨
            (0 < window.limit ∧
              ((paragraphs (Producer.collectAll (Lines.ofBuffered input)).1).length <
                  window.skip + window.limit ∨
                ((paragraphs (Producer.collectAll (Lines.ofBuffered input)).1).length =
                    window.skip + window.limit ∧
                  ((Producer.collectAll (Lines.ofBuffered input)).1.getLast?.any
                    fun x ↦ !Text.isBlank x) = true))) then
          (Producer.collectAll (Lines.ofBuffered input)).2
        else .ok () := by
  rw [Producer.collectAll_fst, Producer.collectAll_snd]
  have hp : Lines.Consistent (Lines.ofBuffered input) := fun _ ↦ rfl
  -- the leading blank lines are passed over first, leaving the first paragraph's line waiting
  obtain ⟨hinv₁, hahead₁, hcontents₁, hpulls₁⟩ := skipBlankLines_ofProducer input
  -- the windows over the groups of the rest read as windows of its groups, and settle on `none`
  have hr := Partitions.restarts (α := String) Text.isBlank
  have hbase := Groups.pullReads (fun p : Lines ↦ (Producer.elements p).1) Lines.Consistent
    (Lines.ofBuffered input) ({ holds := Text.isBlank } : Partitions String) Lines.streams hp hr
    (Partitions.openAfterRefusal String)
  have hfilt := FilterGroups.reads hbase
  have hdrop := DropGroups.reads hfilt
  have hsettles := DropGroups.settles hfilt (FilterGroups.settles hbase (Groups.settles Lines.streams))
  have hg₁ := Groups.pullInv_ofRule (fun p : Lines ↦ (Producer.elements p).1) hr hinv₁
    (by rw [hahead₁])
  obtain ⟨hprinted, hended, hvalid⟩ := (TakeGroups.reads hdrop).readGroups_spec
    (s := paragraphsOf input window) ⟨hg₁, fun _ ↦ rfl⟩ rfl
  have hquiet := Grouped.settled_readGroups hdrop hsettles (t := paragraphsOf input window)
    ⟨hg₁, fun _ ↦ rfl⟩ rfl (Or.inl rfl)
  -- once every group is read, the cursor has made the pulls the window's end is seen at
  have hseen := (TakeGroups.reads hdrop).obs_spec _ hvalid (by rw [hended]; rfl)
  rw [hended, Grouped.Shape.ended_done] at hseen
  have hpulls := congrArg Prod.fst hseen
  rw [Groups.pullsSeen, Groups.closingPull_of_quiet hquiet, Nat.add_zero] at hpulls
  dsimp only at hpulls
  refine ⟨?_, ?_⟩
  · rw [hprinted]
    exact (Groups.groups_evenWindow hr _ window.skip window.limit).trans
      (by rw [hcontents₁, map_fst_filter_zipIdx_partition_blank])
  · show Producer.finish (Grouped.readGroups
      (paragraphsOf input window)).2.inner.inner.inner.view.parent.producer = _
    rw [hvalid.1.1.1.1.2.producer_eq, hpulls, Lines.finish_advance rfl rfl]
    have hreach := final_paragraphWindow_le_iff hcontents₁ hpulls₁ window.skip window.limit
    by_cases hlast : paragraphs (Producer.elements (Lines.ofBuffered input)).1 = [] ∨
        (0 < window.limit ∧
          ((paragraphs (Producer.elements (Lines.ofBuffered input)).1).length <
              window.skip + window.limit ∨
            ((paragraphs (Producer.elements (Lines.ofBuffered input)).1).length =
                window.skip + window.limit ∧
              ((Producer.elements (Lines.ofBuffered input)).1.getLast?.any
                fun x ↦ !Text.isBlank x) = true)))
    · -- the window's end is past the last line: the input's own result is met
      exact (if_neg fun hle ↦ hreach.mp hle hlast).trans (if_pos hlast).symm
    · exact (if_pos (hreach.mpr hlast)).trans (if_neg hlast).symm

/-- The paragraph report of an input: the paragraphs of the window, each line followed by a
newline and an empty line between two paragraphs; the number of paragraphs printed, unless the
input ended at a failure and reading the window met it, which it does when there is no paragraph,
or when the window is not empty and asks for more paragraphs than there are, or ends on the last
one with no blank line after it. -/
theorem writeParagraphs_report (input : Buffered) (window : Window) :
    let lines := (Producer.collectAll (Lines.ofBuffered input)).1
    let shown := ((paragraphs lines).drop window.skip).take window.limit
    writeParagraphs input window =
      { output := "\n".intercalate (shown.map fun p ↦ String.join (p.map (· ++ "\n")))
        outcome :=
          match (Producer.collectAll (Lines.ofBuffered input)).2 with
          | .ok () => .ok shown.length
          | .error e =>
            if paragraphs lines = [] ∨ (0 < window.limit ∧
                ((paragraphs lines).length < window.skip + window.limit ∨
                  ((paragraphs lines).length = window.skip + window.limit ∧
                    (lines.getLast?.any fun x ↦ !Text.isBlank x) = true)))
            then .error e else .ok shown.length } := by
  dsimp only
  obtain ⟨hprinted, hfinish⟩ := paragraphsOf_readGroups input window
  unfold writeParagraphs
  rcases hread : Grouped.readGroups (paragraphsOf input window) with ⟨printed, selected⟩
  rw [hread] at hprinted hfinish
  dsimp only at hprinted hfinish ⊢
  rw [hfinish, hprinted]
  cases hR : (Producer.collectAll (Lines.ofBuffered input)).2 with
  | ok u =>
    -- an input that ends cleanly ends the report cleanly, however far the window reads
    rw [ite_self]
    rfl
  | error e =>
    by_cases hlast : paragraphs (Producer.collectAll (Lines.ofBuffered input)).1 = [] ∨
        (0 < window.limit ∧
          ((paragraphs (Producer.collectAll (Lines.ofBuffered input)).1).length <
              window.skip + window.limit ∨
            ((paragraphs (Producer.collectAll (Lines.ofBuffered input)).1).length =
                window.skip + window.limit ∧
              ((Producer.collectAll (Lines.ofBuffered input)).1.getLast?.any
                fun x ↦ !Text.isBlank x) = true)))
    · rw [if_pos hlast]
      dsimp only
      rw [if_pos hlast]
      rfl
    · rw [if_neg hlast]
      dsimp only
      rw [if_neg hlast]
      rfl

end Tool

end Spool
