import Spool.Proofs.Groups

/-!
# Grouping a list

Read to the end by any reader that drains every group, the groups of a context that reads as a
list are the groups the rule cuts that list into (`Boundary.partition`): group after group through
the open group's handle, each with its index, numbered from zero (`Groups.readIndexed_ofRule`);
concatenated, which gives the list back (`Groups.concat_ofRule`); or folded group by group
(`Groups.foldGroups_ofRule`). Every reading leaves the context empty, and the one group by group
leaves every group opened.

Over a cursor on a list, `Groups.Yields` gathers what the three readings give, down to what the
cursor's rest yields afterwards: no element, and the source's result (`Groups.yields_partition`).
With the laws each rule's partition obeys, this makes `Groups.list_grouping`.
-/

set_option autoImplicit false

namespace Spool

namespace Groups

open GroupingRule

section Lifo

variable {γ β α : Type} [Context γ α] [GroupingRule β α] {toList : γ → List α} {I : γ → Prop}

omit [Context γ α] in
/-- A fresh stream has no group open, and the groups to come are those the rule cuts the whole
context into, numbered from zero. -/
@[simp] theorem cur_shape_ofRule (r₀ : β) (s : γ) (rule : β) :
    (shape toList r₀ (ofRule s rule)).cur = [] :=
  rfl

omit [Context γ α] in
@[simp] theorem groups_shape_ofRule (r₀ : β) (s : γ) (rule : β) :
    (shape toList r₀ (ofRule s rule)).groups = Boundary.partition r₀ (toList s) :=
  Boundary.map_groupsFrom r₀ 0 (toList s)

omit [Context γ α] in
@[simp] theorem indexed_shape_ofRule (r₀ : β) (s : γ) (rule : β) :
    (shape toList r₀ (ofRule s rule)).indexed = (Boundary.partition r₀ (toList s)).zipIdx :=
  Boundary.indexed_groupsFrom r₀ 0 (toList s)

/-- A reading that goes to the end leaves the context empty, and in a state of its invariant. -/
theorem rest_of_ended (h : Context.Lifo toList I) {r₀ : β} (hr : Restarts α r₀)
    {g g' : Groups γ β} (hg' : Sound toList I r₀ g')
    (he : shape toList r₀ g' = (shape toList r₀ g).ended) :
    toList (Grouped.intoRest g') = [] ∧ I (Grouped.intoRest g') :=
  ⟨(seen_of_ended h hr hg' he).2, hg'.1.1⟩

variable (h : Context.Lifo toList I) {rule : β} (hr : Restarts α (reset (α := α) rule)) {s : γ}
  (hs : I s)

include h hr hs

/-- Group after group, each drained through its handle: the groups the rule cuts the context
into, numbered from zero; afterwards every one of them is opened and the context is empty. -/
theorem readIndexed_ofRule :
    (Grouped.readIndexed (ofRule s rule)).1 =
        (Boundary.partition (reset (α := α) rule) (toList s)).zipIdx ∧
      (Grouped.readIndexed (ofRule s rule)).2.opened =
        (Boundary.partition (reset (α := α) rule) (toList s)).length ∧
      toList (Grouped.intoRest (Grouped.readIndexed (ofRule s rule)).2) = [] ∧
      I (Grouped.intoRest (Grouped.readIndexed (ofRule s rule)).2) := by
  obtain ⟨h₁, h₂, h₃⟩ := (reads h hr).readIndexed_spec (sound_ofRule hs rule) rfl
  obtain ⟨hopened, -⟩ := seen_of_ended h hr h₃ h₂
  exact ⟨h₁.trans (indexed_shape_ofRule _ s rule), hopened.trans (Nat.zero_add _),
    rest_of_ended h hr h₃ h₂⟩

/-- The concatenation of the groups is the context read to its end, which it leaves empty. -/
theorem concat_ofRule :
    (Producer.collectAll (Grouped.concat (ofRule s rule))).1 = toList s ∧
      toList (Producer.collectAll (Grouped.concat (ofRule s rule))).2 = [] ∧
      I (Producer.collectAll (Grouped.concat (ofRule s rule))).2 := by
  obtain ⟨h₁, s', hs', he, h₂⟩ := (reads h hr).concat_spec (sound_ofRule hs rule) rfl
  rw [h₂]
  refine ⟨?_, rest_of_ended h hr hs' he⟩
  rw [h₁, groups_shape_ofRule, hr.flatten_partition]

/-- One left fold per group the rule cuts the context into; the context is left empty. -/
theorem foldGroups_ofRule {δ : Type} (init : δ) (step : δ → α → δ) :
    (Producer.collectAll (Grouped.foldGroups init step (ofRule s rule))).1 =
        (Boundary.partition (reset (α := α) rule) (toList s)).map (List.foldl step init) ∧
      toList (Producer.collectAll (Grouped.foldGroups init step (ofRule s rule))).2 = [] ∧
      I (Producer.collectAll (Grouped.foldGroups init step (ofRule s rule))).2 := by
  obtain ⟨h₁, s', hs', he, h₂⟩ :=
    (reads h hr).foldGroups_spec init step (sound_ofRule hs rule) rfl
  rw [h₂]
  refine ⟨?_, rest_of_ended h hr hs' he⟩
  rw [h₁, groups_shape_ofRule]

end Lifo

section List

variable {α ρ β : Type} [GroupingRule β α]

/-- What reading every group of a cursor over `l`, whose source ends with `R`, yields under
`rule`, by each reader that drains every group: the groups `G` with their indices, after which
every group is opened and the rest yields no element and `R`; their concatenation; and one fold
per group. -/
def Yields (l : List α) (R : ρ) (rule : β) (G : List (List α)) : Prop :=
  let g₀ := ofRule (Cursor.ofProducer (Source.ofList l R) : Cursor (Source α ρ) α) rule
  (Grouped.readIndexed g₀).1 = G.zipIdx ∧ (Grouped.readIndexed g₀).2.opened = G.length ∧
    Producer.collectAll (Grouped.intoRest (Grouped.readIndexed g₀).2) = ([], R) ∧
  (Producer.collectAll (Grouped.concat g₀)).1 = G.flatten ∧
    Producer.collectAll (Producer.collectAll (Grouped.concat g₀)).2 = ([], R) ∧
  ∀ {δ : Type} (init : δ) (step : δ → α → δ),
    (Producer.collectAll (Grouped.foldGroups init step g₀)).1 = G.map (List.foldl step init) ∧
    Producer.collectAll (Producer.collectAll (Grouped.foldGroups init step g₀)).2 = ([], R)

/-- A cursor on a source yields what it reads as, and the source's result. -/
theorem collectAll_cursor {R : ρ} {c : Cursor (Source α ρ) α} (hc : c.producer.result = R) :
    Producer.collectAll c = (Cursor.contents Source.remaining c, R) :=
  (Cursor.streams (Source.streams_to R)).collectAll_eq (fun _ hd ↦ hd) hc

/-- Every reader yields the groups the rule cuts the list into. -/
theorem yields_partition {rule : β} (hr : Restarts α (reset (α := α) rule)) (l : List α)
    (R : ρ) : Yields l R rule (Boundary.partition (reset (α := α) rule) l) := by
  have h := Cursor.lifo (Source.streams_to (α := α) R)
  have hl : Cursor.contents Source.remaining
      (Cursor.ofProducer (Source.ofList l R) : Cursor (Source α ρ) α) = l := by
    simp [Cursor.contents, Cursor.ofProducer]
  obtain ⟨i₁, i₂, i₃, i₄⟩ :=
    readIndexed_ofRule h hr (s := Cursor.ofProducer (Source.ofList l R)) rfl
  obtain ⟨c₁, c₂, c₃⟩ := concat_ofRule h hr (s := Cursor.ofProducer (Source.ofList l R)) rfl
  rw [hl] at i₁ i₂ c₁
  refine ⟨i₁, i₂, by rw [collectAll_cursor i₄, i₃], by rw [c₁, hr.flatten_partition],
    by rw [collectAll_cursor c₃, c₂], fun init step ↦ ?_⟩
  obtain ⟨f₁, f₂, f₃⟩ :=
    foldGroups_ofRule h hr (s := Cursor.ofProducer (Source.ofList l R)) rfl init step
  rw [hl] at f₁
  exact ⟨f₁, by rw [collectAll_cursor f₃, f₂]⟩

/-- The groups every reader yields join to the list, and none is empty. -/
theorem yields_cut {rule : β} (hr : Restarts α (reset (α := α) rule)) (l : List α) (R : ρ) :
    Yields l R rule (Boundary.partition (reset (α := α) rule) l) ∧
      (Boundary.partition (reset (α := α) rule) l).flatten = l ∧
      ∀ g ∈ Boundary.partition (reset (α := α) rule) l, g ≠ [] :=
  ⟨yields_partition hr l R, hr.flatten_partition l,
    fun _ hg ↦ Boundary.ne_nil_of_mem_partition hg⟩

/-- Grouping a list partitions it according to each rule. Read to the end by any reader that
drains every group, a cursor over `l` yields groups `G` with indices from zero, after which every
group is opened and the rest yields no element and the source's result; the groups join to `l`
and none is empty; and:

* `runs_by same`: every element of a group after its first is related to the first, and the first
  element of the next group is not;
* `runs`: groups are uniform, and neighbouring groups differ;
* `runs_by_adjacent same`: neighbours inside a group are related, and the last element of a group
  is not related to the first of the next;
* `partitions holds`: `holds` is constant on each group and differs between neighbouring groups;
* `chunks_of n`: every group has at most `max n 1` elements, and every group but the last exactly
  that many. -/
theorem list_grouping (l : List α) (R : ρ) :
    (∀ same : α → α → Bool, ∃ G, (Yields l R ({ same := same } : RunsBy α) G ∧
        G.flatten = l ∧ ∀ g ∈ G, g ≠ []) ∧
      (∀ g ∈ G, ∀ x ∈ g.head?, ∀ b ∈ g.tail, same x b = true) ∧
      G.IsChain (fun g g' ↦ ∀ x ∈ g.head?, ∀ y ∈ g'.head?, same x y = false)) ∧
    (∀ [BEq α] [LawfulBEq α], ∃ G, (Yields l R (runs : RunsBy α) G ∧
        G.flatten = l ∧ ∀ g ∈ G, g ≠ []) ∧
      (∀ g ∈ G, ∀ x ∈ g.head?, ∀ b ∈ g, b = x) ∧
      G.IsChain (fun g g' ↦ ∀ x ∈ g.head?, ∀ y ∈ g'.head?, x ≠ y)) ∧
    (∀ same : α → α → Bool, ∃ G, (Yields l R ({ same := same } : AdjacentBy α) G ∧
        G.flatten = l ∧ ∀ g ∈ G, g ≠ []) ∧
      (∀ g ∈ G, g.IsChain (fun x y ↦ same x y = true)) ∧
      G.IsChain (fun g g' ↦ ∃ hg hg', same (g.getLast hg) (g'.head hg') = false)) ∧
    (∀ holds : α → Bool, ∃ G, (Yields l R ({ holds := holds } : Partitions α) G ∧
        G.flatten = l ∧ ∀ g ∈ G, g ≠ []) ∧
      (∀ g ∈ G, ∀ x ∈ g.head?, ∀ b ∈ g, holds b = holds x) ∧
      G.IsChain (fun g g' ↦ ∀ x ∈ g.head?, ∀ y ∈ g'.head?, holds x ≠ holds y)) ∧
    (∀ n : Nat, ∃ G, (Yields l R (Chunks.ofSize n) G ∧ G.flatten = l ∧ ∀ g ∈ G, g ≠ []) ∧
      (∀ g ∈ G, g.length ≤ max n 1) ∧ G.IsChain (fun g _ ↦ g.length = max n 1)) :=
  ⟨fun same ↦ ⟨_, yields_cut (RunsBy.restarts same) l R, RunsBy.partition_laws same l⟩,
    ⟨_, yields_cut (RunsBy.restarts _) l R, RunsBy.runs_partition_laws l⟩,
    fun same ↦ ⟨_, yields_cut (AdjacentBy.restarts same) l R, AdjacentBy.partition_laws same l⟩,
    fun holds ↦ ⟨_, yields_cut (Partitions.restarts holds) l R, Partitions.partition_laws holds l⟩,
    fun n ↦ ⟨_, yields_cut (Chunks.restarts n) l R, Chunks.partition_laws n l⟩⟩

example : (Grouped.readIndexed (ofRule
    (Cursor.ofProducer (Source.ofList [1, 1, 2] ()) : Cursor _ Nat) (runs : RunsBy Nat))).1 =
    [([1, 1], 0), ([2], 1)] := by
  decide

example : (Producer.collectAll (Grouped.foldGroups 0 (fun (n : Nat) (_ : Nat) ↦ n + 1) (ofRule
    (Cursor.ofProducer (Source.ofList [5, 6, 7, 8, 9] ()) : Cursor _ Nat) (Chunks.ofSize 2)))).1 =
    [2, 2, 1] := by
  decide

end List

end Groups

end Spool
