import Spool.Proofs.Windows
import Spool.Proofs.ListGrouping

/-!
# Chains of windows as chains of list windows

`Grouped.withWindows` puts windows (`GroupWindow`) on a group stream in order, the first innermost.
On a list of groups, each with its index, the same windows are `List.take`, `List.drop` and
`List.filter` on the index (`GroupWindow.onList`), and a chain of them is `GroupWindow.chain`, which
also counts the groups of the base the chain forces when it is evaluated lazily and read to its end
(`GroupWindow.forced`): a group handed out forces the base up to its own index, and the end forces
what the end of the input forces, except that a take stops forcing its input once it has handed out
its last group. Everything here holds for elements of any type and for any condition on the index;
a script's windows are these (`WindowSpec.toWindow`).

Windows of the stream read as windows of its shape (`GroupWindow.onShape`), so every reading of a
chain is a reading of a shape (`Grouped.withWindows_spec`). On the groups of a cursor over a list,
the shape at the end of the chain holds the groups of the list chain and stops where the lazy list
stops (`GroupWindow.Models.windows`, from `GroupWindow.models_ofRule`). With the base borrowed so
that it can be asked afterwards (`GroupWindow.readThrough`), reading every delivered group to its
end, group by group with its index, concatenated, with a separator between groups, or folded
group by group, yields what the list chain gives; the base has then opened as many groups as the
lazy list forced, and its rest yields the groups after those, then the source's result
(`GroupWindow.windows_read_as_list_chain`).
-/

set_option autoImplicit false

namespace Spool

namespace GroupWindow

variable {α : Type}

/-- The window on a list of groups, each with its index: the first `n`, all but the first `n`, or
those whose index satisfies the condition. -/
def onList : GroupWindow → List (List α × Nat) → List (List α × Nat)
  | .take n, gs => gs.take n
  | .drop n, gs => gs.drop n
  | .filter select, gs => gs.filter fun g ↦ select g.2

/-- How many groups of the base the window forces, its output read to the end lazily, when its
input is `gs` and the end of its input forces `e` of them. A group forces the base up to its own
index; a take of `n` stops once it has handed out `n` groups, and forces what the end of its input
forces only when there are fewer. -/
def forced : GroupWindow → List (List α × Nat) → Nat → Nat
  | .take 0, _, _ => 0
  | .take (n + 1), gs, e => (gs[n]?.map (·.2 + 1)).getD e
  | .drop _, _, e => e
  | .filter _, _, e => e

/-- The windows applied in order to the indexed groups `gs`, whose end forces `e` groups of the
base: the groups handed out, and how many groups of the base their end forces. -/
def chain (ws : List GroupWindow) (gs : List (List α × Nat)) (e : Nat) :
    List (List α × Nat) × Nat :=
  ws.foldl (fun acc w ↦ (w.onList acc.1, w.forced acc.1 acc.2)) (gs, e)

@[simp] theorem chain_nil (gs : List (List α × Nat)) (e : Nat) : chain [] gs e = (gs, e) :=
  rfl

@[simp] theorem chain_cons (w : GroupWindow) (ws : List GroupWindow) (gs : List (List α × Nat))
    (e : Nat) :
    chain (w :: ws) gs e = chain ws (w.onList gs) (w.forced gs e) :=
  rfl

example : chain [.drop 1, .take 1] [([7], 0), ([8, 9], 1), ([5], 2)] 3 = ([([8, 9], 1)], 2) := by
  decide

example : chain [.filter (· % 2 == 0), .take 1] [([7], 0), ([8, 9], 1), ([5], 2)] 3 =
    ([([7], 0)], 1) := by
  decide

section Shapes

variable {ω : Type}

/-- The window on a group stream's shape. -/
def onShape : GroupWindow → Grouped.Shape α ω → Grouped.Shape α ω
  | .take n, x => x.take n
  | .drop n, x => x.drop n
  | .filter select, x => x.filter select

/-- A window keeps the open group. -/
@[simp] theorem cur_onShape (w : GroupWindow) (x : Grouped.Shape α ω) :
    (w.onShape x).cur = x.cur := by
  cases w <;> rfl

theorem cur_foldl_onShape (ws : List GroupWindow) (x : Grouped.Shape α ω) :
    (ws.foldl (fun x w ↦ w.onShape x) x).cur = x.cur := by
  induction ws generalizing x with
  | nil => rfl
  | cons w ws ih => rw [List.foldl_cons, ih, cur_onShape]

/-- The shape `x` holds the indexed groups `gs`, and its end forces `e` groups of the base: before
any group it sees `obsAt 0`, once a group is read `obsAt` of its index plus one, and once no group
is left `obsAt e`. -/
structure Models (obsAt : Nat → ω) (x : Grouped.Shape α ω) (gs : List (List α × Nat)) (e : Nat) :
    Prop where
  done_eq : x.done = obsAt 0
  next_eq : x.next = gs.map fun g ↦ (g.2, g.1, obsAt (g.2 + 1))
  final_eq : x.final = obsAt e

variable {obsAt : Nat → ω} {x : Grouped.Shape α ω} {gs : List (List α × Nat)} {e : Nat}

theorem Models.indexed_eq (h : Models obsAt x gs e) : x.indexed = gs := by
  simp [Grouped.Shape.indexed, h.next_eq, Function.comp_def]

/-- A window of the shape holds the window of the list, and ends where the lazy window does. -/
theorem Models.window (h : Models obsAt x gs e) (w : GroupWindow) :
    Models obsAt (w.onShape x) (w.onList gs) (w.forced gs e) := by
  cases w with
  | take n =>
    refine ⟨h.done_eq, by simp [onShape, onList, Grouped.Shape.take, h.next_eq, List.map_take], ?_⟩
    cases n with
    | zero => exact h.done_eq
    | succ n =>
      -- the take ends where its last group leaves the base, or where its input ends
      show ((x.done :: x.next.map (·.2.2))[n + 1]?).getD x.final =
        obsAt ((gs[n]?.map (·.2 + 1)).getD e)
      rw [h.next_eq, h.final_eq]
      cases hg : gs[n]? <;> simp [hg]
  | drop n =>
    exact ⟨h.done_eq, by simp [onShape, onList, Grouped.Shape.drop, h.next_eq, List.map_drop],
      h.final_eq⟩
  | filter select =>
    exact ⟨h.done_eq, by simp [onShape, onList, Grouped.Shape.filter, h.next_eq, List.filter_map,
      Function.comp_def], h.final_eq⟩

/-- The windows of the shape hold the chain of the list windows. -/
theorem Models.windows (h : Models obsAt x gs e) (ws : List GroupWindow) :
    Models obsAt (ws.foldl (fun x w ↦ w.onShape x) x) (chain ws gs e).1 (chain ws gs e).2 := by
  induction ws generalizing x gs e with
  | nil => exact h
  | cons w ws ih => exact ih (h.window w)

end Shapes

end GroupWindow

namespace Grouped

variable {α ρ ω R : Type}

open GroupWindow

/-- The windows of a stream that reads as a shape read as the windows of the shape. `P` holds of
what a continuation makes of the chain if the continuation makes it hold of every stream that reads
as the windows of the shape, with `Rel` between what the stream sees and its rest. -/
theorem withWindows_spec (Rel : ω → ρ → Prop) (P : R → Prop)
    (k : {υ : Type} → [Grouped υ α ρ] → υ → R) (ws : List GroupWindow) :
    ∀ {τ : Type} [Grouped τ α ρ] {obs : τ → ω} {shape : τ → Shape α ω}
      {Inv : τ → Prop} {t : τ}, Reads obs shape Inv →
      (∀ u, Inv u → Rel (obs u) (intoRest u)) → Inv t → (shape t).cur = [] →
      (∀ {υ : Type} [Grouped υ α ρ] {obs' : υ → ω} {shape' : υ → Shape α ω}
        {Inv' : υ → Prop} {u : υ}, Reads obs' shape' Inv' →
        (∀ u, Inv' u → Rel (obs' u) (intoRest u)) → Inv' u →
        shape' u = ws.foldl (fun x w ↦ w.onShape x) (shape t) → P (k u)) →
      P (withWindows ws t k) := by
  induction ws with
  | nil => exact fun h hrel ht _ hk ↦ hk h hrel ht rfl
  | cons w ws ih =>
    intro τ _ obs shape Inv t h hrel ht hc hk
    -- each window is one more layer that reads as the window of the shape underneath
    cases w with
    | take n =>
      exact ih (TakeGroups.reads h) (fun u hu ↦ hrel u.inner hu.1) ⟨ht, fun _ ↦ hc⟩ hc hk
    | drop n => exact ih (DropGroups.reads h) (fun u hu ↦ hrel u.inner hu) ht hc hk
    | filter select => exact ih (FilterGroups.reads h) (fun u hu ↦ hrel u.inner hu) ht hc hk

end Grouped

namespace GroupWindow

section Base

variable {α β ρ : Type} [GroupingRule β α]

open GroupingRule

/-- On a context that reads as its list, the base shape holds the groups `r₀` cuts the list into,
numbered from zero: once a group is read as many groups are opened as its index plus one, and the
parent holds the groups after it; the end forces every group. -/
theorem models_groups {σ : Type} [Context σ α] (toList : σ → List α) {r₀ : β}
    (hr : Restarts α r₀) (s : σ) (rule : β) :
    Models (fun n ↦ (n, ((Boundary.partition r₀ (toList s)).drop n).flatten))
      (Groups.shape toList r₀ (Groups.ofRule s rule))
      (Boundary.partition r₀ (toList s)).zipIdx (Boundary.partition r₀ (toList s)).length := by
  have hl : Groups.after toList (Groups.ofRule s rule) = toList s := rfl
  have hopened : (Groups.ofRule s rule).opened = 0 := rfl
  refine ⟨?_, ?_, ?_⟩
  · simp [Groups.shape, hopened, hl, hr.flatten_partition]
  · simp [Groups.shape, hopened, hl, hr.groupsFrom_eq]
  · simp [Groups.shape, hopened, hl]

/-- On a cursor over `l`, the base shape holds the groups `r₀` cuts `l` into. -/
theorem models_ofRule {r₀ : β} (hr : Restarts α r₀) (l : List α) (R : ρ) (rule : β) :
    Models (fun n ↦ (n, ((Boundary.partition r₀ l).drop n).flatten))
      (Groups.shape (Cursor.contents Source.remaining) r₀
        (Groups.ofRule (Cursor.ofProducer (Source.ofList l R)) rule))
      (Boundary.partition r₀ l).zipIdx (Boundary.partition r₀ l).length := by
  have hl : Cursor.contents Source.remaining
      (Cursor.ofProducer (Source.ofList l R) : Cursor (Source α ρ) α) = l := by
    simp [Cursor.contents, Cursor.ofProducer]
  simpa only [hl] using models_groups (Cursor.contents Source.remaining) hr
    (Cursor.ofProducer (Source.ofList l R)) rule

/-- The windows `ws` on the groups `rule` cuts a cursor over `l` into, with the base borrowed, read
by `read`; then how many groups the base has opened, and what its rest yields read to the end. -/
def readThrough {A : Type} (rule : β) (ws : List GroupWindow) (l : List α) (R : ρ)
    (read : {υ : Type} → [Grouped υ α (Groups (Cursor (Source α ρ) α) β)] → υ →
      A × Groups (Cursor (Source α ρ) α) β) : A × Nat × (List α × ρ) :=
  Grouped.withWindows ws
    (Borrow.mk (Groups.ofRule (Cursor.ofProducer (Source.ofList l R) : Cursor _ α) rule))
    fun t ↦ ((read t).1, (read t).2.opened, Producer.collectAll (Grouped.intoRest (read t).2))

variable {rule : β} (hr : Restarts α (reset (α := α) rule))

include hr

/-- A reading through the windows that, on every stream reading as a shape with no group open,
answers `answer` of its indexed groups and ends the stream, answers `answer` of the groups the
list chain hands out; the base has then opened as many groups as the lazy chain forces, and its
rest yields the groups after those, then the source's result. -/
theorem readThrough_eq {A : Type} (ws : List GroupWindow) (l : List α) (R : ρ)
    (read : {υ : Type} → [Grouped υ α (Groups (Cursor (Source α ρ) α) β)] → υ →
      A × Groups (Cursor (Source α ρ) α) β)
    (answer : List (List α × Nat) → A)
    (hread : ∀ {υ : Type} [Grouped υ α (Groups (Cursor (Source α ρ) α) β)]
      {obs : υ → Nat × List α} {shape : υ → Grouped.Shape α (Nat × List α)}
      {Inv : υ → Prop} {u : υ}, Grouped.Reads obs shape Inv → Inv u → (shape u).cur = [] →
      (read u).1 = answer (shape u).indexed ∧
        ∃ u', Inv u' ∧ shape u' = (shape u).ended ∧ (read u).2 = Grouped.intoRest u') :
    let P := Boundary.partition (reset (α := α) rule) l
    let out := chain ws P.zipIdx P.length
    readThrough rule ws l R read = (answer out.1, out.2, ((P.drop out.2).flatten, R)) := by
  intro P out
  have h := Cursor.lifo (Source.streams_to (α := α) R)
  refine Grouped.withWindows_spec
    (fun o g ↦ o = Groups.seen (Cursor.contents Source.remaining) g ∧
      (Grouped.intoRest g).producer.result = R)
    (fun r ↦ r = (answer out.1, out.2, ((P.drop out.2).flatten, R))) _ ws
    (Borrow.reads (Groups.reads h hr)) (fun b hb ↦ ⟨rfl, hb.1.1⟩)
    (Groups.sound_ofRule (I := fun c : Cursor (Source α ρ) α ↦ c.producer.result = R)
      rfl rule) rfl ?_
  intro υ _ obs shape Inv u hreads hrel hu hshape
  have hm : Models _ (shape u) out.1 out.2 := hshape ▸ (models_ofRule hr l R rule).windows ws
  have hc : (shape u).cur = [] := by rw [hshape, cur_foldl_onShape]; rfl
  obtain ⟨h₁, u', hu', hend, h₂⟩ := hread hreads hu hc
  -- once the reading is over, the base sees where the lazy chain stops
  have hobs : obs u' = (out.2, (P.drop out.2).flatten) := by
    rw [hreads.obs_spec u' hu' (by rw [hend]; rfl), hend]
    exact hm.final_eq
  obtain ⟨hseen, hresult⟩ := hrel u' hu'
  rw [hobs] at hseen
  simp only [Groups.seen, Prod.mk.injEq] at hseen
  show ((read u).1, (read u).2.opened, Producer.collectAll (Grouped.intoRest (read u).2)) = _
  rw [h₁, h₂, hm.indexed_eq, Groups.collectAll_cursor hresult]
  exact Prod.ext rfl (Prod.ext hseen.1.symm (Prod.ext hseen.2.symm rfl))

/-- Windows on the groups of a list read as the same windows on the list of its indexed groups.
Let `P` be the groups the rule cuts `l` into, numbered from zero; the windows `ws` applied in order
with `List.take`, `List.drop` and `List.filter` on the index hand out the groups `out.1`, and,
evaluated lazily, force `out.2` groups of `P`. Every delivered group read to its end, the stream
hands out `out.1`, each group with its index in `P`; concatenated, the contents of `out.1`; with
`sep` between groups, those contents with `sep` between consecutive ones; folded group by group,
one left fold per group of `out.1`. Each reading leaves the base with `out.2` groups opened, and
its rest yields the groups of `P` after those, then the source's result. -/
theorem windows_read_as_list_chain (ws : List GroupWindow) (l : List α) (R : ρ) :
    let P := Boundary.partition (reset (α := α) rule) l
    let out := chain ws P.zipIdx P.length
    let rest := ((P.drop out.2).flatten, R)
    readThrough rule ws l R (fun t ↦
        ((Grouped.readIndexed t).1, Grouped.intoRest (Grouped.readIndexed t).2)) =
      (out.1, out.2, rest) ∧
    readThrough rule ws l R (fun t ↦ Producer.collectAll (Grouped.concat t)) =
      ((out.1.map Prod.fst).flatten, out.2, rest) ∧
    (∀ sep : List α, readThrough rule ws l R
        (fun t ↦ Producer.collectAll (Grouped.intercalate sep t)) =
      (sep.intercalate (out.1.map Prod.fst), out.2, rest)) ∧
    ∀ {δ : Type} (init : δ) (step : δ → α → δ), readThrough rule ws l R
        (fun t ↦ Producer.collectAll (Grouped.foldGroups init step t)) =
      (out.1.map fun g ↦ g.1.foldl step init, out.2, rest) := by
  intro P out rest
  refine ⟨readThrough_eq hr ws l R _ id fun h hu hc ↦ ?_,
    readThrough_eq hr ws l R _ (fun gs ↦ (gs.map Prod.fst).flatten) fun h hu hc ↦ ?_,
    fun sep ↦ readThrough_eq hr ws l R _ (fun gs ↦ sep.intercalate (gs.map Prod.fst))
      fun h hu hc ↦ ?_,
    fun init step ↦ readThrough_eq hr ws l R _ (fun gs ↦ gs.map fun g ↦ g.1.foldl step init)
      fun h hu hc ↦ ?_⟩
  · obtain ⟨h₁, h₂, h₃⟩ := h.readIndexed_spec hu hc
    exact ⟨h₁, _, h₃, h₂, rfl⟩
  · obtain ⟨h₁, h₂⟩ := h.concat_spec hu hc
    exact ⟨by rw [h₁, ← Grouped.Shape.map_fst_indexed], h₂⟩
  · obtain ⟨h₁, h₂⟩ := h.intercalate_spec sep hu hc
    exact ⟨by rw [h₁, ← Grouped.Shape.map_fst_indexed], h₂⟩
  · obtain ⟨h₁, h₂⟩ := h.foldGroups_spec init step hu hc
    exact ⟨by rw [h₁, ← Grouped.Shape.map_fst_indexed, List.map_map]; rfl, h₂⟩

end Base

theorem windows_read_as_list_chain_of_chunks :
    let P := Boundary.partition (GroupingRule.reset (α := Nat) (Chunks.ofSize 2)) [1, 2, 3, 4, 5]
    let out := chain [.filter (· != 0), .take 1] P.zipIdx P.length
    readThrough (Chunks.ofSize 2) [.filter (· != 0), .take 1] [1, 2, 3, 4, 5] ()
        (fun t ↦ Producer.collectAll (Grouped.concat t)) =
      ((out.1.map Prod.fst).flatten, out.2, ((P.drop out.2).flatten, ())) :=
  (windows_read_as_list_chain (Chunks.restarts 2) _ _ _).2.1

example : readThrough (Chunks.ofSize 2) [.filter (· != 0), .take 1] [1, 2, 3, 4, 5, 6, 7] ()
    (fun t ↦ Producer.collectAll (Grouped.concat t)) = ([3, 4], 2, ([5, 6, 7], ())) := by
  decide

end GroupWindow

end Spool
