import Spool.Proofs.ParserLoop
import Spool.Proofs.Offset

/-!
# The parser ends on a finite stream

A rule that only draws, pushes back and peeks, and whose nodes never push back more than they
draw, cannot keep the parser going on a finite stream. The argument is about offsets. Along a
sequence of operations on a context that reads as a list, the list loses exactly the net count of
the operations (`Context.Lifo.length_reaches`), so from a context holding `N` elements the net
count never passes `N`; and the offset is that count truncated at zero (`Context.Ledger`). So
after each node the offset has not fallen, and it never rises more than `N` above where it
started. The parser loop goes on only after a node that moved the offset, which then rose by at
least one: at most `N` nodes can go on, and the loop ends within `N + 1` nodes, well inside the
node limit of `Parser.parse`.

A rule may keep state between its applications, so what is asked of it is asked of every state an
invariant of the rule admits, and the nodes keep that invariant. `Parser.OffsetBounded` states the
two facts the loop needs, on a set of rules and contexts closed under the nodes of the rule: nodes
never lower the offset, and the offset stays under a bound. From them the loop exists
(`Parser.OffsetBounded.loop_exists`) and has at most the bound less the offset plus one nodes
(`Parser.OffsetBounded.length_le`). `Parser.after rule c k` is the parser after the first `k`
nodes, and `Parser.Loop.after_succ` reads each node of a run off it.
`Parser.parse_ends_on_finite_stream` gathers these facts for contexts that read as a list and keep
a ledger, which every context of the library does.
-/

set_option autoImplicit false

namespace Spool

namespace Context.Lifo

variable {σ α : Type} [Context σ α] {toList : σ → List α} {I : σ → Prop}

/-- Along a sequence of operations the list loses exactly the net count, and `I` is kept. -/
theorem length_reaches (h : Lifo toList I) {s t : σ} {d : Int} (hs : I s)
    (hst : Reaches s t d) : I t ∧ ((toList t).length : Int) + d = (toList s).length := by
  induction hst with
  | refl => exact ⟨hs, by simp⟩
  | @draw t d _ ih =>
    obtain ⟨ht, hlen⟩ := ih
    -- a draw returns an element exactly when the list has one to lose
    cases hl : toList t with
    | nil =>
      obtain ⟨hnone, hnil, hinv⟩ := h.draw_nil ht hl
      refine ⟨hinv, ?_⟩
      rw [hnil, hnone]
      rw [hl] at hlen
      simpa using hlen
    | cons a rest =>
      obtain ⟨hsome, hrest, hinv⟩ := h.draw_cons ht hl
      refine ⟨hinv, ?_⟩
      rw [hrest, hsome]
      rw [hl, List.length_cons] at hlen
      simp only [Option.isSome_some, if_true]
      omega
  | undraw a _ ih =>
    obtain ⟨ht, hlen⟩ := ih
    refine ⟨h.undraw_inv a _ ht, ?_⟩
    rw [h.undraw_toList a _ ht, List.length_cons]
    omega
  | peek _ ih =>
    obtain ⟨ht, hlen⟩ := ih
    exact ⟨h.peek_inv _ ht, by rw [h.peek_snd _ ht]; exact hlen⟩

end Context.Lifo

namespace Parser

open ParsingRule (tryParse)

variable {σ α ρ ν : Type} [Context σ α] [ParsingRule ρ σ ν]

/-- The parser of the rule `r` from the context `c` after its first `k` nodes. -/
def after (r : ρ) (c : σ) (k : Nat) : Parser σ ρ :=
  (takeNodes k ({ context := c, rule := r } : Parser σ ρ)).2

section Trace

variable {r : ρ} {c : σ} {n : ν}

@[simp] theorem after_zero : after r c 0 = { context := c, rule := r } :=
  rfl

/-- After a node that moves the offset, the parser goes on from where the application left the
rule and the context. -/
theorem after_succ_of_advance (hr : (tryParse r c).1 = some n)
    (hoff : Context.offset (tryParse r c).2.1 ≠ Context.offset c) (k : Nat) :
    after r c (k + 1) = after (tryParse r c).2.2 (tryParse r c).2.1 k := by
  rw [after, takeNodes_succ_of_advance hr hoff]
  rfl

/-- Each node of a run of the loop, read off the parsers after the nodes before it: the rule gives
the `k`-th node from the parser after `k` nodes and leaves the rule and the context of the parser
after `k + 1`, and a node that is not the last moved the offset. -/
theorem Loop.after_succ {ns : List ν} {r' : ρ} {c' : σ} {s : Bool} (h : Loop r c ns r' c' s)
    {k : Nat} (hk : k < ns.length) :
    (tryParse (after r c k).rule (after r c k).context).1 = some ns[k] ∧
      (after r c (k + 1)).context = (tryParse (after r c k).rule (after r c k).context).2.1 ∧
      (after r c (k + 1)).rule = (tryParse (after r c k).rule (after r c k).context).2.2 ∧
      (k + 1 < ns.length →
        Context.offset (after r c (k + 1)).context ≠ Context.offset (after r c k).context) := by
  induction h generalizing k with
  | fail _ => simp at hk
  | @stall r c n hr hoff =>
    obtain rfl : k = 0 := by simp at hk; omega
    have hafter : after r c (0 + 1) =
        { context := (tryParse r c).2.1, rule := (tryParse r c).2.2, stalled := true } := by
      rw [after, takeNodes_succ_of_stall hr hoff]
    exact ⟨hr, by rw [hafter]; rfl, by rw [hafter]; rfl, by simp⟩
  | @advance r r' c c' n ns s hr hoff _ ih =>
    cases k with
    | zero =>
      rw [after_succ_of_advance hr hoff, after_zero, after_zero]
      exact ⟨hr, rfl, rfl, fun _ ↦ hoff⟩
    | succ k =>
      -- past the first node, the run is the run from where that node left the parser
      simp only [List.length_cons, List.getElem_cons_succ] at hk ⊢
      rw [after_succ_of_advance hr hoff, after_succ_of_advance hr hoff]
      obtain ⟨hnode, hcontext, hrule, hmoved⟩ := ih (k := k) (by omega)
      exact ⟨hnode, hcontext, hrule, fun hk' ↦ hmoved (by omega)⟩

end Trace

variable (ρ) (Good : ρ → σ → Prop) (B : Nat) in
/-- On the rules and contexts satisfying `Good`, which every node keeps, nodes never lower the
offset and the offset stays at most `B`. -/
structure OffsetBounded : Prop where
  good_node : ∀ r c, Good r c → ∀ n, (tryParse r c).1 = some n →
    Good (tryParse r c).2.2 (tryParse r c).2.1
  offset_le_node : ∀ r c, Good r c → ∀ n, (tryParse r c).1 = some n →
    Context.offset c ≤ Context.offset (tryParse r c).2.1
  offset_le : ∀ r c, Good r c → Context.offset c ≤ B

namespace OffsetBounded

variable {Good : ρ → σ → Prop} {B : Nat}

/-- A node that does not stall raises the offset by at least one. -/
theorem offset_lt_of_advance (h : OffsetBounded ρ Good B) {r : ρ} {c : σ} (hc : Good r c)
    {n : ν} (hr : (tryParse r c).1 = some n)
    (hoff : Context.offset (tryParse r c).2.1 ≠ Context.offset c) :
    Context.offset c < Context.offset (tryParse r c).2.1 :=
  lt_of_le_of_ne (h.offset_le_node r c hc n hr) (Ne.symm hoff)

/-- The parser loop ends: the offset climbs with every node that does not stall, under `B`. -/
theorem loop_exists (h : OffsetBounded ρ Good B) {r : ρ} {c : σ} (hc : Good r c) :
    ∃ ns r' c' s, Loop r c ns r' c' s := by
  -- strong induction on how far the offset is from the bound
  suffices hm : ∀ m r c, Good r c → B - Context.offset c = m →
      ∃ ns r' c' s, Loop r c ns r' c' s from
    hm _ r c hc rfl
  intro m
  induction m using Nat.strong_induction_on with
  | _ m ih =>
    intro r c hc hm
    rcases hr : (tryParse r c).1 with _ | n
    · exact ⟨[], _, _, false, .fail hr⟩
    · by_cases hoff : Context.offset (tryParse r c).2.1 = Context.offset c
      · exact ⟨[n], _, _, true, .stall hr hoff⟩
      · have hgood := h.good_node r c hc n hr
        have hlt := h.offset_lt_of_advance hc hr hoff
        have hle := h.offset_le _ _ hgood
        obtain ⟨ns, r', c', s, hl⟩ := ih _ (by omega) _ _ hgood rfl
        exact ⟨n :: ns, r', c', s, .advance hr hoff hl⟩

/-- A run of the loop from `c` has at most `B` less the offset of `c`, plus one, nodes. -/
theorem length_le (h : OffsetBounded ρ Good B) {r r' : ρ} {c c' : σ} {ns : List ν} {s : Bool}
    (hl : Loop r c ns r' c' s) (hc : Good r c) : ns.length + Context.offset c ≤ B + 1 := by
  induction hl with
  | fail _ =>
    have := h.offset_le _ _ hc
    simp only [List.length_nil]
    omega
  | stall _ _ =>
    have := h.offset_le _ _ hc
    simp only [List.length_singleton]
    omega
  | @advance r r' c c' n ns s hr hoff _ ih =>
    have hlt := h.offset_lt_of_advance hc hr hoff
    have hrest := ih (h.good_node r c hc n hr)
    simp only [List.length_cons]
    omega

/-- The parsers after the nodes of a run all hold a good rule and context. -/
theorem good_after (h : OffsetBounded ρ Good B) {r r' : ρ} {c c' : σ} {ns : List ν} {s : Bool}
    (hl : Loop r c ns r' c' s) (hc : Good r c) {k : Nat} (hk : k ≤ ns.length) :
    Good (after r c k).rule (after r c k).context := by
  induction k with
  | zero => exact hc
  | succ k ih =>
    obtain ⟨hr, hcontext, hrule, -⟩ := hl.after_succ (k := k) (by omega)
    rw [hcontext, hrule]
    exact h.good_node _ _ (ih (by omega)) _ hr

end OffsetBounded

section Ledger

variable {toList : σ → List α} {I : σ → Prop} {net : σ → Int} {J : σ → Prop} {R : ρ → Prop}

/-- From a context that reads as a list and keeps a ledger, under a rule whose nodes, from the
states of `R`, act by the context's operations, never push back more than they draw and leave the
rule in `R`: the offset is bounded on the contexts the operations reach, by where it started plus
the length of the list. -/
theorem offsetBounded_of_reaches (hl : Context.Lifo toList I) (hn : Context.Ledger net J)
    (hrule : ∀ r t, R r → I t → J t → ∀ n, (tryParse r t).1 = some n →
      R (tryParse r t).2.2 ∧ ∃ d, 0 ≤ d ∧ Context.Reaches t (tryParse r t).2.1 d)
    {c : σ} (hc : I c) (hj : J c) :
    OffsetBounded ρ (fun r t ↦ R r ∧ ∃ d, Context.Reaches c t d)
      (Context.offset c + (toList c).length) where
  good_node r t := by
    rintro ⟨hr, d, hd⟩ n hn'
    obtain ⟨hr', e, -, he⟩ :=
      hrule r t hr (hl.length_reaches hc hd).1 (hn.reaches hj hd).1 n hn'
    exact ⟨hr', _, hd.trans he⟩
  offset_le_node r t := by
    rintro ⟨hr, d, hd⟩ n hn'
    have ht := (hn.reaches hj hd).1
    obtain ⟨-, e, he0, he⟩ := hrule r t hr (hl.length_reaches hc hd).1 ht n hn'
    obtain ⟨ht', hnet⟩ := hn.reaches ht he
    rw [hn.offset_eq t ht, hn.offset_eq _ ht', hnet]
    omega
  offset_le r t := by
    rintro ⟨-, d, hd⟩
    -- the net count `d` is at most the length of the list at the start
    have hlen := (hl.length_reaches hc hd).2
    obtain ⟨ht, hnet⟩ := hn.reaches hj hd
    rw [hn.offset_eq t ht, hn.offset_eq c hj, hnet]
    omega

/-- The node limit of a parser over a context that reads as a list leaves room for more nodes
than the list has elements. -/
theorem length_add_one_lt_nodeLimit (hl : Context.Lifo toList I) (rule : ρ) {c : σ} (hc : I c) :
    (toList c).length + 1 < nodeLimit ({ context := c, rule := rule } : Parser σ ρ) := by
  have hsupply := hl.length_le_supply c hc
  unfold nodeLimit spareFactor
  dsimp only
  omega

/-- The parser ends on a finite stream. Over a context holding `N` elements, which reads as a list
and keeps a ledger, and under a rule whose nodes act by the context's operations and never push
back more than they draw, in every state `R` admits, which holds at the start and which its nodes
keep: the parser loop ends and `parse` returns it, with at most `N + 1` nodes; no node lowers the
offset, each node before the last raises it by at least one, and it never rises more than `N`
above where it started. -/
theorem parse_ends_on_finite_stream (hl : Context.Lifo toList I) (hn : Context.Ledger net J)
    (rule : ρ) (hR : R rule)
    (hrule : ∀ r t, R r → I t → J t → ∀ n, (tryParse r t).1 = some n →
      R (tryParse r t).2.2 ∧ ∃ d, 0 ≤ d ∧ Context.Reaches t (tryParse r t).2.1 d)
    {c : σ} (hc : I c) (hj : J c) :
    ∃ ns r' c' s, Loop rule c ns r' c' s ∧
      parse { context := c, rule := rule } = (ns, { context := c', rule := r', stalled := s }) ∧
      ns.length ≤ (toList c).length + 1 ∧
      (∀ k, k < ns.length → Context.offset (after rule c k).context ≤
        Context.offset (after rule c (k + 1)).context) ∧
      (∀ k, k + 1 < ns.length → Context.offset (after rule c k).context + 1 ≤
        Context.offset (after rule c (k + 1)).context) ∧
      ∀ k, k ≤ ns.length →
        Context.offset (after rule c k).context ≤ Context.offset c + (toList c).length := by
  have hb := offsetBounded_of_reaches hl hn hrule hc hj
  have hstart : R rule ∧ ∃ d, Context.Reaches c c d := ⟨hR, 0, .refl⟩
  obtain ⟨ns, r', c', s, hloop⟩ := hb.loop_exists hstart
  have hlen : ns.length ≤ (toList c).length + 1 := by
    have := hb.length_le hloop hstart
    omega
  -- every node starts from a parser whose rule and context are good, where the offset cannot fall
  have hnode : ∀ k (hk : k < ns.length), Context.offset (after rule c k).context ≤
      Context.offset (after rule c (k + 1)).context := by
    intro k hk
    obtain ⟨hr, hcontext, -, -⟩ := hloop.after_succ hk
    rw [hcontext]
    exact hb.offset_le_node _ _ (hb.good_after hloop hstart hk.le) _ hr
  refine ⟨ns, r', c', s, hloop, ?_, hlen, hnode, fun k hk ↦ ?_, fun k hk ↦ ?_⟩
  · exact takeNodes_of_loop hloop _ (by have := length_add_one_lt_nodeLimit hl rule hc; omega)
  · have hne := (hloop.after_succ (k := k) (by omega)).2.2.2 hk
    have hle := hnode k (by omega)
    omega
  · exact hb.offset_le _ _ (hb.good_after hloop hstart hk)

end Ledger

/-- A parser that draws one element per node, over a cursor on three elements, returns at most
four nodes. -/
theorem parse_ends_on_finite_stream_of_list :
    let c : Cursor (Source Nat Unit) Nat := Cursor.ofProducer (Source.ofList [1, 2, 3] ())
    let draw := Context.draw (σ := Cursor (Source Nat Unit) Nat)
    (parse ({ context := c, rule := draw } : Parser _ _)).1.length ≤ 4 := by
  intro c draw
  obtain ⟨ns, r', c', s, -, hparse, hlen, -⟩ := parse_ends_on_finite_stream
    (Cursor.lifo (Source.streams (α := Nat) (ρ := Unit))) Cursor.ledger draw
    (R := fun r ↦ r = draw) rfl
    (fun r t hr _ _ n hn ↦ by
      subst hr
      exact ⟨rfl, _, by split <;> omega, Context.Reaches.refl.draw⟩)
    (c := c) trivial trivial
  rw [hparse]
  exact hlen

end Parser

end Spool
