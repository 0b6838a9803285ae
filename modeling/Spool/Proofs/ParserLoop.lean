import Spool.Parser
import Spool.Producer.Source

/-!
# The parser loop

A parser applies its rule again and again. `Parser.Loop rule c nodes rule' c' stalled` says what
one whole run from the rule `rule` and the context `c` does, with one constructor for each way an
application can end: the rule fails, and the loop stops with the rule and the context as the failed
application left them; the rule produces a node that leaves the context's offset where it was, and
the loop stops right after that node, stalled; or the rule produces a node that moves the offset,
and the loop goes on from where the application left the rule and the context. The rule's state
goes along: each application starts from the state the one before left.

`takeNodes` and `parse` run exactly this loop. A run that stops before its fuel is spent is a run of
the loop (`Parser.takeNodes_loop`), and a run of the loop shorter than the fuel is what they
return (`Parser.takeNodes_of_loop`), so the two agree whenever the loop ends within the fuel
(`Parser.takeNodes_eq_iff_loop`). A run of the loop longer than the fuel is cut: `takeNodes` returns
its first nodes and a parser from which the loop goes on with the others
(`Parser.takeNodes_of_loop_of_le`). A stalled parser answers `none` without applying its rule
(`Parser.nextNode_of_stalled`); `Parser.parse_stops_at_failure_or_stall` gathers these facts for
`parse`, whose fuel is its node limit.

Progress is measured by the offset, which counts draws less pushbacks only down to zero. On a
context that holds more pushed-back elements than it has consumed, a node that draws one of them
leaves the offset at zero, and the loop stops after it although it consumed an element
(`Parser.parse_stalls_after_drawing_pushed_back`).
-/

set_option autoImplicit false

namespace Spool

/-- A function of the context keeps no state: its application leaves the rule as it was. -/
@[simp] theorem ParsingRule.tryParse_fun {σ ν : Type} (f : σ → Option ν × σ) (c : σ) :
    ParsingRule.tryParse f c = ((f c).1, (f c).2, f) :=
  rfl

namespace Parser

open ParsingRule (tryParse)

variable {σ α ρ ν : Type} [Context σ α] [ParsingRule ρ σ ν]

/-- The parser loop from the rule `r` and the context `c`: the nodes it produces, the rule and the
context it leaves, and whether it stops stalled. -/
inductive Loop : ρ → σ → List ν → ρ → σ → Bool → Prop
  /-- The application fails: no node, and the rule and the context as the failed application left
  them. -/
  | fail {r : ρ} {c : σ} : (tryParse r c).1 = none →
      Loop r c [] (tryParse r c).2.2 (tryParse r c).2.1 false
  /-- A node that leaves the offset where it was is the last one. -/
  | stall {r : ρ} {c : σ} {n : ν} : (tryParse r c).1 = some n →
      Context.offset (tryParse r c).2.1 = Context.offset c →
      Loop r c [n] (tryParse r c).2.2 (tryParse r c).2.1 true
  /-- A node that moves the offset, and the loop goes on from where the application left the rule
  and the context. -/
  | advance {r r' : ρ} {c c' : σ} {n : ν} {ns : List ν} {s : Bool} : (tryParse r c).1 = some n →
      Context.offset (tryParse r c).2.1 ≠ Context.offset c →
      Loop (tryParse r c).2.2 (tryParse r c).2.1 ns r' c' s → Loop r c (n :: ns) r' c' s

/-- A stalled parser answers nothing and does not apply its rule. -/
theorem nextNode_of_stalled {p : Parser σ ρ} (h : p.stalled = true) : p.nextNode = (none, p) := by
  simp [nextNode, h]

theorem nextNode_of_fail {r : ρ} {c : σ} (h : (tryParse r c).1 = none) :
    nextNode ({ context := c, rule := r } : Parser σ ρ) =
      (none, { context := (tryParse r c).2.1, rule := (tryParse r c).2.2 }) := by
  unfold nextNode
  rw [if_neg (by simp)]
  generalize tryParse r c = t at h ⊢
  obtain ⟨_ | n, c, r⟩ := t
  · rfl
  · cases h

/-- A node comes out, and the parser stalls exactly when the offset did not move. -/
theorem nextNode_of_node {r : ρ} {c : σ} {n : ν} (h : (tryParse r c).1 = some n) :
    nextNode ({ context := c, rule := r } : Parser σ ρ) = (some n, {
      context := (tryParse r c).2.1
      rule := (tryParse r c).2.2
      stalled := Context.offset (tryParse r c).2.1 == Context.offset c }) := by
  unfold nextNode
  rw [if_neg (by simp)]
  generalize tryParse r c = t at h ⊢
  obtain ⟨_ | m, c, r⟩ := t
  · cases h
  · cases h
    rfl

theorem takeNodes_of_stalled (k : Nat) {p : Parser σ ρ} (h : p.stalled = true) :
    takeNodes k p = ([], p) := by
  cases k with
  | zero => rfl
  | succ k => simp [takeNodes, nextNode_of_stalled h]

section Steps

variable {r : ρ} {c : σ} {n : ν}

/-- After a node that leaves the offset where it was, the parser stalls and gives nothing more. -/
theorem takeNodes_succ_of_stall (hr : (tryParse r c).1 = some n)
    (hoff : Context.offset (tryParse r c).2.1 = Context.offset c) (k : Nat) :
    takeNodes (k + 1) ({ context := c, rule := r } : Parser σ ρ) =
      ([n], { context := (tryParse r c).2.1, rule := (tryParse r c).2.2, stalled := true }) := by
  have hstall : (Context.offset (tryParse r c).2.1 == Context.offset c) = true := by simp [hoff]
  simp only [takeNodes, nextNode_of_node hr, hstall, takeNodes_of_stalled k
    (p := { context := (tryParse r c).2.1, rule := (tryParse r c).2.2, stalled := true }) rfl]

/-- After a node that moves the offset, the parser goes on from where the application left the
rule and the context. -/
theorem takeNodes_succ_of_advance (hr : (tryParse r c).1 = some n)
    (hoff : Context.offset (tryParse r c).2.1 ≠ Context.offset c) (k : Nat) :
    takeNodes (k + 1) ({ context := c, rule := r } : Parser σ ρ) =
      (n :: (takeNodes k ({ context := (tryParse r c).2.1, rule := (tryParse r c).2.2 } :
        Parser σ ρ)).1,
        (takeNodes k ({ context := (tryParse r c).2.1, rule := (tryParse r c).2.2 } :
          Parser σ ρ)).2) := by
  have hgo : (Context.offset (tryParse r c).2.1 == Context.offset c) = false := by simp [hoff]
  simp only [takeNodes, nextNode_of_node hr, hgo]

end Steps

/-- A run of `takeNodes` that stops before its fuel is spent is the parser loop. -/
theorem takeNodes_loop (k : Nat) (r : ρ) (c : σ)
    (hk : (takeNodes k ({ context := c, rule := r } : Parser σ ρ)).1.length < k) :
    let out := takeNodes k ({ context := c, rule := r } : Parser σ ρ)
    Loop r c out.1 out.2.rule out.2.context out.2.stalled := by
  induction k generalizing r c with
  | zero => simp at hk
  | succ k ih =>
    intro out
    rcases hr : (tryParse r c).1 with _ | n
    · -- the application fails
      simp only [out, takeNodes, nextNode_of_fail hr]
      exact .fail hr
    · by_cases hoff : Context.offset (tryParse r c).2.1 = Context.offset c
      · -- the node leaves the offset where it was: the parser stalls
        simp only [out, takeNodes_succ_of_stall hr hoff]
        exact .stall hr hoff
      · -- the node moves the offset, and the loop goes on
        rw [takeNodes_succ_of_advance hr hoff, List.length_cons] at hk
        simp only [out, takeNodes_succ_of_advance hr hoff]
        exact .advance hr hoff (ih _ _ (by omega))

/-- A run of the parser loop that produces fewer nodes than the fuel is what `takeNodes` returns. -/
theorem takeNodes_of_loop {r r' : ρ} {c c' : σ} {ns : List ν} {s : Bool}
    (h : Loop r c ns r' c' s) (k : Nat) (hk : ns.length < k) :
    takeNodes k ({ context := c, rule := r } : Parser σ ρ) =
      (ns, { context := c', rule := r', stalled := s }) := by
  induction h generalizing k with
  | fail hr =>
    obtain ⟨k, rfl⟩ : ∃ j, k = j + 1 := ⟨k - 1, by simp at hk; omega⟩
    simp only [takeNodes, nextNode_of_fail hr]
  | stall hr hoff =>
    obtain ⟨k, rfl⟩ : ∃ j, k = j + 1 := ⟨k - 1, by simp at hk; omega⟩
    exact takeNodes_succ_of_stall hr hoff k
  | advance hr hoff _ ih =>
    obtain ⟨k, rfl⟩ : ∃ j, k = j + 1 := ⟨k - 1, by simp at hk; omega⟩
    simp only [List.length_cons] at hk
    rw [takeNodes_succ_of_advance hr hoff, ih k (by omega)]

/-- Within the fuel, `takeNodes` returns exactly the runs of the parser loop. -/
theorem takeNodes_eq_iff_loop (k : Nat) (r r' : ρ) (c c' : σ) (ns : List ν) (s : Bool)
    (hk : ns.length < k) :
    takeNodes k ({ context := c, rule := r } : Parser σ ρ) =
        (ns, { context := c', rule := r', stalled := s }) ↔ Loop r c ns r' c' s := by
  constructor
  · intro h
    have hloop := takeNodes_loop k r c (by rw [h]; exact hk)
    rwa [h] at hloop
  · exact fun h ↦ takeNodes_of_loop h k hk

/-- A run of the parser loop at least as long as the fuel is cut there: `takeNodes` returns its
first nodes, and either a live parser from which the loop goes on with the other nodes, or, when
the fuel reaches exactly the node the loop stalled at, the parser the loop ends with. -/
theorem takeNodes_of_loop_of_le {r r' : ρ} {c c' : σ} {ns : List ν} {s : Bool}
    (h : Loop r c ns r' c' s) (k : Nat) (hk : k ≤ ns.length) :
    ∃ q : Parser σ ρ, takeNodes k ({ context := c, rule := r } : Parser σ ρ) = (ns.take k, q) ∧
      ((q.stalled = false ∧ Loop q.rule q.context (ns.drop k) r' c' s) ∨
        (q.stalled = true ∧ k = ns.length ∧ s = true ∧ q.context = c' ∧ q.rule = r')) := by
  induction h generalizing k with
  | fail hr =>
    obtain rfl : k = 0 := by simpa using hk
    exact ⟨_, rfl, .inl ⟨rfl, .fail hr⟩⟩
  | stall hr hoff =>
    cases k with
    | zero => exact ⟨_, rfl, .inl ⟨rfl, .stall hr hoff⟩⟩
    | succ k =>
      obtain rfl : k = 0 := by simp at hk; omega
      exact ⟨_, takeNodes_succ_of_stall hr hoff 0, .inr ⟨rfl, rfl, rfl, rfl, rfl⟩⟩
  | advance hr hoff hrest ih =>
    cases k with
    | zero => exact ⟨_, rfl, .inl ⟨rfl, .advance hr hoff hrest⟩⟩
    | succ k =>
      -- past the first node, the cut falls in the run from where that node left the parser
      simp only [List.length_cons] at hk
      obtain ⟨q, hq, hend⟩ := ih k (by omega)
      refine ⟨q, by rw [takeNodes_succ_of_advance hr hoff, hq]; rfl, ?_⟩
      simpa only [List.drop_succ_cons, List.length_cons, Nat.add_right_cancel_iff] using hend

/-- A parser stops at the first failure of its rule, or right after the first node that left the
offset where it was, and nowhere else: within its node limit, `parse` returns exactly the runs of
the parser loop, whatever state the rule keeps; a run of the loop that does not fit the limit is
cut there, `parse` returning its first nodes and a parser from which the loop goes on with the
others, or the stalled parser it ends with; and once stalled a parser answers nothing without
applying its rule again. -/
theorem parse_stops_at_failure_or_stall (rule : ρ) (c : σ) :
    (∀ p : Parser σ ρ, p.stalled = true → p.nextNode = (none, p)) ∧
    (∀ (ns : List ν) (r' : ρ) (c' : σ) (s : Bool),
      ns.length < nodeLimit ({ context := c, rule := rule } : Parser σ ρ) →
      (parse { context := c, rule := rule } = (ns, { context := c', rule := r', stalled := s }) ↔
        Loop rule c ns r' c' s)) ∧
    ∀ (ns : List ν) (r' : ρ) (c' : σ) (s : Bool), Loop rule c ns r' c' s →
      let k := nodeLimit ({ context := c, rule := rule } : Parser σ ρ)
      k ≤ ns.length → ∃ q : Parser σ ρ,
        parse { context := c, rule := rule } = (ns.take k, q) ∧
        ((q.stalled = false ∧ Loop q.rule q.context (ns.drop k) r' c' s) ∨
          (q.stalled = true ∧ k = ns.length ∧ s = true ∧ q.context = c' ∧ q.rule = r')) :=
  ⟨fun _ h ↦ nextNode_of_stalled h,
    fun ns r' c' s hk ↦ takeNodes_eq_iff_loop _ rule r' c c' ns s hk,
    fun _ _ _ _ h hk ↦ takeNodes_of_loop_of_le h _ hk⟩

/-- On a cursor holding `6` over `5` pushed back onto a source of `[1, 2]`, the parser that draws
one element at a time returns exactly the run of the loop that stops stalled after `6`. -/
theorem parse_stops_at_failure_or_stall_on_pushed_back :
    let c : Cursor (Source Nat Unit) Nat :=
      Cursor.undraw 6 (Cursor.undraw 5 (Cursor.ofProducer (Source.ofList [1, 2] ())))
    let draw := Context.draw (σ := Cursor (Source Nat Unit) Nat)
    [6].length < nodeLimit ({ context := c, rule := draw } : Parser _ _) ∧
    (parse ({ context := c, rule := draw } : Parser _ _) =
        ([6], { context := (draw c).2, rule := draw, stalled := true }) ↔
      Loop draw c [6] draw (draw c).2 true) :=
  ⟨by decide, (parse_stops_at_failure_or_stall _ _).2.1 _ _ _ _ (by decide)⟩

/-- Progress is the offset, not the elements consumed: a cursor holding two pushed-back elements
it never pulled has offset zero before and after a rule that draws one of them, so the parser
stops stalled after that node although the next application would give another. -/
theorem parse_stalls_after_drawing_pushed_back :
    let c : Cursor (Source Nat Unit) Nat :=
      Cursor.undraw 6 (Cursor.undraw 5 (Cursor.ofProducer (Source.ofList [1, 2] ())))
    let out := parse ({ context := c, rule := Context.draw (σ := Cursor (Source Nat Unit) Nat) } :
      Parser _ _)
    out.1 = [6] ∧ out.2.stalled = true ∧ (Context.draw out.2.context).1 = some 5 := by
  decide

end Parser

end Spool
