import Spool.Proofs.Fused

/-!
# What an input delivers

A byte or line producer over a reader streams no list given in advance: what it delivers is what
its pulls hand out before the first `none`, at the end of the input or at a failure. This module
shows that such a producer streams exactly that list, `(Producer.elements p).1`, and how its
result follows the pulls made.

`Producer.StopsOn.streams` is the general fact: a producer that stays ended after its first
`none`, and whose supply drops with every element it hands out, streams what it delivers. The
byte producer is such a producer (`Io.Bytes.streams`): one byte handed out is one byte less in the
reader. So is the line producer (`Io.Lines.streams`): every byte `readUntil` gathers comes out of
the buffer or the reader (`Io.Buffered.size_readUntil`), and a line is handed out only when some
were gathered. `Producer.Streams.finish_advance` then says what the result is after any number of
pulls: the result of a live stream until the pull past the last element, and the result the
producer ends with from then on (`Io.Bytes.finish_advance`, `Io.Lines.finish_advance`).
-/

set_option autoImplicit false

namespace Spool

namespace Producer

variable {π α ρ : Type} [Producer π α ρ] {Inv : π → Prop}

theorem collectAll_fst (p : π) : (collectAll p).1 = (elements p).1 :=
  rfl

theorem collectAll_snd (p : π) : (collectAll p).2 = drain p :=
  rfl

section Delivered

variable (h : StopsOn Inv)
  (hsupply : ∀ p, Inv p → ∀ a, (pull p).1 = some a → supply (pull p).2 < supply p)
include h hsupply

/-- With more pulls than the supply, the elements pulled no longer depend on how many more. -/
theorem pullUpTo_fst_eq {n m : Nat} {p : π} (hp : Inv p) (hn : supply p < n) (hm : supply p < m) :
    (pullUpTo n p).1 = (pullUpTo m p).1 := by
  induction n generalizing p m with
  | zero => omega
  | succ n ih =>
    obtain ⟨m, rfl⟩ : ∃ m', m = m' + 1 := ⟨m - 1, by omega⟩
    unfold pullUpTo
    have hlt := hsupply p hp
    have hinv := h.pull_inv p hp
    -- with nothing handed out both sides are empty; otherwise the supply has dropped below both
    -- counts
    rcases hd : pull p with ⟨_ | a, p'⟩ <;> rw [hd] at hlt hinv
    · have hs := hlt a rfl
      dsimp only at hs hinv ⊢
      rw [ih hinv (by omega) (show supply p' < m by omega)]

/-- A producer hands out no more elements than its supply. -/
theorem length_pullUpTo_le (n : Nat) {p : π} (hp : Inv p) : (pullUpTo n p).1.length ≤ supply p := by
  induction n generalizing p with
  | zero => exact Nat.zero_le _
  | succ n ih =>
    unfold pullUpTo
    have hlt := hsupply p hp
    have hinv := h.pull_inv p hp
    rcases hd : pull p with ⟨_ | a, p'⟩ <;> rw [hd] at hlt hinv
    · exact Nat.zero_le _
    · have hs := hlt a rfl
      dsimp only at hs hinv ⊢
      have hle := ih hinv
      simp only [List.length_cons]
      omega

/-- A producer that stays ended after its first `none`, and whose supply drops with every element
it hands out, streams the elements it delivers. -/
theorem StopsOn.streams : Streams (fun p ↦ (elements p).1) Inv where
  pull_fst p _ := by
    show (pull p).1 = (pullUpTo (supply p + 1) p).1.head?
    unfold pullUpTo
    rcases pull p with ⟨_ | a, p'⟩ <;> rfl
  pull_snd p hp := by
    show (pullUpTo (supply (pull p).2 + 1) (pull p).2).1 = (pullUpTo (supply p + 1) p).1.tail
    have hlt := hsupply p hp
    have hstop := h.stop p hp
    have hinv := h.pull_inv p hp
    conv_rhs => unfold pullUpTo
    rcases hd : pull p with ⟨_ | a, p'⟩ <;> rw [hd] at hlt hstop hinv
    · -- the producer has ended, and hands out nothing more
      unfold pullUpTo
      rw [hstop rfl]
      rfl
    · have hs := hlt a rfl
      dsimp only at hs hinv ⊢
      exact pullUpTo_fst_eq h hsupply hinv (by omega) (by omega)
  pull_inv p hp := h.pull_inv p hp
  length_le_supply p hp := length_pullUpTo_le h hsupply _ hp

end Delivered

variable {toList : π → List α}

/-- Before a producer has handed out its last element its result is that of a live producer; from
the pull past its last element on, it is the result the producer ends with. -/
theorem Streams.finish_advance (hs : Streams toList Inv) (h : StopsOn Inv) {Live : π → Prop}
    {R₀ : ρ} (hlive : ∀ p, Inv p → Live p → ∀ a, (pull p).1 = some a → Live (pull p).2)
    (hfin : ∀ p, Inv p → Live p → finish p = R₀) {p : π} (hp : Inv p) (hl : Live p) (k : Nat) :
    finish (advance k p) = if k ≤ (toList p).length then R₀ else drain p := by
  by_cases hk : k ≤ (toList p).length
  · -- every pull so far handed out an element, so the producer is still live
    have hlk : ∀ i ≤ k, Live (advance i p) := by
      intro i hi
      induction i with
      | zero => exact hl
      | succ i ih =>
        have hsome : (pull (advance i p)).1 = (toList p)[i]? := hs.pull_advance i hp
        obtain ⟨a, ha⟩ : ∃ a, (toList p)[i]? = some a :=
          Option.isSome_iff_exists.mp (by simp; omega)
        rw [advance_succ']
        exact hlive _ (hs.advance_spec i hp).2 (ih (by omega)) a (hsome.trans ha)
    rw [if_pos hk]
    exact hfin _ (hs.advance_spec k hp).2 (hlk k le_rfl)
  · -- past the last element the producer stays where its first `none` left it
    have hnone : (pull (advance (toList p).length p)).1 = none := by
      rw [hs.pull_advance _ hp]
      simp
    have hstay := (h.stops hp).advance_eq hnone (k - ((toList p).length + 1))
    rw [show (toList p).length + 1 + (k - ((toList p).length + 1)) = k by omega] at hstay
    rw [if_neg hk, hstay, hs.drain_eq hp]

end Producer

namespace Io

namespace Reader

/-- A read that hands out a piece moves the reader on by its size. -/
theorem left_read_of_ok {want : Nat} {r r' : Reader} {piece : Array UInt8}
    (h : r.read want = (.ok piece, r')) : r'.left + piece.size = r.left := by
  unfold read at h
  split at h
  · cases h
  · split at h
    · cases h
    · simp only [Prod.mk.injEq, Except.ok.injEq] at h
      obtain ⟨rfl, rfl⟩ := h
      simp only [left, Array.size_extract]
      have hstop : r.stop ≤ r.bytes.size := Nat.min_le_left _ _
      omega

/-- A read that fails hands out nothing. -/
theorem left_read_of_error {want : Nat} {r r' : Reader} {e : IoError}
    (h : r.read want = (.error e, r')) : r'.left = r.left := by
  unfold read at h
  split at h
  · simp only [Prod.mk.injEq] at h
    obtain ⟨-, rfl⟩ := h
    rfl
  · split at h
    · simp only [Prod.mk.injEq] at h
      obtain ⟨-, rfl⟩ := h
      rfl
    · cases h

end Reader

namespace Bytes

/-- A byte read is one byte less in the reader. -/
theorem left_readByte_of_some {n : Nat} {r r' : Reader} {b : UInt8}
    (h : readByte n r = (.ok (some b), r')) : r'.left < r.left := by
  induction n generalizing r with
  | zero => cases h
  | succ n ih =>
    unfold readByte at h
    rcases hread : r.read 1 with ⟨e | piece, r₁⟩ <;> rw [hread] at h <;> dsimp only at h
    · -- an interruption hands out nothing, and the read is made again
      have hleft := Reader.left_read_of_error hread
      by_cases hk : e.kind = .interrupted
      · rw [if_pos hk] at h
        exact hleft ▸ ih h
      · rw [if_neg hk] at h
        cases h
    · -- a piece with a first byte is at least one byte long
      simp only [Prod.mk.injEq, Except.ok.injEq] at h
      obtain ⟨hb, rfl⟩ := h
      have hleft := Reader.left_read_of_ok hread
      have hpos : 0 < piece.size := by
        by_contra hzero
        rw [Array.getElem?_eq_none (by omega)] at hb
        cases hb
      omega

theorem supply_eq (p : Bytes) : Producer.supply p = if p.done then 0 else p.reader.left :=
  rfl

/-- A byte is handed out only by a live stream, from a read that found it; the stream keeps all
but its reader. -/
theorem pull_of_some {p : Bytes} {b : UInt8} (h : (pull p).1 = some b) :
    p.done = false ∧ ∃ r, readByte p.reader.budget p.reader = (.ok (some b), r) ∧
      (pull p).2 = { p with reader := r } := by
  cases hd : p.done with
  | true => rw [pull_of_done hd] at h; cases h
  | false =>
    refine ⟨rfl, ?_⟩
    unfold pull at h ⊢
    rw [hd, if_neg (by simp)] at h ⊢
    rcases hr : readByte p.reader.budget p.reader with ⟨e | (_ | b'), r⟩ <;> rw [hr] at h <;>
      dsimp only at h
    · cases h
    · cases h
    · cases h
      exact ⟨r, rfl, rfl⟩

/-- A byte handed out is one byte less to come. -/
theorem supply_pull_lt {p : Bytes} {b : UInt8} (h : (pull p).1 = some b) :
    Producer.supply (pull p).2 < Producer.supply p := by
  obtain ⟨hd, r, hr, heq⟩ := pull_of_some h
  rw [heq, supply_eq, supply_eq]
  simp only [hd, Bool.false_eq_true, if_false]
  exact left_readByte_of_some hr

/-- No failure is kept while the stream is live. -/
def Consistent (p : Bytes) : Prop :=
  p.done = false → p.error = none

theorem stopsOn_consistent : Producer.StopsOn Consistent where
  pull_inv p hp := by
    show Consistent (pull p).2
    cases hn : (pull p).1 with
    | none => exact fun hlive ↦ absurd (done_of_pull_none hn) (by rw [hlive]; decide)
    | some b =>
      obtain ⟨hlive, r, -, heq⟩ := pull_of_some hn
      rw [heq]
      exact fun _ ↦ hp hlive
  stop p _ h := pull_of_done (done_of_pull_none h)

/-- The byte producer streams the bytes it delivers. -/
theorem streams : Producer.Streams (fun p : Bytes ↦ (Producer.elements p).1) Consistent :=
  stopsOn_consistent.streams fun _ _ _ hb ↦ supply_pull_lt hb

/-- The result of a live byte stream after `k` pulls: success while they hand out bytes, and from
the pull past the last byte on, the end of the input or the failure the stream met. -/
theorem finish_advance {p : Bytes} (hp : p.done = false) (herr : p.error = none) (k : Nat) :
    Producer.finish (Producer.advance k p) =
      if k ≤ (Producer.elements p).1.length then .ok () else Producer.drain p := by
  have hlive : ∀ q : Bytes, Consistent q → q.done = false →
      ∀ b, (Producer.pull q).1 = some b → (Producer.pull q).2.done = false := by
    intro q _ hq b hb
    obtain ⟨-, r, -, heq⟩ := pull_of_some hb
    show (pull q).2.done = false
    rw [heq]
    exact hq
  have hfin : ∀ q : Bytes, Consistent q → q.done = false → Producer.finish q = .ok () := by
    intro q hc hq
    show Bytes.finish q = _
    rw [Bytes.finish, hc hq]
  exact streams.finish_advance stopsOn_consistent hlive hfin (fun _ ↦ herr) hp k

end Bytes

namespace Buffered

/-- The search for the delimiter finds it where it starts or after, inside the piece. -/
theorem findFrom_bounds {piece : Array UInt8} {delim : UInt8} {i j : Nat}
    (h : findFrom piece delim i = some j) : i ≤ j ∧ j < piece.size := by
  fun_induction findFrom piece delim i with
  | case1 i hi hd =>
    cases h
    exact ⟨le_rfl, hi⟩
  | case2 i hi hd ih =>
    have := ih h
    omega
  | case3 i hi => cases h

/-- Filling the buffer moves bytes from the reader into the buffer, and loses none. -/
theorem unread_fill (b : Buffered) :
    (fill b).2.buffered + (fill b).2.reader.left = b.buffered + b.reader.left := by
  unfold fill
  split
  · rfl
  · rename_i hempty
    rcases hread : b.reader.read b.capacity with ⟨e | bytes, r⟩ <;> dsimp only
    · -- a failed read hands out nothing, and the buffer was already empty
      have hleft := Reader.left_read_of_error hread
      simp only [buffered, Array.size_empty] at hempty ⊢
      omega
    · have hleft := Reader.left_read_of_ok hread
      simp only [buffered] at hempty ⊢
      omega

/-- Every byte that `readUntil` gathers comes out of the buffer or the reader. -/
theorem size_readUntil (delim : UInt8) (n : Nat) (acc : Array UInt8) (b : Buffered) :
    (readUntil delim n acc b).2.1.size + (readUntil delim n acc b).2.2.buffered +
        (readUntil delim n acc b).2.2.reader.left = acc.size + b.buffered + b.reader.left := by
  induction n generalizing acc b with
  | zero => rfl
  | succ n ih =>
    have hfill := unread_fill b
    unfold readUntil
    rcases hf : fill b with ⟨e | u, b₁⟩ <;> rw [hf] at hfill <;> dsimp only at hfill ⊢
    · split
      · rw [ih]
        omega
      · dsimp only
        omega
    · split
      · dsimp only
        omega
      · rename_i hlive
        rcases hfind : findFrom b₁.piece delim b₁.used with _ | i <;> dsimp only
        · rw [ih]
          simp only [buffered, Array.size_append, Array.size_extract] at hfill hlive ⊢
          omega
        · have hi := findFrom_bounds hfind
          simp only [buffered, Array.size_append, Array.size_extract] at hfill hlive ⊢
          omega

/-- A line handed out takes at least one byte out of the buffer and the reader. -/
theorem unread_readLine_lt {b b' : Buffered} {line : String}
    (h : b.readLine = (.ok (some line), b')) :
    b'.buffered + b'.reader.left < b.buffered + b.reader.left := by
  have hsize := size_readUntil 10 b.budget #[] b
  unfold readLine at h
  rcases hr : readUntil 10 b.budget #[] b with ⟨_ | _, bytes, b₁⟩ <;> rw [hr] at h hsize <;>
    dsimp only at h hsize
  · cases h
  · split at h
    · cases h
    · -- a line is handed out only when some bytes were read
      simp only [Prod.mk.injEq, Except.ok.injEq] at h
      obtain ⟨hline, rfl⟩ := h
      have hne : bytes.isEmpty = false := by
        cases he : bytes.isEmpty
        · rfl
        · rw [he, if_pos rfl] at hline
          cases hline
      have hpos : 0 < bytes.size := by
        simpa [Array.isEmpty_iff_size_eq_zero, Nat.pos_iff_ne_zero] using hne
      simp only [Array.size_empty] at hsize
      omega

end Buffered

namespace Lines

theorem supply_eq (p : Lines) :
    Producer.supply p = if p.done then 0 else p.input.buffered + p.input.reader.left :=
  rfl

/-- A line is handed out only by a live stream, from a read that found it; the stream keeps all
but its input. -/
theorem pull_of_some {p : Lines} {line : String} (h : (pull p).1 = some line) :
    p.done = false ∧ ∃ b, p.input.readLine = (.ok (some line), b) ∧
      (pull p).2 = { p with input := b } := by
  cases hd : p.done with
  | true => rw [pull_of_done hd] at h; cases h
  | false =>
    refine ⟨rfl, ?_⟩
    unfold pull at h ⊢
    rw [hd, if_neg (by simp)] at h ⊢
    rcases hr : p.input.readLine with ⟨e | (_ | line'), b⟩ <;> rw [hr] at h <;> dsimp only at h
    · cases h
    · cases h
    · cases h
      exact ⟨b, rfl, rfl⟩

/-- A line handed out is at least one byte less to come. -/
theorem supply_pull_lt {p : Lines} {line : String} (h : (pull p).1 = some line) :
    Producer.supply (pull p).2 < Producer.supply p := by
  obtain ⟨hd, b, hr, heq⟩ := pull_of_some h
  rw [heq, supply_eq, supply_eq]
  simp only [hd, Bool.false_eq_true, if_false]
  exact Buffered.unread_readLine_lt hr

/-- No failure is kept while the stream is live. -/
def Consistent (p : Lines) : Prop :=
  p.done = false → p.error = none

theorem stopsOn_consistent : Producer.StopsOn Consistent where
  pull_inv p hp := by
    show Consistent (pull p).2
    cases hn : (pull p).1 with
    | none => exact fun hlive ↦ absurd (done_of_pull_none hn) (by rw [hlive]; decide)
    | some line =>
      obtain ⟨hlive, b, -, heq⟩ := pull_of_some hn
      rw [heq]
      exact fun _ ↦ hp hlive
  stop p _ h := pull_of_done (done_of_pull_none h)

/-- The line producer streams the lines it delivers. -/
theorem streams : Producer.Streams (fun p : Lines ↦ (Producer.elements p).1) Consistent :=
  stopsOn_consistent.streams fun _ _ _ hl ↦ supply_pull_lt hl

/-- The result of a live line stream after `k` pulls: success while they hand out lines, and from
the pull past the last line on, the end of the input or the failure the stream met. -/
theorem finish_advance {p : Lines} (hp : p.done = false) (herr : p.error = none) (k : Nat) :
    Producer.finish (Producer.advance k p) =
      if k ≤ (Producer.elements p).1.length then .ok () else Producer.drain p := by
  have hlive : ∀ q : Lines, Consistent q → q.done = false →
      ∀ l, (Producer.pull q).1 = some l → (Producer.pull q).2.done = false := by
    intro q _ hq l hl
    obtain ⟨-, b, -, heq⟩ := pull_of_some hl
    show (pull q).2.done = false
    rw [heq]
    exact hq
  have hfin : ∀ q : Lines, Consistent q → q.done = false → Producer.finish q = .ok () := by
    intro q hc hq
    show Lines.finish q = _
    rw [Lines.finish, hc hq]
  exact streams.finish_advance stopsOn_consistent hlive hfin (fun _ ↦ herr) hp k

end Lines

end Io

end Spool
