import Spool.Proofs.Delivered

/-!
# Input producers stop at the first failure

The byte and line producers each wrap an iterator of fallible items: every step gives an item, the
end of the input, or a failure. For bytes the step reads one byte and reads again after an
interruption (`Io.Bytes.readByte`); for lines it reads up to a line ending and fails on a failed
read or on a line that is not UTF-8 (`Io.Buffered.readLine`). `Io.Delivers next s items stop` says
what such an iterator delivers from `s`: the items before its first step that is not an item, and
the failure that step met, if it was one. The iterator over every reader delivers so
(`Io.Delivers.of_measure`), since each item takes at least one byte out of the buffer and the
reader.

`Io.Wraps` is what the two producers share: while live, a pull steps the iterator once; the end of
the input or a failure ends the stream and the failure is kept; once ended, a pull answers nothing
and changes nothing; and the result is the failure kept, or success. A live producer with no
failure kept reports exactly what its iterator delivers (`Io.Wraps.reports`, with `Io.Reports`):
the `k`-th pull hands out the `k`-th item, every pull past the items answers nothing and leaves the
producer, its reader included, as it is, and the result is success until a pull has met the stop
and the stop's outcome from then on. Read to its end such a producer yields the items and then that
outcome (`Io.Reports.collectAll_eq`). `Io.stop_at_first_failure` gathers these facts.
-/

set_option autoImplicit false

namespace Spool.Io

/-- The result once the stream has met `stop`: the failure it met, or success at the end of the
input. -/
def outcome : Option IoError → Except IoError Unit
  | some e => .error e
  | none => .ok ()

section Iterator

variable {σ α : Type}

variable (next : σ → Except IoError (Option α) × σ) in
/-- What an iterator of fallible items delivers from `s`: the items before its first step that is
not an item, and the failure that step met, or `none` when the input ended there. -/
inductive Delivers : σ → List α → Option IoError → Prop
  /-- The input ends: no item, and no failure. -/
  | done {s : σ} : (next s).1 = .ok none → Delivers s [] none
  /-- A failure: no item, and that failure. -/
  | fail {s : σ} {e : IoError} : (next s).1 = .error e → Delivers s [] (some e)
  /-- An item, followed by what the iterator delivers after it. -/
  | item {s : σ} {a : α} {items : List α} {stop : Option IoError} : (next s).1 = .ok (some a) →
      Delivers (next s).2 items stop → Delivers s (a :: items) stop

/-- An iterator each of whose items lowers a measure delivers something from every state: its
items, then the end of the input or a failure. -/
theorem Delivers.of_measure {next : σ → Except IoError (Option α) × σ} (μ : σ → Nat)
    (hμ : ∀ s a, (next s).1 = .ok (some a) → μ (next s).2 < μ s) (s : σ) :
    ∃ items stop, Delivers next s items stop := by
  -- strong induction on the measure of the state
  suffices h : ∀ m s, μ s = m → ∃ items stop, Delivers next s items stop from h _ s rfl
  intro m
  induction m using Nat.strong_induction_on with
  | _ m ih =>
    intro s hs
    rcases hn : (next s).1 with e | (_ | a)
    · exact ⟨[], some e, .fail hn⟩
    · exact ⟨[], none, .done hn⟩
    · obtain ⟨items, stop, h⟩ := ih _ (hs ▸ hμ s a hn) (next s).2 rfl
      exact ⟨a :: items, stop, .item hn h⟩

end Iterator

section Wrapping

variable {π σ α : Type} [Producer π α (Except IoError Unit)]

variable (next : σ → Except IoError (Option α) × σ) (src : π → σ) (done : π → Bool)
  (error : π → Option IoError) in
/-- A producer over the iterator `next`, which it reads at `src p`: once ended (`done`) a pull
answers nothing and changes nothing; while live a pull steps the iterator once, hands out its item
and stays live, or ends the stream at the end of the input, or ends it at a failure and keeps the
failure (`error`); the result is the outcome of the failure kept. -/
structure Wraps : Prop where
  pull_ended : ∀ p, done p = true → Producer.pull p = (none, p)
  pull_item : ∀ p a, done p = false → (next (src p)).1 = .ok (some a) →
    (Producer.pull p).1 = some a ∧ src (Producer.pull p).2 = (next (src p)).2 ∧
      done (Producer.pull p).2 = false ∧ error (Producer.pull p).2 = error p
  pull_end : ∀ p, done p = false → (next (src p)).1 = .ok none →
    (Producer.pull p).1 = none ∧ done (Producer.pull p).2 = true ∧
      error (Producer.pull p).2 = error p
  pull_fail : ∀ p e, done p = false → (next (src p)).1 = .error e →
    (Producer.pull p).1 = none ∧ done (Producer.pull p).2 = true ∧
      error (Producer.pull p).2 = some e
  finish_eq : ∀ p, Producer.finish p = outcome (error p)

variable (items : List α) (stop : Option IoError) in
/-- What a producer reports of an iterator that delivers `items` and stops with `stop`: the `k`-th
pull hands out the `k`-th item; every pull past the items answers nothing and leaves the producer
as it is, so that nothing is read again; and the result is success until a pull has met the stop,
and the stop's outcome from then on. -/
def Reports (p : π) : Prop :=
  (∀ k, (Producer.pull (Producer.advance k p)).1 = items[k]?) ∧
  (∀ k, items.length < k →
    Producer.pull (Producer.advance k p) = (none, Producer.advance k p)) ∧
  ∀ k, Producer.finish (Producer.advance k p) =
    if k ≤ items.length then .ok () else outcome stop

variable {next : σ → Except IoError (Option α) × σ} {src : π → σ} {done : π → Bool}
  {error : π → Option IoError}

namespace Wraps

/-- An ended producer stays where it is, however often it is pulled. -/
theorem advance_of_ended (hw : Wraps next src done error) {p : π} (hd : done p = true)
    (k : Nat) : Producer.advance k p = p := by
  induction k with
  | zero => rfl
  | succ k ih => rw [Producer.advance_succ', ih, hw.pull_ended p hd]

/-- A producer with no failure kept, whose next pull ends the stream with `stop` kept, reports no
item and that stop. -/
theorem reports_nil (hw : Wraps next src done error) {p : π} (he : error p = none)
    {stop : Option IoError} (h₁ : (Producer.pull p).1 = none)
    (h₂ : done (Producer.pull p).2 = true) (h₃ : error (Producer.pull p).2 = stop) :
    Reports [] stop p := by
  -- from the first pull on, the producer stays where that pull left it
  have hafter : ∀ k, Producer.advance (k + 1) p = (Producer.pull p).2 := fun k ↦ by
    rw [Producer.advance_succ, hw.advance_of_ended h₂]
  refine ⟨fun k ↦ ?_, fun k hk ↦ ?_, fun k ↦ ?_⟩
  · cases k with
    | zero => exact h₁
    | succ k => rw [hafter, hw.pull_ended _ h₂]; rfl
  · obtain ⟨k, rfl⟩ : ∃ j, k = j + 1 := ⟨k - 1, by simp at hk; omega⟩
    rw [hafter, hw.pull_ended _ h₂]
  · cases k with
    | zero => rw [Producer.advance_zero, hw.finish_eq, he]; rfl
    | succ k => rw [hafter, hw.finish_eq, h₃]; simp

/-- A live producer with no failure kept reports exactly what its iterator delivers. -/
theorem reports (hw : Wraps next src done error) {p : π} (hd : done p = false)
    (he : error p = none) {items : List α} {stop : Option IoError}
    (h : Delivers next (src p) items stop) : Reports items stop p := by
  generalize hs : src p = s at h
  induction h generalizing p with
  | done hn =>
    subst hs
    obtain ⟨h₁, h₂, h₃⟩ := hw.pull_end p hd hn
    exact hw.reports_nil he h₁ h₂ (h₃.trans he)
  | fail hn =>
    subst hs
    obtain ⟨h₁, h₂, h₃⟩ := hw.pull_fail p _ hd hn
    exact hw.reports_nil he h₁ h₂ h₃
  | @item s a items stop hn _ ih =>
    subst hs
    -- the item comes out, and the producer goes on live from where the iterator is
    obtain ⟨h₁, h₂, h₃, h₄⟩ := hw.pull_item p a hd hn
    obtain ⟨ih₁, ih₂, ih₃⟩ := ih h₃ (h₄.trans he) h₂
    refine ⟨fun k ↦ ?_, fun k hk ↦ ?_, fun k ↦ ?_⟩
    · cases k with
      | zero => exact h₁
      | succ k => rw [Producer.advance_succ]; exact ih₁ k
    · obtain ⟨k, rfl⟩ : ∃ j, k = j + 1 := ⟨k - 1, by simp at hk; omega⟩
      rw [Producer.advance_succ]
      exact ih₂ k (by simp at hk; omega)
    · cases k with
      | zero => rw [Producer.advance_zero, hw.finish_eq, he]; rfl
      | succ k => rw [Producer.advance_succ, ih₃ k]; simp

end Wraps

/-- A producer that streams what it delivers and reports `items` and `stop` yields, read to its
end, exactly the items and then the outcome of the stop. -/
theorem Reports.collectAll_eq {Inv : π → Prop}
    (hs : Producer.Streams (fun p ↦ (Producer.elements p).1) Inv) {p : π} (hp : Inv p)
    {items : List α} {stop : Option IoError} (hr : Reports items stop p) :
    Producer.collectAll p = (items, outcome stop) := by
  have hitems : (Producer.elements p).1 = items :=
    List.ext_getElem? fun k ↦ by rw [← hs.pull_advance k hp, hr.1 k]
  refine Prod.ext (hitems ▸ Producer.collectAll_fst p) ?_
  rw [Producer.collectAll_snd, hs.drain_eq hp, hr.2.2, hitems, if_neg (by omega)]

end Wrapping

namespace Bytes

/-- The byte producer wraps the step that reads one byte, reading again after an
interruption. -/
theorem wraps :
    Wraps (fun r ↦ readByte r.budget r) (fun p : Bytes ↦ p.reader) (·.done) (·.error) where
  pull_ended _ h := pull_of_done h
  pull_item p a hd hn := by
    show (pull p).1 = _ ∧ (pull p).2.reader = _ ∧ (pull p).2.done = false ∧
      (pull p).2.error = p.error
    unfold pull
    rw [if_neg (by simp [hd])]
    rcases hr : readByte p.reader.budget p.reader with ⟨e | (_ | b), r⟩ <;> rw [hr] at hn <;>
      cases hn
    exact ⟨rfl, rfl, hd, rfl⟩
  pull_end p hd hn := by
    show (pull p).1 = _ ∧ (pull p).2.done = true ∧ (pull p).2.error = p.error
    unfold pull
    rw [if_neg (by simp [hd])]
    rcases hr : readByte p.reader.budget p.reader with ⟨e | (_ | b), r⟩ <;> rw [hr] at hn <;>
      cases hn
    exact ⟨rfl, rfl, rfl⟩
  pull_fail p e hd hn := by
    show (pull p).1 = _ ∧ (pull p).2.done = true ∧ (pull p).2.error = some e
    unfold pull
    rw [if_neg (by simp [hd])]
    rcases hr : readByte p.reader.budget p.reader with ⟨e' | (_ | b), r⟩ <;> rw [hr] at hn <;>
      cases hn
    exact ⟨rfl, rfl, rfl⟩
  finish_eq _ := rfl

end Bytes

namespace Lines

/-- The line producer wraps the step that reads one line. -/
theorem wraps : Wraps Buffered.readLine (fun p : Lines ↦ p.input) (·.done) (·.error) where
  pull_ended _ h := pull_of_done h
  pull_item p a hd hn := by
    show (pull p).1 = _ ∧ (pull p).2.input = _ ∧ (pull p).2.done = false ∧
      (pull p).2.error = p.error
    unfold pull
    rw [if_neg (by simp [hd])]
    rcases hr : p.input.readLine with ⟨e | (_ | line), b⟩ <;> rw [hr] at hn <;> cases hn
    exact ⟨rfl, rfl, hd, rfl⟩
  pull_end p hd hn := by
    show (pull p).1 = _ ∧ (pull p).2.done = true ∧ (pull p).2.error = p.error
    unfold pull
    rw [if_neg (by simp [hd])]
    rcases hr : p.input.readLine with ⟨e | (_ | line), b⟩ <;> rw [hr] at hn <;> cases hn
    exact ⟨rfl, rfl, rfl⟩
  pull_fail p e hd hn := by
    show (pull p).1 = _ ∧ (pull p).2.done = true ∧ (pull p).2.error = some e
    unfold pull
    rw [if_neg (by simp [hd])]
    rcases hr : p.input.readLine with ⟨e' | (_ | line), b⟩ <;> rw [hr] at hn <;> cases hn
    exact ⟨rfl, rfl, rfl⟩
  finish_eq _ := rfl

end Lines

/-- Both producers stop at the first failure. The step that reads one byte, and the step that reads
one line, deliver from every reader some items and then the end of the input or a failure; and
over a reader that delivers `items` and `stop`, the producer hands out exactly those items in
order, answers every later pull with nothing and reads no more, and ends with the failure met, or
success, once a pull has met the stop. -/
theorem stop_at_first_failure :
    (∀ r : Reader, ∃ items stop,
      Delivers (fun r ↦ Bytes.readByte r.budget r) r items stop) ∧
    (∀ r items stop, Delivers (fun r ↦ Bytes.readByte r.budget r) r items stop →
      Reports items stop (Bytes.ofReader r) ∧
        Producer.collectAll (Bytes.ofReader r) = (items, outcome stop)) ∧
    (∀ b : Buffered, ∃ items stop, Delivers Buffered.readLine b items stop) ∧
    ∀ b items stop, Delivers Buffered.readLine b items stop →
      Reports items stop (Lines.ofBuffered b) ∧
        Producer.collectAll (Lines.ofBuffered b) = (items, outcome stop) := by
  refine ⟨Delivers.of_measure Reader.left
      fun r _ h ↦ Bytes.left_readByte_of_some (Prod.ext h rfl),
    fun r items stop h ↦ ?_,
    Delivers.of_measure (fun b ↦ b.buffered + b.reader.left)
      fun _ _ h ↦ Buffered.unread_readLine_lt (Prod.ext h rfl),
    fun b items stop h ↦ ?_⟩
  · have hr := Bytes.wraps.reports (p := Bytes.ofReader r) rfl rfl h
    exact ⟨hr, hr.collectAll_eq Bytes.streams fun _ ↦ rfl⟩
  · have hr := Lines.wraps.reports (p := Lines.ofBuffered b) rfl rfl h
    exact ⟨hr, hr.collectAll_eq Lines.streams fun _ ↦ rfl⟩

/-- A reader that fails after its first byte: the byte producer hands out that byte and ends with
the failure. -/
theorem stop_at_first_failure_after_one_byte :
    let r : Reader := { bytes := #[97, 98], failAt := some 1 }
    Producer.collectAll (Bytes.ofReader r) = ([97], .error r.failure) := by
  intro r
  exact (stop_at_first_failure.2.1 r [97] (some r.failure) (.item rfl (.fail rfl))).2

end Spool.Io
