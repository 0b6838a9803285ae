import Spool.Producer.Basic

/-!
# Tabulated sources

A `Source` yields `item 0, item 1, …, item (count - 1)` and then a fixed final result. Lists,
single elements, the empty producer, repetitions of a list and arithmetic progressions are all
sources; nothing is computed ahead of a pull, so a source of a huge count is read lazily.

The number of elements pulled so far is part of the state (`pulled`), which is how a caller
measures how far a consumer has read.
-/

namespace Spool

/-- The elements `item 0, …, item (count - 1)` in order, then `result`. -/
structure Source (α ρ : Type) where
  /-- How many elements the source yields. -/
  count : Nat
  /-- The element at each position. -/
  item : Fin count → α
  /-- The final result. -/
  result : ρ
  /-- How many elements have been pulled so far. -/
  pulled : Nat := 0

namespace Source

variable {α ρ : Type}

/-- The next element, if any position is left. -/
def pull (s : Source α ρ) : Option α × Source α ρ :=
  if h : s.pulled < s.count then
    (some (s.item ⟨s.pulled, h⟩), { s with pulled := s.pulled + 1 })
  else
    (none, s)

instance : Producer (Source α ρ) α ρ where
  pull := pull
  finish s := s.result
  supply s := s.count - s.pulled

/-- The elements of a list, then `result`. -/
def ofList (items : List α) (result : ρ) : Source α ρ :=
  { count := items.length, item := fun i ↦ items.get i, result := result }

/-- No element at all, then `result`. -/
def empty (result : ρ) : Source α ρ :=
  { count := 0, item := fun i ↦ absurd i.isLt (Nat.not_lt_zero _), result := result }

/-- The first `count` elements of a sequence given by position. -/
def tabulate (count : Nat) (item : Nat → α) (result : ρ) : Source α ρ :=
  { count := count, item := fun i ↦ item i.val, result := result }

/-- The items of a list over and over, `count` elements in total; nothing if the list is
empty. -/
def cycle (items : List α) (count : Nat) (result : ρ) : Source α ρ :=
  if h : items.length = 0 then
    empty result
  else
    tabulate count (fun i ↦ items.get ⟨i % items.length, Nat.mod_lt _ (Nat.pos_of_ne_zero h)⟩)
      result

end Source

end Spool
