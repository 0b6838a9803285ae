import Spool.Producer.Source

/-!
# The element language of scripts

Scripts work on streams of 64-bit signed integers. Their conditions, relations and folds come from
small fixed languages, so that a script is plain data:

* `Pred`: a condition on one element: comparisons, parity, a residue, membership, and the
  connectives;
* `Relation`: a condition on a reference element `a` and an offered element `b`, as the grouping
  rules use them;
* `FoldKind` and `Tally`: the folds a script can ask for, and their running values.

Sums, the Horner value and arithmetic progressions wrap around at 64 bits. Differences in
`Relation.succ` and `Relation.diffLe` are taken exactly, in `Int`. Parity looks at the remainder,
and a residue is the Euclidean one, which is never negative.
-/

namespace Spool.Script

/-- A condition on one element. -/
inductive Pred where
  /-- Less than the bound. -/
  | lt (n : Int64)
  /-- At most the bound. -/
  | le (n : Int64)
  /-- Greater than the bound. -/
  | gt (n : Int64)
  /-- At least the bound. -/
  | ge (n : Int64)
  /-- Equal to the value. -/
  | eq (n : Int64)
  /-- Different from the value. -/
  | ne (n : Int64)
  /-- Divisible by two. -/
  | even
  /-- Not divisible by two. -/
  | odd
  /-- Leaves the residue `r` modulo `m`, for `m > 0`. -/
  | residue (m r : Int64)
  /-- One of the values. -/
  | mem (values : List Int64)
  /-- The condition fails. -/
  | not (p : Pred)
  /-- Every condition holds; true for none. -/
  | all (ps : List Pred)
  /-- Some condition holds; false for none. -/
  | any (ps : List Pred)
  /-- Always this answer. -/
  | const (b : Bool)

namespace Pred

mutual

/-- Whether `x` satisfies the condition. -/
def holds : Pred → Int64 → Bool
  | lt n, x => x < n
  | le n, x => x ≤ n
  | gt n, x => n < x
  | ge n, x => n ≤ x
  | eq n, x => x == n
  | ne n, x => x != n
  | even, x => x.toInt % 2 == 0
  | odd, x => x.toInt % 2 != 0
  | residue m r, x => x.toInt % m.toInt == r.toInt
  | mem values, x => values.contains x
  | not p, x => !holds p x
  | all ps, x => holdsAll ps x
  | any ps, x => holdsAny ps x
  | const b, _ => b

/-- Whether `x` satisfies every condition of the list. -/
def holdsAll : List Pred → Int64 → Bool
  | [], _ => true
  | p :: ps, x => holds p x && holdsAll ps x

/-- Whether `x` satisfies some condition of the list. -/
def holdsAny : List Pred → Int64 → Bool
  | [], _ => false
  | p :: ps, x => holds p x || holdsAny ps x

end

end Pred

/-- A condition on a reference element `a` and an offered element `b`. -/
inductive Relation where
  /-- The two are equal. -/
  | eq
  /-- The two differ. -/
  | ne
  /-- The reference is less: `a < b`. -/
  | lt
  /-- The reference is at most the other: `a ≤ b`. -/
  | le
  /-- The reference is greater: `a > b`. -/
  | gt
  /-- The reference is at least the other: `a ≥ b`. -/
  | ge
  /-- The offered element is one more than the reference. -/
  | succ
  /-- The two are at most `k` apart. -/
  | diffLe (k : Int64)
  /-- The two leave the same residue modulo `m`. -/
  | sameResidue (m : Int64)
  /-- The two have the same sign. -/
  | sameSign
  /-- Always this answer. -/
  | const (b : Bool)

/-- The sign of an element: `-1`, `0` or `1`. -/
def sign (x : Int64) : Int :=
  x.toInt.sign

/-- Whether `a` and `b` are related. -/
def Relation.relates : Relation → Int64 → Int64 → Bool
  | .eq, a, b => a == b
  | .ne, a, b => a != b
  | .lt, a, b => a < b
  | .le, a, b => a ≤ b
  | .gt, a, b => b < a
  | .ge, a, b => b ≤ a
  | .succ, a, b => b.toInt - a.toInt == 1
  | .diffLe k, a, b => decide ((a.toInt - b.toInt).natAbs ≤ k.toInt)
  | .sameResidue m, a, b => a.toInt % m.toInt == b.toInt % m.toInt
  | .sameSign, a, b => sign a == sign b
  | .const c, _, _ => c

/-- The folds a script can ask for. -/
inductive FoldKind where
  /-- The sum, wrapping at 64 bits. -/
  | sum
  /-- The number of elements. -/
  | count
  /-- The elements themselves. -/
  | list
  /-- The Horner value `acc * 10 + x` from the left, wrapping at 64 bits. -/
  | horner
  /-- The last element, if any. -/
  | last

/-- The running value of a fold. -/
inductive Tally where
  /-- A sum. -/
  | sum (total : Int64)
  /-- A count. -/
  | count (n : Nat)
  /-- The elements so far. -/
  | list (items : Array Int64)
  /-- A Horner value. -/
  | horner (value : Int64)
  /-- The last element so far. -/
  | last (x : Option Int64)

/-- The value a fold starts from. -/
def FoldKind.init : FoldKind → Tally
  | .sum => .sum 0
  | .count => .count 0
  | .list => .list #[]
  | .horner => .horner 0
  | .last => .last none

/-- The running value after one more element. -/
def Tally.step : Tally → Int64 → Tally
  | .sum total, x => .sum (total + x)
  | .count n, _ => .count (n + 1)
  | .list items, x => .list (items.push x)
  | .horner value, x => .horner (value * 10 + x)
  | .last _, x => .last (some x)

/-- The `count` elements `start, start + step, …`, wrapping at 64 bits, then `result`. -/
def progression {ρ : Type} (start step : Int64) (count : Nat) (result : ρ) : Source Int64 ρ :=
  Source.tabulate count (fun i ↦ start + step * Int64.ofNat i) result

end Spool.Script
