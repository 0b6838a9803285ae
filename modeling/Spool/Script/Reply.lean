import Spool.Script.Elements

/-!
# Replies

Every operation of a script answers with a `Reply`, and each answer is reported together with the
offset of the context right after the operation: an `Entry`. Nested scripts answer with their
entries, so a reply is a tree of the same shape as the script that produced it.
-/

namespace Spool.Script

/-- The answer of one operation. -/
inductive Reply where
  /-- Nothing: no element, no group, or an operation without an answer. -/
  | none
  /-- An element. -/
  | element (x : Int64)
  /-- A yes or no. -/
  | flag (b : Bool)
  /-- A count, an offset or an index. -/
  | size (n : Nat)
  /-- A text. -/
  | text (s : String)
  /-- Elements. -/
  | elements (xs : List Int64)
  /-- The answers of several draws. -/
  | draws (xs : List (Option Int64))
  /-- The value of a fold. -/
  | tally (t : Tally)
  /-- The values of several folds. -/
  | tallies (ts : List Tally)
  /-- The entries of a nested script. -/
  | entries (es : List (Reply × Nat))
  /-- The entries of a script on a split view, and the elements read when it ended, if any. -/
  | split (es : List (Reply × Nat)) (leftover : Option (List Int64))
  /-- The entries of a script on a counted view, and what was left of the count. -/
  | counted (es : List (Reply × Nat)) (remaining : Nat)
  /-- The context is not a cursor. -/
  | notCursor
  /-- The context is not a view. -/
  | notView
  /-- The entries of group operations, the answer of the finish, and how many groups opened. -/
  | grouped (es : List (Reply × Nat)) (finish : Reply) (opened : Nat)
  /-- The index of the group opened and the entries of the script run on it. -/
  | group (index : Nat) (es : List (Reply × Nat))
  /-- The index of a group read whole and its elements. -/
  | collected (index : Nat) (items : List Int64)
  /-- Whole groups. -/
  | groupLists (groups : List (List Int64))
  /-- The entries of group operations on further windows, and the answer of their finish. -/
  | windowed (es : List (Reply × Nat)) (finish : Reply)
  /-- Parser nodes. -/
  | nodes (ns : List Reply)

/-- An answer and the offset of the context right after the operation. -/
abbrev Entry := Reply × Nat

namespace Reply

/-- An element, or nothing. -/
def ofElement : Option Int64 → Reply
  | some x => element x
  | Option.none => none

/-- An index, or nothing. -/
def ofIndex : Option Nat → Reply
  | some i => size i
  | Option.none => none

/-- The value of a fold; the last element of no elements is nothing. -/
def ofTally : Tally → Reply
  | .last Option.none => none
  | t => tally t

/-- A parser node, or nothing. -/
def ofNode : Option Reply → Reply
  | some r => r
  | Option.none => none

/-- Whether the reply is nothing. -/
def isNone : Reply → Bool
  | none => true
  | _ => false

end Reply

end Spool.Script
