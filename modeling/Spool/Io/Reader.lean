import Spool.Io.Error

/-!
# Readers

A `Reader` is a source of bytes read in pieces, with the faults a real source can have: it may
hand out fewer bytes than asked (`chunk`), fail for good from some position on (`failAt`), and be
interrupted once at given positions. Standard input, a file and a directory are all readers: a
directory fails at its first read.

The bytes never change; the state of a reader is how far it has handed them out (`pos`), so the
bytes left (`left`) are a difference of two numbers, and `rest` is the list view of them.

One read, at position `pos`, does this:

1. if an interruption is due at `pos`, it fires and is removed;
2. otherwise, if `pos` has reached `failAt`, the read fails;
3. otherwise it hands out the next `min want chunk (end - pos)` bytes, where `end` is the lesser of
   the length and `failAt`. Handing out no bytes is the end of the input.
-/

namespace Spool.Io

/-- A byte source with partial reads, a failure position and interruptions. -/
structure Reader where
  /-- All the bytes of the input, handed out or not. -/
  bytes : Array UInt8
  /-- How many bytes have been handed out. -/
  pos : Nat := 0
  /-- The most bytes one read hands out, if limited. -/
  chunk : Option Nat := none
  /-- The position from which every read fails, if any. -/
  failAt : Option Nat := none
  /-- The failure those reads report. -/
  failure : IoError := .custom .other "disk on fire"
  /-- Positions at which one read is interrupted, each once. -/
  interrupts : List Nat := []

namespace Reader

/-- A reader of the given bytes that never fails. -/
def ofBytes (bytes : Array UInt8) : Reader :=
  { bytes := bytes }

/-- A reader that fails at its first read with `e`. -/
def failing (e : IoError) : Reader :=
  { bytes := #[], failAt := some 0, failure := e }

/-- The failure of an interrupted read. -/
def interruption : IoError :=
  .custom .interrupted "interrupted"

/-- How many bytes are not handed out yet. -/
def left (r : Reader) : Nat :=
  r.bytes.size - r.pos

/-- The bytes not handed out yet, in order. -/
def rest (r : Reader) : List UInt8 :=
  r.bytes.toList.drop r.pos

/-- The position where the bytes that can be read end: the end of the input, or the failure
position before it. -/
def stop (r : Reader) : Nat :=
  min r.bytes.size (r.failAt.getD r.bytes.size)

/-- One read of at most `want` bytes: the bytes handed out (none at the end of the input) or the
failure, and the reader after it. -/
def read (want : Nat) (r : Reader) : Except IoError (Array UInt8) × Reader :=
  if r.interrupts.contains r.pos then
    (.error interruption, { r with interrupts := r.interrupts.erase r.pos })
  else if r.failAt.any (· ≤ r.pos) then
    (.error r.failure, r)
  else
    let n := min (min want (r.chunk.getD want)) (r.stop - r.pos)
    (.ok (r.bytes.extract r.pos (r.pos + n)), { r with pos := r.pos + n })

/-- An upper bound on the reads before the reader has nothing more to say: one per byte left, one
per interruption, and one for the end or the failure. -/
def budget (r : Reader) : Nat :=
  r.left + r.interrupts.length + 1

end Reader

end Spool.Io
