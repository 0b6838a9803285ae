import Spool.Io.Reader

/-!
# Buffered reading

A `Buffered` reader reads its reader in pieces of up to `capacity` bytes and hands them out from a
buffer; it reads again only when the buffer is empty. The buffer is the piece read last with the
count of its bytes handed out, so the buffered bytes are the piece after that count. A failed read
leaves the buffer empty.

`readUntil` reads up to and including a delimiter byte, or to the end of the input, reading
again after an interruption; on a failure it stops, and what it had gathered is given back with
the failure. `readLine` is a line without its ending (`"\n"`, or `"\r\n"`), which must be valid
UTF-8.
-/

namespace Spool.Io

/-- A reader with a buffer of at most `capacity` bytes. -/
structure Buffered where
  /-- The reader underneath. -/
  reader : Reader
  /-- The piece read last. -/
  piece : Array UInt8 := #[]
  /-- How many bytes of the piece have been handed out. -/
  used : Nat := 0
  /-- How many bytes one read asks for. -/
  capacity : Nat

namespace Buffered

/-- A buffered reader over `r` that asks for `capacity` bytes per read. -/
def ofReader (capacity : Nat) (r : Reader) : Buffered :=
  { reader := r, capacity := capacity }

/-- How many bytes are buffered and not handed out. -/
def buffered (b : Buffered) : Nat :=
  b.piece.size - b.used

/-- The buffered bytes, in order. -/
def available (b : Buffered) : List UInt8 :=
  b.piece.toList.drop b.used

/-- Reads a piece if the buffer is empty; a buffer still empty after it is the end of the input. -/
def fill (b : Buffered) : Except IoError Unit × Buffered :=
  if b.used < b.piece.size then
    (.ok (), b)
  else
    match b.reader.read b.capacity with
    | (.ok bytes, r) => (.ok (), { b with reader := r, piece := bytes, used := 0 })
    | (.error e, r) => (.error e, { b with reader := r, piece := #[], used := 0 })

/-- The first position from `i` on where `piece` holds `delim`. -/
def findFrom (piece : Array UInt8) (delim : UInt8) (i : Nat) : Option Nat :=
  if h : i < piece.size then
    if piece[i] == delim then some i else findFrom piece delim (i + 1)
  else
    none
termination_by piece.size - i

/-- At most `n` rounds of filling and taking bytes, up to and including `delim`: appends them to
`acc`; the outcome is success or the failure that stopped it. -/
def readUntil (delim : UInt8) : Nat → Array UInt8 → Buffered →
    Except IoError Unit × Array UInt8 × Buffered
  | 0, acc, b => (.ok (), acc, b)
  | n + 1, acc, b =>
    match b.fill with
    | (.error e, b) =>
      if e.kind = .interrupted then readUntil delim n acc b else (.error e, acc, b)
    | (.ok (), b) =>
      if b.piece.size ≤ b.used then
        (.ok (), acc, b)
      else
        match findFrom b.piece delim b.used with
        | some i => (.ok (), acc ++ b.piece.extract b.used (i + 1), { b with used := i + 1 })
        | none =>
          readUntil delim n (acc ++ b.piece.extract b.used b.piece.size)
            { b with used := b.piece.size }

/-- An upper bound on the rounds of `readUntil`: each round takes a byte, meets an interruption,
or ends. -/
def budget (b : Buffered) : Nat :=
  b.buffered + b.reader.budget + 1

/-- A line without its ending: a final `"\n"` goes, and then a `"\r"` before it. Both are ASCII,
so the rest is valid UTF-8 exactly when the whole line is. -/
def stripEnding (bytes : Array UInt8) : Array UInt8 :=
  if bytes.back? == some 10 then
    if bytes.pop.back? == some 13 then bytes.pop.pop else bytes.pop
  else
    bytes

/-- The next line, `none` at the end of the input. A failed read wins over invalid UTF-8. -/
def readLine (b : Buffered) : Except IoError (Option String) × Buffered :=
  match readUntil 10 b.budget #[] b with
  | (.error e, _, b) => (.error e, b)
  | (.ok (), bytes, b) =>
    match String.fromUTF8? (ByteArray.mk (stripEnding bytes)) with
    | none => (.error IoError.invalidUtf8, b)
    | some s => (.ok (if bytes.isEmpty then none else some s), b)

end Buffered

end Spool.Io
