import Spool.Producer.Basic
import Spool.Io.Reader

/-!
# The byte producer

`Bytes` hands out the bytes of a reader one at a time, reading one byte per read and reading again
after an interruption. The first failure ends the stream: the pull that meets it returns `none`,
the failure is kept, and no later pull reads again. The final result is that failure, or success
when the input simply ended.
-/

namespace Spool.Io

/-- The bytes of a reader, one per pull. -/
structure Bytes where
  /-- The reader. -/
  reader : Reader
  /-- The failure that ended the stream, if one did. -/
  error : Option IoError := none
  /-- Whether the stream has ended. -/
  done : Bool := false

namespace Bytes

/-- A byte producer over `r`. -/
def ofReader (r : Reader) : Bytes :=
  { reader := r }

/-- Reads one byte, reading again after an interruption, at most `n` times. -/
def readByte : Nat → Reader → Except IoError (Option UInt8) × Reader
  | 0, r => (.ok none, r)
  | n + 1, r =>
    match r.read 1 with
    | (.ok piece, r) => (.ok piece[0]?, r)
    | (.error e, r) => if e.kind = .interrupted then readByte n r else (.error e, r)

/-- The next byte; the end of the input or a failure ends the stream. -/
def pull (p : Bytes) : Option UInt8 × Bytes :=
  if p.done then
    (none, p)
  else
    match readByte p.reader.budget p.reader with
    | (.ok (some b), r) => (some b, { p with reader := r })
    | (.ok none, r) => (none, { p with reader := r, done := true })
    | (.error e, r) => (none, { reader := r, error := some e, done := true })

/-- The failure that ended the stream, or success. -/
def finish (p : Bytes) : Except IoError Unit :=
  match p.error with
  | some e => .error e
  | none => .ok ()

instance : Producer Bytes UInt8 (Except IoError Unit) where
  pull := pull
  finish := finish
  supply p := if p.done then 0 else p.reader.left

end Bytes

end Spool.Io
