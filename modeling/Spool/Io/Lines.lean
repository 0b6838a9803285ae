import Spool.Producer.Basic
import Spool.Io.Buffered

/-!
# The line producer

`Lines` hands out the lines of a buffered reader, without their endings. The first failure, a
failed read or a line that is not valid UTF-8, ends the stream: the pull that meets it returns
`none`, the failure is kept, and no later pull reads again. The final result is that failure, or
success when the input simply ended.
-/

namespace Spool.Io

/-- The lines of a buffered reader, one per pull. -/
structure Lines where
  /-- The buffered reader. -/
  input : Buffered
  /-- The failure that ended the stream, if one did. -/
  error : Option IoError := none
  /-- Whether the stream has ended. -/
  done : Bool := false

namespace Lines

/-- A line producer over `b`. -/
def ofBuffered (b : Buffered) : Lines :=
  { input := b }

/-- The next line; the end of the input or a failure ends the stream. -/
def pull (p : Lines) : Option String × Lines :=
  if p.done then
    (none, p)
  else
    match p.input.readLine with
    | (.ok (some line), b) => (some line, { p with input := b })
    | (.ok none, b) => (none, { p with input := b, done := true })
    | (.error e, b) => (none, { input := b, error := some e, done := true })

/-- The failure that ended the stream, or success. -/
def finish (p : Lines) : Except IoError Unit :=
  match p.error with
  | some e => .error e
  | none => .ok ()

instance : Producer Lines String (Except IoError Unit) where
  pull := pull
  finish := finish
  supply p := if p.done then 0 else p.input.buffered + p.input.reader.left

end Lines

end Spool.Io
