import Std.Time.Format
import Spool.Tool.Invocation

/-!
# The command line

`spool rle [ARGS]` and `spool paragraphs [ARGS]` run the two tools. This is the outer layer: it
reads the arguments, the named file or standard input, and the clock, hands them to
`Program.invoke`, prints what the run wrote and exits with its code.
-/

open Spool.Tool

/-- The operating-system error number of a failure, when it has one. -/
def osCode? : IO.Error → Option Nat
  | .alreadyExists _ c _ | .interrupted _ c _ | .noFileOrDirectory _ c _
  | .invalidArgument _ c _ | .permissionDenied _ c _ | .resourceExhausted _ c _
  | .inappropriateType _ c _ | .noSuchThing _ c _ => some c.toNat
  | .otherError c _ | .resourceBusy c _ | .resourceVanished c _ | .unsupportedOperation c _
  | .hardwareFault c _ | .unsatisfiedConstraints c _ | .illegalOperation c _
  | .protocolError c _ | .timeExpired c _ => some c.toNat
  | _ => none

/-- What `path` names on disk. -/
def probe (path : String) : IO (Option Node) := do
  try
    let bytes ← IO.FS.readBinFile path
    return some (.file bytes.data)
  catch e =>
    match osCode? e with
    | some 2 => return none
    | some 21 => return some .directory
    | some code => return some (.refused code)
    | none => return none

/-- Everything left on a stream. -/
partial def readToEnd (stream : IO.FS.Stream) (acc : ByteArray) : IO ByteArray := do
  let chunk ← stream.read 65536
  if chunk.isEmpty then return acc else readToEnd stream (acc ++ chunk)

/-- The current time in UTC, as the warnings show it. -/
def stamp : IO String := do
  let now ← Std.Time.Timestamp.now
  let time := Std.Time.DateTime.ofTimestamp now Std.Time.TimeZone.ZoneRules.UTC
  return time.toPlainDateTime.format "uuuu-MM-dd'T'HH:mm:ss'Z'"

def main (args : List String) : IO UInt32 := do
  match args with
  | name :: rest =>
    match Program.ofName? name with
    | some tool =>
      let path := match parse rest with
        | .ok request => request.path
        | .error _ => none
      let fs : FileSystem ← match path with
        | some p => do
          let node ← probe p
          pure fun q ↦ if q == p then node else none
        | none => pure fun _ ↦ none
      let stdin ← if path.isNone then readToEnd (← IO.getStdin) ByteArray.empty
        else pure ByteArray.empty
      let exit := tool.invoke rest stdin.data fs (← stamp)
      IO.print exit.stdout
      IO.eprint exit.stderr
      return exit.code.toUInt32
    | none => usage
  | [] => usage
where
  usage : IO UInt32 := do
    IO.eprintln "usage: spool (rle | paragraphs) [OPTIONS] [FILE]"
    return 2
