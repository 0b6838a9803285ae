import Spool.Io.Buffered
import Spool.Tool.RunLength
import Spool.Tool.Paragraphs
import Spool.Tool.Failure
import Spool.Tool.Input
import Spool.Tool.Command
import Spool.Tool.Stamp

/-!
# Running a tool

`Program.invoke` is a whole run of a tool: it reads the command line, opens the input (the named file,
or standard input), writes the window, and ends with an exit code and the texts written to
standard output and standard error.

* help and version print to standard output and exit with 0;
* a refused command line prints its error to standard error and exits with 2;
* a failure to open the input or a failed read prints `Error: ` and the failure's structured form
  to standard error and exits with 1; what was written before a failed read is kept, and the read
  failure is also logged, as a warning stamped with `stamp`, when it happens;
* otherwise the run exits with 0.

Standard input and files are read through a buffer of 8192 bytes.
-/

namespace Spool.Tool

open Spool.Io

/-- The exit code and the texts written to standard output and standard error. -/
structure Exit where
  /-- The exit code. -/
  code : Nat
  /-- What was written to standard output. -/
  stdout : String
  /-- What was written to standard error. -/
  stderr : String

/-- The exit with every time stamp on standard error replaced by `placeholder`; standard output
holds no log, and is kept as written. -/
def Exit.maskStamps (placeholder : String) (x : Exit) : Exit :=
  { x with stderr := Stamp.mask placeholder x.stderr }

namespace Program

/-- The buffer size of the input. -/
def bufferSize : Nat := 8192

/-- The producer whose failure the warning names. -/
def source : Program → String
  | runLength => "byte producer"
  | paragraphs => "line producer"

/-- Writes the window of the input. -/
def write (t : Program) (input : Reader) (window : Window) : Report IoError :=
  match t with
  | runLength => writeRuns input window
  | paragraphs => writeParagraphs (Buffered.ofReader bufferSize input) window

/-- The warning logged when a read fails, stamped with the time. -/
def warning (t : Program) (stamp : String) (e : IoError) : String :=
  "[" ++ stamp ++ " WARN  producer_framework::io] " ++ t.source ++ " stopped on read error: " ++
    e.message ++ "\n"

/-- A whole run of the tool, on the command line `args`, with `stdin` as standard input and `fs` as
the file system; warnings are stamped with `stamp`. -/
def invoke (t : Program) (args : List String) (stdin : Array UInt8) (fs : FileSystem)
    (stamp : String) : Exit :=
  match parse args with
  | .error .help => { code := 0, stdout := t.help, stderr := "" }
  | .error .version => { code := 0, stdout := t.versionText, stderr := "" }
  | .error (.usage e) => { code := 2, stdout := "", stderr := e.render t }
  | .ok request =>
    let input : Except Failure Reader :=
      match request.path with
      | none => .ok (Reader.ofBytes stdin)
      | some path =>
        match fs.openPath path with
        | .ok r => .ok r
        | .error e => .error (.openFailed path e)
    match input with
    | .error f => { code := 1, stdout := "", stderr := "Error: " ++ f.detail ++ "\n" }
    | .ok reader =>
      let report := t.write reader request.window
      match report.outcome with
      | .ok _ => { code := 0, stdout := report.output, stderr := "" }
      | .error e =>
        { code := 1, stdout := report.output,
          stderr := t.warning stamp e ++ "Error: " ++ (Failure.io e).detail ++ "\n" }

end Program

end Spool.Tool
