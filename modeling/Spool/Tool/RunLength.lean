import Spool.Context.Cursor
import Spool.Grouping.Groups
import Spool.Grouping.Window
import Spool.Grouping.Rejoin
import Spool.Io.Bytes
import Spool.Text.Escape
import Spool.Tool.Window

/-!
# Runs of equal bytes

`writeRuns` reads a byte stream and prints one line per run of equal bytes in the window: the
length of the run, a tab, and the byte escaped as text. The stream is read lazily: the bytes are
grouped into runs, the window drops and takes runs, and each run is folded into its length and
byte. Reading stops once the last run of the window has ended, so a read failure after that point
is never met; a failure that is met ends the input there and is reported after the runs read
before it.
-/

namespace Spool.Tool

open Spool.Io

/-- A run of equal bytes: how many, and which byte. -/
structure Run where
  /-- The length of the run. -/
  count : Nat := 0
  /-- The byte, once there is one. -/
  byte : UInt8 := 0

namespace Run

/-- The run with one more byte. -/
def push (r : Run) (b : UInt8) : Run :=
  { count := r.count + 1, byte := b }

/-- The length, a tab, and the byte as text. -/
def render (r : Run) : String :=
  toString r.count ++ "\t" ++ Text.escapeByte r.byte

end Run

/-- The runs of the input in the window, folded lazily. -/
def runsOf (input : Reader) (window : Window) :
    FoldGroups (TakeGroups (DropGroups (Groups (Cursor Bytes UInt8) (RunsBy UInt8)))) Run UInt8 :=
  Cursor.ofProducer (Bytes.ofReader input)
    |> Context.groups (runs : RunsBy UInt8)
    |> Grouped.dropGroups window.skip
    |> Grouped.takeGroups window.limit
    |> Grouped.foldGroups ({} : Run) Run.push

/-- Prints one line per run of the window; ends with the number of runs printed, or with the read
failure the input met. -/
def writeRuns (input : Reader) (window : Window) : Report IoError :=
  let (printed, counted) := Producer.elements (runsOf input window)
  let output := String.join (printed.map fun r ↦ r.render ++ "\n")
  match Producer.finish (Producer.finish counted) with
  | .error e => { output := output, outcome := .error e }
  | .ok () => { output := output, outcome := .ok printed.length }

end Spool.Tool
