import Spool.Context.Cursor
import Spool.Grouping.Groups
import Spool.Grouping.Window
import Spool.Io.Lines
import Spool.Text.Blank
import Spool.Tool.Window

/-!
# Paragraphs

A paragraph is a run of consecutive lines that are not blank. `writeParagraphs` prints the
paragraphs of the window, each line followed by a newline and one empty line between paragraphs.

The lines are read lazily. Leading blank lines are passed over first; from there on the lines
fall into runs that are alternately text and blank, text first, so the paragraphs are the runs
with an even index. The window then drops and takes paragraphs, and reading stops once the last
paragraph of the window has ended. A read failure that is met ends the input there and is
reported after the paragraphs read before it.
-/

namespace Spool.Tool

open Spool.Io

/-- Passes over blank lines, at most `n` of them. -/
def skipBlankLines : Nat → Cursor Lines String → Cursor Lines String
  | 0, c => c
  | n + 1, c =>
    match Context.drawIf Text.isBlank c with
    | (some _, c) => skipBlankLines n c
    | (none, c) => c

/-- The paragraphs of the window, as a group stream over the lines. -/
def paragraphsOf (input : Buffered) (window : Window) :
    TakeGroups (DropGroups (FilterGroups (Groups (Cursor Lines String) (Partitions String)))) :=
  let lines : Cursor Lines String := Cursor.ofProducer (Lines.ofBuffered input)
  skipBlankLines (Context.supply lines + 1) lines
    |> Context.groups ({ holds := Text.isBlank } : Partitions String)
    |> Grouped.filterGroups (fun i ↦ i % 2 == 0)
    |> Grouped.dropGroups window.skip
    |> Grouped.takeGroups window.limit

/-- The lines of a paragraph, each followed by a newline. -/
def renderParagraph (lines : List String) : String :=
  String.join (lines.map fun line ↦ line ++ "\n")

/-- Prints the paragraphs of the window, an empty line between two; ends with the number of
paragraphs printed, or with the read failure the input met. -/
def writeParagraphs (input : Buffered) (window : Window) : Report IoError :=
  let (printed, selected) := Grouped.readGroups (paragraphsOf input window)
  let output := "\n".intercalate (printed.map renderParagraph)
  match Producer.finish (Grouped.intoRest selected) with
  | .error e => { output := output, outcome := .error e }
  | .ok () => { output := output, outcome := .ok printed.length }

end Spool.Tool
