import Spool.Io.Error
import Spool.Text.Escape

/-!
# Why a tool stops

A tool stops early when its input cannot be opened or when a read fails. `Failure.message` is the
sentence for people; `Failure.detail` is the structured form a program prints when it exits on the
failure, naming the cause and its fields, with texts quoted.
-/

namespace Spool.Tool

open Spool.Io

/-- The structured form of an input or output error: its kind and message, or the operating
system's number, kind and description. -/
def errorDetail : IoError → String
  | .custom kind message =>
    "Custom \x7b kind: " ++ kind.name ++ ", error: " ++ Text.quote message ++ " \x7d"
  | .fixed kind message =>
    "Error \x7b kind: " ++ kind.name ++ ", message: " ++ Text.quote message ++ " \x7d"
  | .os code =>
    "Os \x7b code: " ++ toString code ++ ", kind: " ++ (ErrorKind.ofCode code).name ++
      ", message: " ++ Text.quote (describeCode code) ++ " \x7d"

/-- Why a tool stopped. -/
inductive Failure where
  /-- A read failed. -/
  | io (e : IoError)
  /-- The input file could not be opened. -/
  | openFailed (path : String) (e : IoError)

namespace Failure

/-- The failure as a sentence. -/
def message : Failure → String
  | io e => "I/O error: " ++ e.message
  | openFailed path e => "Failed to open " ++ path ++ ": " ++ e.message

/-- The failure in structured form. -/
def detail : Failure → String
  | io e => "Io(" ++ errorDetail e ++ ")"
  | openFailed path e =>
    "Open \x7b path: " ++ Text.quote path ++ ", source: " ++ errorDetail e ++ " \x7d"

end Failure

end Spool.Tool
