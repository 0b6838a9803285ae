/-!
# Input and output errors

A read or an open can fail. Each failure has a kind, and a text that is shown to people. There are
three sources of failures:

* `custom`: a failure raised by a reader with its own message;
* `fixed`: a failure the library raises with a fixed message, such as a line that is not UTF-8;
* `os`: a failure reported by the operating system as an error number, whose kind and
  description follow from the number.

`IoError.message` is the text shown to people.
-/

namespace Spool.Io

/-- The kinds of failure that readers report. -/
inductive ErrorKind where
  | notFound
  | permissionDenied
  | brokenPipe
  | invalidData
  | timedOut
  | unexpectedEof
  | interrupted
  | isADirectory
  | notADirectory
  | invalidInput
  | invalidFilename
  | inputOutputError
  | filesystemLoop
  | other
  | uncategorized
  deriving DecidableEq

/-- The name of each kind. -/
def ErrorKind.name : ErrorKind → String
  | .notFound => "NotFound"
  | .permissionDenied => "PermissionDenied"
  | .brokenPipe => "BrokenPipe"
  | .invalidData => "InvalidData"
  | .timedOut => "TimedOut"
  | .unexpectedEof => "UnexpectedEof"
  | .interrupted => "Interrupted"
  | .isADirectory => "IsADirectory"
  | .notADirectory => "NotADirectory"
  | .invalidInput => "InvalidInput"
  | .invalidFilename => "InvalidFilename"
  | .inputOutputError => "InputOutputError"
  | .filesystemLoop => "FilesystemLoop"
  | .other => "Other"
  | .uncategorized => "Uncategorized"

/-- The kind of failure an operating-system error number stands for; a number without a kind of
its own is uncategorized. -/
def ErrorKind.ofCode : Nat → ErrorKind
  | 1 => .permissionDenied
  | 2 => .notFound
  | 4 => .interrupted
  | 5 => .inputOutputError
  | 13 => .permissionDenied
  | 20 => .notADirectory
  | 21 => .isADirectory
  | 32 => .brokenPipe
  | 36 => .invalidFilename
  | 40 => .filesystemLoop
  | 110 => .timedOut
  | _ => .uncategorized

/-- The description of an operating-system error number. -/
def describeCode : Nat → String
  | 1 => "Operation not permitted"
  | 2 => "No such file or directory"
  | 4 => "Interrupted system call"
  | 5 => "Input/output error"
  | 6 => "No such device or address"
  | 13 => "Permission denied"
  | 20 => "Not a directory"
  | 21 => "Is a directory"
  | 32 => "Broken pipe"
  | 36 => "File name too long"
  | 40 => "Too many levels of symbolic links"
  | 110 => "Connection timed out"
  | n => s!"Unknown error {n}"

/-- A failed read or open. -/
inductive IoError where
  /-- Raised by a reader, with its own message. -/
  | custom (kind : ErrorKind) (message : String)
  /-- Raised by the library, with a fixed message. -/
  | fixed (kind : ErrorKind) (message : String)
  /-- Reported by the operating system. -/
  | os (code : Nat)
  deriving DecidableEq

namespace IoError

/-- The kind of the failure. -/
def kind : IoError → ErrorKind
  | custom k _ => k
  | fixed k _ => k
  | os code => ErrorKind.ofCode code

/-- The failure as shown to people. -/
def message : IoError → String
  | custom _ m => m
  | fixed _ m => m
  | os code => s!"{describeCode code} (os error {code})"

/-- A line that is not valid UTF-8. -/
def invalidUtf8 : IoError :=
  fixed .invalidData "stream did not contain valid UTF-8"

end IoError

end Spool.Io
