import Spool.Io.Reader
import Spool.Tool.System

/-!
# Opening the input

A tool reads a file named on its command line, or else its standard input. `FileSystem` says what
each path names: a file with its bytes, a directory, a path that cannot be opened, or nothing.
Opening a path that names nothing fails with the operating system's "no such file" error; a
directory opens, and its first read fails with "is a directory".

Some paths are refused before any look-up: one that holds a NUL character, which no system call
can carry, and one of 4096 bytes or more, the system's limit on a path.

`FileSystem.bare` is the system of `System.entry`, where paths are walked as the kernel walks
them (see `Spool.Tool.System`), and where `/dev/stdin` and its other names read the standard
input. A device that never runs out of bytes is opened as a block of `deviceBlock` zeros: a
tool that reads such a device to its end never stops, so only a run that reads none of it, or
stops early, ends at all.
-/

namespace Spool.Tool

open Spool.Io

/-- What each path names, if anything. -/
abbrev FileSystem := String → Option Node

namespace FileSystem

/-- The length from which a path is refused, in bytes. -/
def pathLimit : Nat := 4096

/-- How many zeros a device that never runs out of bytes is opened with. -/
def deviceBlock : Nat := 65536

/-- The system of `System.entry`, whose standard input holds `stdin`. -/
def bare (stdin : Array UInt8) : FileSystem :=
  System.resolve stdin

/-- Opens `path` for reading. -/
def openPath (fs : FileSystem) (path : String) : Except IoError Reader :=
  if path.contains (Char.ofNat 0) then
    .error (.fixed .invalidInput "file name contained an unexpected NUL byte")
  else if path.utf8ByteSize ≥ pathLimit then
    .error (.os 36)
  else
    match fs path with
    | some (.file bytes) => .ok (Reader.ofBytes bytes)
    | some .directory => .ok (Reader.failing (.os 21))
    | some (.unreadable code) => .ok (Reader.failing (.os code))
    | some .endless => .ok (Reader.ofBytes (Array.replicate deviceBlock 0))
    | some (.refused code) => .error (.os code)
    | none => .error (.os 2)

end FileSystem

end Spool.Tool
