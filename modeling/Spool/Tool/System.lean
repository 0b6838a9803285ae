/-!
# The system a tool runs on

A path is walked component by component, the way the kernel resolves it. The walk stands in a
directory, named by its `Place`: the names of the directories from the root down to it. An empty
component and `.` stay, `..` goes up to the parent (the root is its own parent), and any other
name is looked up in the directory:

* a name of more than 255 bytes is too long, except in the process and kernel file systems under
  `/proc` and `/sys`, which never check the length and simply do not have such a name;
* a directory is entered; anything else ends the walk there, and a component after it, even an
  empty one from a trailing slash, asks for a directory where there is none;
* a symbolic link is replaced by its path, read from the root or from the directory that holds
  it, and the walk goes on through it; the links of the process file system lead straight to
  what they stand for. At most 40 links are followed in one walk, and the next one fails with
  "too many levels of symbolic links".

`entry` is the system itself: the usual top-level directories, the devices, and the part of the
process file system that reads the same on every run. The running process's directory, its
thread's directory, and the directories above the working directory have names no path can
spell, since they hold a slash; a path reaches them only through `/proc/self`,
`/proc/thread-self` and `..`. The working directory is empty and sits three levels below the
root.

`walk` takes fuel: each step uses up one component or follows one link, and a link adds at most
four components, so the path's components plus six steps for each link allowed always suffice.
-/

namespace Spool.Tool

/-- What a path names: a file, a directory, or something that cannot be opened. -/
inductive Node where
  /-- A file with these bytes. -/
  | file (bytes : Array UInt8)
  /-- A directory. -/
  | directory
  /-- A file that opens, but whose every read fails with the operating system's error number. -/
  | unreadable (code : Nat)
  /-- A device that never runs out of bytes, read here as zeros. -/
  | endless
  /-- A path that cannot be opened, with the operating system's error number. -/
  | refused (code : Nat)

/-- A directory of the system, by the names of the directories from the root down to it. -/
abbrev Place := List String

/-- What a directory holds under a name. -/
inductive DirectoryEntry where
  /-- A directory. -/
  | directory
  /-- Anything else a walk can end at. -/
  | leaf (node : Node)
  /-- A symbolic link to a path, read from the root or from the directory holding the link. -/
  | link (fromRoot : Bool) (target : List String)
  /-- A link of the process file system that leads straight to a directory. -/
  | directoryLink (place : Place)
  /-- A link of the process file system that leads straight to something else. -/
  | leafLink (node : Node)

namespace System

/-- The longest name of one component, in bytes. -/
def nameLimit : Nat := 255

/-- The most symbolic links one walk follows. -/
def linkLimit : Nat := 40

/-- The error number of a component after something that is not a directory. -/
def notADirectory : Nat := 20

/-- The error number of a name that is too long. -/
def nameTooLong : Nat := 36

/-- The error number of a walk that meets more links than it may follow. -/
def tooManyLinks : Nat := 40

/-- A name that no path component can spell, since components never hold a slash. -/
def unspellable (name : String) : String := "/" ++ name

/-- The name of the running process's directory under `/proc`. -/
def processName : String := unspellable "process"

/-- The name of the running thread's directory under the process's `task`. -/
def threadName : String := unspellable "thread"

/-- The working directory: three levels below the root, in directories whose names the system
does not show. -/
def workingPlace : Place := [unspellable "top", unspellable "middle", unspellable "working"]

/-- The top-level directories. -/
def topDirectories : List String :=
  ["bin", "dev", "etc", "home", "lib", "media", "mnt", "opt", "proc", "root", "run", "sbin", "srv",
    "sys", "tmp", "usr", "var"]

/-- The directories of the running process. -/
def processDirectories : List String :=
  ["attr", "fd", "fdinfo", "map_files", "net", "ns", "task"]

/-- The files of the running process that open for reading; what they hold changes from run to
run, and they hold no bytes here. -/
def processFiles : List String :=
  ["arch_status", "auxv", "cgroup", "cmdline", "comm", "coredump_filter", "cpuset", "environ",
    "gid_map", "io", "limits", "loginuid", "maps", "mountinfo", "mounts", "mountstats",
    "numa_maps", "oom_adj", "oom_score", "oom_score_adj", "pagemap", "personality", "projid_map",
    "sched", "schedstat", "sessionid", "setgroups", "smaps", "smaps_rollup", "stat", "statm",
    "status", "syscall", "timers", "timerslack_ns", "uid_map", "wchan"]

/-- The files at the top of the process file system, which describe the whole system. -/
def systemFiles : List String :=
  ["cmdline", "cpuinfo", "devices", "diskstats", "filesystems", "interrupts", "loadavg",
    "meminfo", "partitions", "stat", "swaps", "uptime", "version"]

/-- The directories at the top of the kernel file system. -/
def kernelDirectories : List String :=
  ["block", "bus", "class", "dev", "devices", "firmware", "fs", "kernel", "module", "power"]

/-- The usual files of the system's configuration, which differ from system to system. -/
def configurationFiles : List String :=
  ["group", "hostname", "hosts", "passwd", "resolv.conf"]

/-- An empty file, or a file whose bytes are not known. -/
def unknownFile : DirectoryEntry := .leaf (.file #[])

/-- Whether a directory belongs to the process or kernel file system, which looks up a name of
any length. -/
def isVirtual (place : Place) : Bool :=
  place.head? == some "proc" || place.head? == some "sys"

/-- The running process's directory. Its memory is not mapped at its first bytes, so reading it
fails with an input/output error (5); `clear_refs` is write-only and does not open for reading
(13); `root` and `cwd` lead to the root and the working directory, and `exe` to the program. -/
def processEntry : String → Option DirectoryEntry
  | "mem" => some (.leaf (.unreadable 5))
  | "clear_refs" => some (.leaf (.refused 13))
  | "root" => some (.directoryLink [])
  | "cwd" => some (.directoryLink workingPlace)
  | "exe" => some (.leafLink (.file #[]))
  | name =>
    if processDirectories.contains name then some .directory
    else if processFiles.contains name then some unknownFile
    else none

/-- What the directory at `place` holds under `name`, on a system whose standard input holds
`stdin`.

`/dev/null` is empty; `/dev/zero`, `/dev/full` and the random devices never run out;
`/dev/tty` does not open without a terminal (6); and `/dev/stdin`, `/dev/stdout`, `/dev/stderr`
and `/dev/fd` lead through `/proc/self` to the process's descriptors. Of those, the standard input
reads `stdin`, and the two outputs read nothing that a run could know. The kernel's release
changes from system to system, and holds no bytes here. -/
def entry (stdin : Array UInt8) (place : Place) (name : String) : Option DirectoryEntry :=
  match place with
  | [] => if topDirectories.contains name then some .directory else none
  | ["dev"] =>
    match name with
    | "null" | "ptmx" => some unknownFile
    | "zero" | "full" | "random" | "urandom" => some (.leaf .endless)
    | "tty" => some (.leaf (.refused 6))
    | "stdin" => some (.link true ["proc", "self", "fd", "0"])
    | "stdout" => some (.link true ["proc", "self", "fd", "1"])
    | "stderr" => some (.link true ["proc", "self", "fd", "2"])
    | "fd" => some (.link true ["proc", "self", "fd"])
    | "mqueue" | "pts" | "shm" => some .directory
    | _ => none
  | ["etc"] => if configurationFiles.contains name then some unknownFile else none
  | ["proc"] =>
    match name with
    | "1" | "sys" => some .directory
    | "self" => some (.link false [processName])
    | "mounts" => some (.link false ["self", "mounts"])
    | "net" => some (.link false ["self", "net"])
    | "thread-self" => some (.link false [processName, "task", threadName])
    | _ =>
      if name == processName then some .directory
      else if systemFiles.contains name then some unknownFile
      else none
  | ["proc", "sys"] => if name == "kernel" then some .directory else none
  | ["proc", "sys", "kernel"] =>
    match name with
    | "ostype" => some (.leaf (.file "Linux\n".toUTF8.data))
    | "osrelease" => some unknownFile
    | _ => none
  | ["proc", dir] => if dir == processName then processEntry name else none
  | ["proc", dir, "task"] =>
    if dir == processName && name == threadName then some .directory else none
  | ["proc", dir, "task", thread] =>
    if dir == processName && thread == threadName then processEntry name else none
  | ["proc", dir, "fd"] =>
    if dir != processName then none
    else if name == "0" then some (.leafLink (.file stdin))
    else if name == "1" || name == "2" then some (.leafLink (.file #[]))
    else none
  | ["sys"] => if kernelDirectories.contains name then some .directory else none
  | _ => none

/-- Where a walk stands: in a directory, or at something that is not one. -/
inductive Stand where
  | inside (place : Place)
  | reached (node : Node)

/-- Walks `parts` from `stand`, having followed `links` links so far. -/
def walk (stdin : Array UInt8) : Nat → Nat → Stand → List String → Option Node
  | 0, _, _, _ => some (.refused tooManyLinks)
  | _ + 1, _, .reached node, [] => some node
  | _ + 1, _, .inside _, [] => some .directory
  | _ + 1, _, .reached _, _ :: _ => some (.refused notADirectory)
  | fuel + 1, links, .inside place, part :: rest =>
    if part.isEmpty || part == "." then walk stdin fuel links (.inside place) rest
    else if part == ".." then walk stdin fuel links (.inside place.dropLast) rest
    else if !isVirtual place && part.utf8ByteSize > nameLimit then some (.refused nameTooLong)
    else
      match entry stdin place part with
      | none => none
      | some .directory => walk stdin fuel links (.inside (place ++ [part])) rest
      | some (.leaf node) => walk stdin fuel links (.reached node) rest
      | some (.link fromRoot target) =>
        if links < linkLimit then
          walk stdin fuel (links + 1) (.inside (if fromRoot then [] else place)) (target ++ rest)
        else some (.refused tooManyLinks)
      | some (.directoryLink dest) =>
        if links < linkLimit then walk stdin fuel (links + 1) (.inside dest) rest
        else some (.refused tooManyLinks)
      | some (.leafLink node) =>
        if links < linkLimit then walk stdin fuel (links + 1) (.reached node) rest
        else some (.refused tooManyLinks)

/-- What `path` names, from the root when it starts with a slash and from the working directory
otherwise; the empty path names nothing. -/
def resolve (stdin : Array UInt8) (path : String) : Option Node :=
  if path.isEmpty then none
  else
    let parts := path.splitOn "/"
    let start := if path.startsWith "/" then Stand.inside [] else Stand.inside workingPlace
    walk stdin (parts.length + (linkLimit + 1) * 6) 0 start parts

end System

end Spool.Tool
