import Spool.Tool.Window

/-!
# The command line of the tools

Both tools take the same arguments: an optional input file and the options `--skip <N>` and
`--take <N>`, plus `-h`/`--help` and `-V`/`--version`. Arguments are read from left to right:

* `--` makes every later argument a file argument;
* `--name=value` gives an option its value at once; `--name` alone waits for the next argument,
  which is its value even when it starts with `-`;
* `-xyz` is a cluster of one-letter flags;
* any other argument is the file, and there is at most one.

A value waits until the next option or file argument, or the end, before it is checked: a missing
value, an option given twice and a value that is not a count are found then. Help and version
stop the reading at once, unless a value before them is wrong. An unknown argument stops it too;
the checks of a waiting value are then skipped.

A count is written in decimal digits, with an optional `+`, and must be below 2^64. A file
argument must not be empty.

`parse` gives the request, or the reason to stop: help, version, or a usage error, whose text
`UsageError.render` writes with the command's usage line. That line lists the arguments used so
far: one by one after an unknown argument, and with the window options and the file shown by
their sets after a flag given a value.
-/

namespace Spool.Tool

/-- The two programs. -/
inductive Program where
  /-- Runs of equal bytes. -/
  | runLength
  /-- Paragraphs of a text. -/
  | paragraphs

namespace Program

/-- The command name. -/
def name : Program → String
  | runLength => "rle"
  | paragraphs => "paragraphs"

/-- The tool with this command name. -/
def ofName? : String → Option Program
  | "rle" => some runLength
  | "paragraphs" => some paragraphs
  | _ => none

/-- What the tool does, in one line. -/
def about : Program → String
  | runLength => "Print the runs of equal bytes of the input"
  | paragraphs => "Print a window of the paragraphs of a text"

/-- The version of both tools. -/
def version : String := "0.1.0"

/-- The help text. -/
def help (t : Program) : String :=
  t.about ++ "\n\nUsage: " ++ t.name ++ " [OPTIONS] [FILE]\n\n" ++
    "Arguments:\n  [FILE]  Input file (reads stdin when omitted)\n\n" ++
    "Options:\n" ++
    "      --skip <N>  Number of leading groups to skip [default: 0]\n" ++
    "      --take <N>  Maximum number of groups to print after skipping\n" ++
    "  -h, --help      Print help\n" ++
    "  -V, --version   Print version\n"

/-- The version text. -/
def versionText (t : Program) : String :=
  t.name ++ " " ++ version ++ "\n"

end Program

/-- The arguments a command line can name. -/
inductive Argument where
  | skip
  | take
  | help
  | version
  | file
  deriving DecidableEq

namespace Argument

/-- The long names, in the order the command declares them. -/
def longs : List (String × Argument) :=
  [("skip", skip), ("take", take), ("help", help), ("version", version)]

/-- How the argument is written in messages. -/
def display : Argument → String
  | skip => "--skip <N>"
  | take => "--take <N>"
  | help => "--help"
  | version => "--version"
  | file => "[FILE]"

/-- The window options and the file each belong to a set of arguments; help and version stand
alone. -/
def inSet : Argument → Bool
  | help | version => false
  | _ => true

/-- How the set of an argument is written in a usage line: the window options together, the file
by itself. -/
def setDisplay : Argument → String
  | skip | take => "<--skip <N>|--take <N>>"
  | file => "<FILE>"
  | a => a.display

end Argument

/-- Why a count does not read. -/
inductive CountError where
  | empty
  | invalidDigit
  | tooLarge

/-- The sentence for each reason. -/
def CountError.message : CountError → String
  | .empty => "cannot parse integer from empty string"
  | .invalidDigit => "invalid digit found in string"
  | .tooLarge => "number too large to fit in target type"

/-- Decimal digits, read from the left; a digit that is not one fails, and so does a value that
reaches 2^64, whichever comes first. -/
def readDigits : Nat → List Char → Except CountError Nat
  | acc, [] => .ok acc
  | acc, c :: cs =>
    if c.isDigit then
      let next := acc * 10 + (c.toNat - '0'.toNat)
      if next < 2 ^ 64 then readDigits next cs else .error .tooLarge
    else .error .invalidDigit

/-- A count: decimal digits with an optional leading `+`. -/
def readCount (s : String) : Except CountError Nat :=
  match s.toList with
  | [] => .error .empty
  | ['+'] => .error .invalidDigit
  | '+' :: cs => readDigits 0 cs
  | cs => readDigits 0 cs

/-- The characters of `xs` matched with characters of `ys`: each takes the first equal character
of `ys` not yet taken that lies within `range` positions of it. The flags mark the matched
positions of each side. -/
def matchWithin (xs ys : Array Char) (range : Nat) : Array Bool × Array Bool :=
  (List.range xs.size).foldl
    (fun (flags : Array Bool × Array Bool) i ↦
      let (xFlags, yFlags) := flags
      let lo := i - range
      let hi := min ys.size (i + range + 1)
      let free j := xs[i]? == ys[j]? && !(yFlags.getD j false)
      match (List.range' lo (hi - lo)).find? free with
      | some j => (xFlags.setIfInBounds i true, yFlags.setIfInBounds j true)
      | none => (xFlags, yFlags))
    (Array.replicate xs.size false, Array.replicate ys.size false)

/-- The characters at the flagged positions, in order. -/
def flagged (cs : Array Char) (flags : Array Bool) : List Char :=
  (List.range cs.size).filterMap fun i ↦ if flags.getD i false then cs[i]? else none

/-- How far two texts are alike, from 0 to 1: the Jaro similarity over characters, in binary
floating point. -/
def similarity (a b : String) : Float :=
  let xs := a.toList.toArray
  let ys := b.toList.toArray
  if xs.isEmpty && ys.isEmpty then 1.0
  else if xs.isEmpty || ys.isEmpty then 0.0
  else
    let (xFlags, yFlags) := matchWithin xs ys (max xs.size ys.size / 2 - 1)
    let matched := (flagged xs xFlags).zip (flagged ys yFlags)
    let m := matched.length
    if m == 0 then 0.0
    else
      let transpositions := (matched.filter fun p ↦ p.1 != p.2).length / 2
      (m.toFloat / xs.size.toFloat + m.toFloat / ys.size.toFloat +
        (m - transpositions).toFloat / m.toFloat) / 3.0

/-- The long name most like `name`, if any is alike above 0.7; of equals, the last declared. -/
def suggestion (name : String) : Option (String × Argument) :=
  Argument.longs.foldl
    (fun best (long, arg) ↦
      let score := similarity name long
      if score > 0.7 then
        match best with
        | some (_, _, s) => if score ≥ s then some (long, arg, score) else best
        | none => some (long, arg, score)
      else best)
    none
    |>.map fun (long, arg, _) ↦ (long, arg)

/-- Why a command line is refused. -/
inductive UsageError where
  /-- An argument that is not one; perhaps like a known one, perhaps worth passing after `--`. -/
  | unknown (arg : String) (similar : Option String) (passAfterDashes : Bool)
      (used : List Argument)
  /-- An option without its value. -/
  | missingValue (option : Argument)
  /-- An option whose value is not a count. -/
  | invalidValue (option : Argument) (value : String) (reason : CountError)
  /-- An option given twice. -/
  | repeated (option : Argument)
  /-- A flag given a value. -/
  | unexpectedValue (flag : Argument) (value : String) (used : List Argument)
  /-- A second file argument. -/
  | extraFile (arg : String)

/-- The usage line for the arguments used so far, each shown by itself, or the general one when
none is: the options in the order they were first used, then the file, shown as optional when it
is unused. -/
def usage (t : Program) (used : List Argument) : String :=
  if used.isEmpty then
    t.name ++ " [OPTIONS] [FILE]"
  else
    let options := (used.filter (· != .file)).eraseDups.map Argument.display
    let file := if used.contains .file then "<FILE>" else "[FILE]"
    " ".intercalate ((t.name :: options) ++ [file])

/-- The usage line for the arguments used so far, where the window options and the file are
shown by their sets: the flags used come first, then the sets used, in the order they were first
used; an unused file is shown as optional at the end. -/
def usageBySet (t : Program) (used : List Argument) : String :=
  if used.isEmpty then
    t.name ++ " [OPTIONS] [FILE]"
  else
    let flags := ((used.filter (!·.inSet)).map Argument.display).eraseDups
    let sets := ((used.filter Argument.inSet).map Argument.setDisplay).eraseDups
    let file := if used.contains .file then [] else ["[FILE]"]
    " ".intercalate (t.name :: (flags ++ sets ++ file))

namespace UsageError

/-- The text of the error, with the usage line where it helps. -/
def render (t : Program) : UsageError → String
  | unknown arg similar passAfterDashes used =>
    let tips :=
      (match similar with
        | some s => "\n\n  tip: a similar argument exists: '" ++ s ++ "'"
        | none => "") ++
      (if passAfterDashes then
        (if similar.isSome then "" else "\n") ++
          "\n  tip: to pass '" ++ arg ++ "' as a value, use '-- " ++ arg ++ "'"
      else "")
    "error: unexpected argument '" ++ arg ++ "' found" ++ tips ++ "\n\nUsage: " ++
      usage t used ++ tryHelp
  | missingValue o =>
    "error: a value is required for '" ++ o.display ++ "' but none was supplied" ++ tryHelp
  | invalidValue o v reason =>
    "error: invalid value '" ++ v ++ "' for '" ++ o.display ++ "': " ++ reason.message ++
      tryHelp
  | repeated o =>
    "error: the argument '" ++ o.display ++ "' cannot be used multiple times\n\nUsage: " ++
      usage t [] ++ tryHelp
  | unexpectedValue flag v used =>
    "error: unexpected value '" ++ v ++ "' for '" ++ flag.display ++
      "' found; no more were expected\n\nUsage: " ++ usageBySet t used ++ tryHelp
  | extraFile arg =>
    "error: unexpected argument '" ++ arg ++ "' found\n\nUsage: " ++ usage t [] ++ tryHelp
where
  tryHelp : String := "\n\nFor more information, try '--help'.\n"

end UsageError

/-- What a command line asks for. -/
structure Request where
  /-- The groups to print. -/
  window : Window
  /-- The input file, or standard input. -/
  path : Option String

/-- Why the command line is not run: help or version is asked for, or it is refused. -/
inductive Stop where
  | help
  | version
  | usage (e : UsageError)

/-- Where the reading of a command line stands. -/
structure Reading where
  /-- An option or file argument whose values are not checked yet, with its values. -/
  waiting : Option (Argument × List String) := none
  /-- Whether the next argument is the value of the waiting option. -/
  expectsValue : Bool := false
  /-- Whether `--` has been read. -/
  afterDashes : Bool := false
  /-- Whether the file argument has been read. -/
  fileRead : Bool := false
  /-- The arguments given, in the order they were recorded. -/
  used : List Argument := []
  /-- The values recorded. -/
  skip : Option Nat := none
  take : Option Nat := none
  path : Option String := none

namespace Reading

/-- Records an argument with its values: checks the number of values, a repetition, and the
count. -/
def record (arg : Argument) (values : List String) (r : Reading) : Except (UsageError × Reading) Reading :=
  match arg, values with
  | .file, v :: _ =>
    let r := { r with used := r.used ++ [.file] }
    -- an empty path names no file, and counts as no value
    if v.isEmpty then .error (.missingValue .file, r) else .ok { r with path := some v }
  | _, [] => .error (.missingValue arg, r)
  | .skip, v :: _ =>
    if r.skip.isSome then .error (.repeated arg, { r with used := r.used.erase .skip })
    else match readCount v with
      | .ok n => .ok { r with skip := some n, used := r.used ++ [.skip] }
      | .error e => .error (.invalidValue arg v e, { r with used := r.used ++ [.skip] })
  | .take, v :: _ =>
    if r.take.isSome then .error (.repeated arg, { r with used := r.used.erase .take })
    else match readCount v with
      | .ok n => .ok { r with take := some n, used := r.used ++ [.take] }
      | .error e => .error (.invalidValue arg v e, { r with used := r.used ++ [.take] })
  | _, _ => .ok r

/-- Checks the waiting argument, if any. -/
def settle (r : Reading) : Except (UsageError × Reading) Reading :=
  match r.waiting with
  | none => .ok r
  | some (arg, values) => record arg values { r with waiting := none }

/-- Checks the waiting argument and ignores what is wrong with it, for an error that wins. -/
def settleQuietly (r : Reading) : Reading :=
  match r.settle with
  | .ok r => r
  | .error (_, r) => r

/-- The waiting argument checked, as the reading goes on. -/
def settled (r : Reading) : Except Stop Reading :=
  match r.settle with
  | .ok r => .ok r
  | .error (e, _) => .error (.usage e)

/-- An unknown long option: suggests a similar name, recorded as used. -/
def unknownLong (name : String) (r : Reading) : Stop :=
  let r := r.settleQuietly
  match suggestion name with
  | some (long, arg) => .usage (.unknown ("--" ++ name) (some ("--" ++ long)) false (r.used ++ [arg]))
  | none => .usage (.unknown ("--" ++ name) none (!r.afterDashes) r.used)

/-- A long option, `--name` or `--name=value`. -/
def long (body : String) (r : Reading) : Except Stop Reading :=
  let (name, value) :=
    match body.splitOn "=" with
    | [] => (body, none)
    | n :: rest => (n, if rest.isEmpty then none else some ("=".intercalate rest))
  match Argument.longs.lookup name with
  | some .help | some .version =>
    let flag := (Argument.longs.lookup name).getD .help
    match value with
    | some v => .error (.usage (.unexpectedValue flag v (r.used ++ [flag])))
    | none => do
      let _ ← r.settled
      .error (if flag == .help then .help else .version)
  | some arg =>
    match value with
    | some v => do
      let r ← r.settled
      match r.record arg [v] with
      | .ok r => .ok { r with expectsValue := false }
      | .error (e, _) => .error (.usage e)
    | none => do
      let r ← r.settled
      .ok { r with waiting := some (arg, []), expectsValue := true }
  | none => .error (unknownLong name r)

/-- A cluster of one-letter flags. -/
def short (letters : List Char) (r : Reading) : Except Stop Reading :=
  match letters with
  | [] => .ok r
  | 'h' :: _ => do
    let _ ← r.settled
    .error .help
  | 'V' :: _ => do
    let _ ← r.settled
    .error .version
  | c :: _ =>
    let r := r.settleQuietly
    .error (.usage (.unknown (String.ofList ['-', c]) none (!r.afterDashes) []))

/-- A file argument. -/
def file (arg : String) (r : Reading) : Except Stop Reading :=
  if r.fileRead then
    .error (.usage (.extraFile arg))
  else do
    let r ← r.settled
    .ok { r with waiting := some (.file, [arg]), fileRead := true, expectsValue := false }

/-- Reads one argument. -/
def step (r : Reading) (arg : String) : Except Stop Reading :=
  if r.afterDashes then
    r.file arg
  else if arg == "--" then
    .ok { r with afterDashes := true }
  else if arg.startsWith "--" then
    r.long (String.ofList (arg.toList.drop 2))
  else if arg.startsWith "-" && arg != "-" then
    r.short (arg.toList.drop 1)
  else if r.expectsValue then
    match r.waiting with
    | some (opt, values) => .ok { r with waiting := some (opt, values ++ [arg]), expectsValue := false }
    | none => r.file arg
  else
    r.file arg

end Reading

/-- Reads a command line: the request, or why it is not run. -/
def parse (args : List String) : Except Stop Request := do
  let r ← args.foldlM Reading.step {}
  let r ← r.settled
  return { window := { skip := r.skip.getD 0, take := r.take }, path := r.path }

end Spool.Tool
