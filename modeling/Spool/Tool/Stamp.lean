/-!
# Time stamps in a log

A warning is stamped with the time it was logged: an opening bracket, then the date and time in
UTC written `YYYY-MM-DDTHH:MM:SSZ`. Two runs of a tool that fail alike write the same standard
error except for these stamps, so `Stamp.mask` replaces each stamp by a fixed placeholder after
its bracket, and the texts can then be compared whatever the clocks said.

The text is read from left to right. A stamp is an opening bracket followed by exactly the shape
`shape`, where `d` stands for an ASCII digit; a stamp that is found is replaced whole and reading
goes on after it, so two stamps never overlap. Anything that only looks like a stamp in part is
kept as it is, and so is any text that a path or an argument brings in.
-/

namespace Spool.Tool

namespace Stamp

/-- The shape of a stamp after its bracket: `d` stands for an ASCII digit, and any other
character for itself. -/
def shape : List Char := "dddd-dd-ddTdd:dd:ddZ".toList

/-- Whether `text` starts with characters that `pattern` allows, one for one. -/
def fits (pattern text : List Char) : Bool :=
  match pattern, text with
  | [], _ => true
  | _ :: _, [] => false
  | p :: ps, c :: cs => (if p == 'd' then c.isDigit else c == p) && fits ps cs

/-- Replaces every stamp of `text` by `placeholder`, keeping its bracket. -/
def maskChars (placeholder : List Char) : List Char → List Char
  | [] => []
  | c :: cs =>
    if c == '[' && fits shape cs then
      '[' :: (placeholder ++ maskChars placeholder (cs.drop shape.length))
    else c :: maskChars placeholder cs
termination_by text => text.length
decreasing_by
  all_goals simp only [List.length_drop, List.length_cons]
  all_goals omega

/-- The text with every stamp replaced by `placeholder` after its bracket. -/
def mask (placeholder text : String) : String :=
  String.ofList (maskChars placeholder.toList text.toList)

end Stamp

end Spool.Tool
