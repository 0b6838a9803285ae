/-!
# Blank text

A character is blank when it has the Unicode White_Space property: the ASCII tab, line feed,
vertical tab, form feed, carriage return and space, the next-line and no-break spaces, the Ogham
space mark, the typographic spaces from en quad to hair space, the line and paragraph separators,
the narrow no-break space, the medium mathematical space and the ideographic space. A text is
blank when it has nothing but blank characters, so that trimming the blanks at both ends leaves
nothing.
-/

namespace Spool.Text

/-- Whether a character has the Unicode White_Space property. -/
def isBlankChar (c : Char) : Bool :=
  let n := c.toNat
  (0x09 ≤ n && n ≤ 0x0D) || n == 0x20 || n == 0x85 || n == 0xA0 || n == 0x1680 ||
    (0x2000 ≤ n && n ≤ 0x200A) || n == 0x2028 || n == 0x2029 || n == 0x202F || n == 0x205F ||
    n == 0x3000

/-- Whether a text holds only blank characters. -/
def isBlank (s : String) : Bool :=
  s.toList.all isBlankChar

end Spool.Text
