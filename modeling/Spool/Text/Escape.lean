import Spool.Text.Printable

/-!
# Escaped text

Two ways of writing arbitrary data as readable ASCII-safe text:

* `escapeByte`: a byte as text: printable ASCII stands for itself, tab, carriage return and line
  feed are written `\t`, `\r` and `\n`, a backslash and both quotes get a backslash before them,
  and every other byte is `\x` with two lowercase hexadecimal digits;
* `quote`: a text between double quotes, with a backslash before a double quote or a backslash,
  `\t`, `\r`, `\n` and `\0` for those characters, and `\u{…}` with the code point in hexadecimal
  for the other characters that are not printable and for those that extend a grapheme, which
  would otherwise join the character before them.
-/

namespace Spool.Text

/-- The lowercase hexadecimal digit of a number below sixteen. -/
def hexDigit (n : Nat) : Char :=
  if n < 10 then Char.ofNat (0x30 + n) else Char.ofNat (0x61 + n - 10)

/-- A number in lowercase hexadecimal, without leading zeros. -/
def hex (n : Nat) : String :=
  String.ofList ((Nat.toDigits 16 n).map fun c ↦ if c.isDigit then c else c.toLower)

/-- A byte as readable ASCII text. -/
def escapeByte (b : UInt8) : String :=
  let n := b.toNat
  if n == 0x09 then "\\t"
  else if n == 0x0D then "\\r"
  else if n == 0x0A then "\\n"
  else if n == 0x5C then "\\\\"
  else if n == 0x27 then "\\'"
  else if n == 0x22 then "\\\""
  else if 0x20 ≤ n && n ≤ 0x7E then String.singleton (Char.ofNat n)
  else String.ofList ['\\', 'x', hexDigit (n / 16), hexDigit (n % 16)]

/-- Whether a character is written as a code point inside a quoted text: one that is not
printable, or that extends a grapheme. -/
def needsCodePoint (c : Char) : Bool :=
  isGraphemeExtend c || !isPrintable c

/-- One character of a quoted text. -/
def quoteChar (c : Char) : String :=
  if c == '"' then "\\\""
  else if c == '\\' then "\\\\"
  else if c == '\t' then "\\t"
  else if c == '\r' then "\\r"
  else if c == '\n' then "\\n"
  else if c.toNat == 0 then "\\0"
  else if needsCodePoint c then "\\u" ++ "\x7b" ++ hex c.toNat ++ "\x7d"
  else String.singleton c

/-- A text between double quotes, escaped. -/
def quote (s : String) : String :=
  "\"" ++ String.join (s.toList.map quoteChar) ++ "\""

end Spool.Text
