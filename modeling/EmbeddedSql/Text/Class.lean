/-
**Character classes of Unicode text.**

The classes decide what the scanners and the lexer take for a blank, a word or a number.  ASCII is
decided by comparison, everything else by the tables of `EmbeddedSql.Text.Ranges`.

* `Text.isBlank` — white space;
* `Text.isLetter`, `Text.isDigit`, `Text.isAlphanumeric` — letters, digits, letters and numerals;
* `Text.isWord` — what a word of a pattern consists of: alphanumeric characters and `_`;
* `Text.isNameChar` — what an R name consists of: ASCII letters and digits, `.` and `_`;
* `Text.isPrintable` — characters that are shown as themselves.
-/

import EmbeddedSql.Text.Ranges

set_option relaxedAutoImplicit false
set_option autoImplicit false

namespace EmbeddedSql.Text

/-- White space: tab to carriage return, the four information separators, space, next line and
the space separators. -/
def isBlank (c : Char) : Bool :=
  let n := c.toNat
  (0x09 ≤ n && n ≤ 0x0D) || (0x1C ≤ n && n ≤ 0x20) || n == 0x85 || n == 0xA0 || n == 0x1680 ||
    (0x2000 ≤ n && n ≤ 0x200A) || n == 0x2028 || n == 0x2029 || n == 0x202F || n == 0x205F ||
    n == 0x3000

/-- Letters of all scripts. -/
def isLetter (c : Char) : Bool :=
  c.isAlpha || (128 ≤ c.toNat && inRanges letterRanges c.toNat)

/-- Decimal digits of all scripts, superscripts, circled digits and their like. -/
def isDigit (c : Char) : Bool :=
  c.isDigit || (128 ≤ c.toNat && inRanges digitRanges c.toNat)

/-- The value of a decimal digit of any script. -/
def decimalValue? (c : Char) : Option Nat :=
  (decimalZeros.find? fun z => z ≤ c.toNat && c.toNat < z + 10).map (c.toNat - ·)

/-- Letters and all characters with a numeric value. -/
def isAlphanumeric (c : Char) : Bool :=
  isLetter c || c.isDigit || (128 ≤ c.toNat && inRanges numeralRanges c.toNat)

/-- Characters of a word: alphanumeric ones and the underscore. -/
def isWord (c : Char) : Bool :=
  isAlphanumeric c || c == '_'

/-- Characters of an R name: ASCII letters, ASCII digits, the dot and the underscore. -/
def isNameChar (c : Char) : Bool :=
  c.isAlphanum || c == '.' || c == '_'

/-- Characters an R name may start with in an argument list: ASCII letters and the dot. -/
def isNameStart (c : Char) : Bool :=
  c.isAlpha || c == '.'

/-- Characters that stand for themselves in a display. -/
def isPrintable (c : Char) : Bool :=
  let n := c.toNat
  if n < 128 then 0x20 ≤ n && n < 0x7F else !inRanges unprintableRanges n

end EmbeddedSql.Text
