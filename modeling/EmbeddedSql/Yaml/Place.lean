/-
**Places in a settings file.**

* `Yaml.isBreak`, `Yaml.isGap` — line ends, and what separates words;
* `Yaml.endsWord`, `Yaml.endsPart`, `Yaml.endsLine` — what a text starts with when something is
  over;
* `Yaml.isSeparator` — the marks between documents;
* `Yaml.Place`, `Yaml.Place.advance` — what is left of a file, and where that stands;
* `Yaml.Place.left` — how much is left, which every reader makes less.
-/

import EmbeddedSql.Text.Basic

set_option relaxedAutoImplicit false
set_option autoImplicit false

namespace EmbeddedSql.Yaml

/-! ### Characters -/

/-- Characters a file may hold. -/
def isAllowed (c : Char) : Bool :=
  let n := c.toNat
  n = 0x09 || n = 0x0A || n = 0x0D || (0x20 ≤ n && n < 0x7F) || n = 0x85 ||
    (0xA0 ≤ n && n ≠ 0xFFFE && n ≠ 0xFFFF)

/-- Line ends. -/
def isBreak (c : Char) : Bool :=
  c == '\n' || c == '\u0085' || c == '\u2028' || c == '\u2029'

/-- What a line end inside a scalar stands for: most are newlines. -/
def breakText (c : Char) : Text :=
  if c == '\u2028' || c == '\u2029' then [c] else ['\n']

/-- What line ends inside a scalar become: a blank for a single one; of several the first is
dropped, unless it is no newline. -/
def folded (first : Char) (others : Text) : Text :=
  match breakText first with
  | ['\n'] => if others.isEmpty then [' '] else others
  | text => text ++ others

/-- Blanks of a line. -/
def isBlank (c : Char) : Bool :=
  c == ' ' || c == '\t'

/-- Blanks and line ends. -/
def isGap (c : Char) : Bool :=
  isBlank c || isBreak c

/-- Whether nothing, a blank or a line end follows. -/
def endsWord (t : Text) : Bool :=
  t.head?.all isGap

/-- Whether nothing, a space or a line end follows; a tab is no space. -/
def endsPart (t : Text) : Bool :=
  t.head?.all fun c => c == ' ' || isBreak c

/-- Whether nothing or a line end follows. -/
def endsLine (t : Text) : Bool :=
  t.head?.all isBreak

/-- Whether a text starts with a mark between documents. -/
def isSeparator (t : Text) : Bool :=
  (t.take 3 = ['-', '-', '-'] || t.take 3 = ['.', '.', '.']) && endsWord (t.drop 3)

/-! ### Places -/

/-- What is left of a file, and where that stands. -/
structure Place where
  rest : Text
  /-- How many characters stand before. -/
  index : Nat := 0
  line : Nat := 0
  column : Nat := 0
  deriving Repr, DecidableEq

namespace Place

/-- The place some characters further on.  A byte order mark takes no column. -/
def advance : Nat → Place → Place
  | 0, p => p
  | n + 1, p =>
    match p.rest with
    | [] => p
    | c :: rest =>
      advance n {
        rest := rest
        index := p.index + 1
        line := if isBreak c then p.line + 1 else p.line
        column := if isBreak c then 0 else if c = '\uFEFF' then p.column else p.column + 1 }

/-- Advancing leaves what follows the characters passed over. -/
@[simp] theorem rest_advance (n : Nat) (p : Place) : (p.advance n).rest = p.rest.drop n := by
  induction n generalizing p with
  | zero => simp [advance]
  | succ n ih =>
    cases h : p.rest with
    | nil => simp [advance, h]
    | cons c rest => simp [advance, h, ih]

/-- How many characters are left. -/
def left (p : Place) : Nat :=
  p.rest.length

/-- Advancing takes characters away, as long as there are any. -/
@[simp] theorem left_advance (n : Nat) (p : Place) : (p.advance n).left = p.left - n := by
  simp [left]

/-- The place after the characters with a property. -/
def skipWhile (f : Char → Bool) (p : Place) : Place :=
  p.advance (p.rest.takeWhile f).length

/-- Skipping never adds characters. -/
theorem left_skipWhile_le (f : Char → Bool) (p : Place) : (p.skipWhile f).left ≤ p.left := by
  simp [skipWhile]

/-- The place after the spaces of a line. -/
def skipSpaces (p : Place) : Place :=
  p.skipWhile (· == ' ')

/-- The place after spaces and a comment, if nothing else is left of the line, and after the end of
the line. -/
def endLine? (p : Place) : Option Place :=
  let p := p.skipSpaces
  let p := if p.rest.head? = some '#' then p.skipWhile (!isBreak ·) else p
  if endsLine p.rest then some (p.advance 1) else none

end Place

end EmbeddedSql.Yaml
