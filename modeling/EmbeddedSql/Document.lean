/-
**Documents: R source as the detection sees it.**

Lines are separated by single newlines, and a newline counts as one character.  Every conversion
clamps, because offsets and positions may be older than the text.

* `Document` — name, text and version of a buffer; `Document.ofSource` unifies its newlines;
* `Document.offsetOf`, `Document.positionOf` — from positions to offsets and back;
* `Document.positionAt` — the position of an offset that may lie outside the text;
* `Document.advance` — the position some characters after a reference;
* `Document.distance` — the offset of a position inside a fragment;
* `Document.textIn` — the text of a range.
-/

import EmbeddedSql.Position
import EmbeddedSql.Text.Basic

set_option relaxedAutoImplicit false
set_option autoImplicit false

namespace EmbeddedSql

/-- A snapshot of a buffer. -/
structure Document where
  uri : String
  text : Text
  version : Int
  deriving Repr, DecidableEq

namespace Document

/-- The snapshot of raw source. -/
def ofSource (uri : String) (source : Text) (version : Int) : Document :=
  ⟨uri, Text.unifyNewlines source, version⟩

/-- The lines of the document. -/
def lines (d : Document) : List Text :=
  d.text.lines

/-- The offset at which each line starts, when the first one starts at `start`. -/
def lineStartsFrom (start : Nat) : List Text → List Nat
  | [] => []
  | l :: rest => start :: lineStartsFrom (start + l.length + 1) rest

/-- The offset of the first character of every line. -/
def lineStarts (d : Document) : List Nat :=
  lineStartsFrom 0 d.lines

/-- The number of lines; there is always at least one. -/
def lineCount (d : Document) : Nat :=
  d.lines.length

/-- A line by its number, empty when there is no such line. -/
def lineAt (d : Document) (n : Nat) : Text :=
  (d.lines[n]?).getD []

/-! ### Offsets and positions -/

/-- How many characters of a text stand before a line and character. -/
def charsBefore : Text → (line character : Nat) → Nat
  | [], _, _ => 0
  | c :: rest, 0, k => if c = '\n' || k = 0 then 0 else charsBefore rest 0 (k - 1) + 1
  | c :: rest, line + 1, k => charsBefore rest (if c = '\n' then line else line + 1) k + 1

/-- The offset of a position.  A character beyond its line is the end of the line, a line beyond
the document is the end of the text. -/
def offsetOf (d : Document) (p : Position) : Nat :=
  charsBefore d.text p.line p.character

/-- The position `n` characters after the given one, along a text. -/
def walk (p : Position) : Text → (n : Nat) → Position
  | [], _ => p
  | _ :: _, 0 => p
  | c :: rest, n + 1 =>
    if c = '\n' then walk ⟨p.line + 1, 0⟩ rest n else walk ⟨p.line, p.character + 1⟩ rest n

/-- The position of an offset; an offset beyond the text is its end. -/
def positionOf (d : Document) (offset : Nat) : Position :=
  walk ⟨0, 0⟩ d.text offset

/-- The position of an offset that may be older than the text: one before the text is its start. -/
def positionAt (d : Document) (offset : Int) : Position :=
  d.positionOf offset.toNat

/-- The range between two offsets. -/
def rangeOf (d : Document) (start stop : Nat) : Range :=
  ⟨d.positionOf start, d.positionOf stop⟩

/-- The text of a range. -/
def textIn (d : Document) (r : Range) : Text :=
  d.text.slice (d.offsetOf r.start) (d.offsetOf r.stop)

/-! ### Fragments -/

/-- Goes `remaining` characters forward from a character of the first of some lines, whose number
is `line`.  The last line is never left.  Nothing is found without a line to start on. -/
def advanceLines (line character : Nat) (remaining : Int) : List Text → Option Position
  | [] => none
  | l :: rest =>
    let available : Int := (l.length : Int) - character
    if remaining ≤ 0 then some ⟨line, character⟩
    else if remaining ≤ available then some ⟨line, character + remaining.toNat⟩
    else if rest.isEmpty then some ⟨line, l.length⟩
    else advanceLines (line + 1) 0 (remaining - (available + 1)) rest

/-- The end of the last of some lines. -/
def endOfLines (ls : List Text) : Position :=
  ⟨ls.length - 1, (ls.getLast?.getD []).length⟩

/-- The position `offset` characters after a reference position, given the lines of the document.
A reference beyond the last line gives the end of the document. -/
def advanceIn (ls : List Text) (reference : Position) (offset : Int) : Position :=
  (advanceLines reference.line reference.character offset (ls.drop reference.line)).getD
    (endOfLines ls)

/-- The position `offset` characters after a reference position. -/
def advance (d : Document) (reference : Position) (offset : Int) : Position :=
  advanceIn d.lines reference offset

/-- The offset of a position inside the fragment that starts at a reference position; zero before
it. -/
def distance (d : Document) (reference p : Position) : Nat :=
  d.offsetOf p - d.offsetOf reference

end Document

end EmbeddedSql
