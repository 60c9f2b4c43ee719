/-
**The relative encoding of highlights.**

A client gets highlights as a flat list of numbers, five per highlight: the distance in lines and
columns from the highlight before, the length, the place of the type in the legend and the
modifiers as a bit mask.  Columns and lengths count UTF-16 units.

* `Highlight.Cell` — a highlight in client coordinates;
* `Highlight.cells` — the highlights in order, as cells, restricted to a range;
* `Highlight.relative` — the numbers of some cells;
* `Highlight.encode` — the numbers of some highlights.
-/

import EmbeddedSql.Buffer
import EmbeddedSql.Highlight.Basic

set_option relaxedAutoImplicit false
set_option autoImplicit false

namespace EmbeddedSql.Highlight

/-- A highlight as the client sees it. -/
structure Cell where
  start : Position
  length : Nat
  type : Nat
  modifiers : Nat
  deriving Repr, DecidableEq

/-- Document order of highlights. -/
def notAfter (a b : Highlight) : Bool :=
  a.line < b.line || (a.line == b.line && a.offset ≤ b.offset)

/-- Whether a position lies in a range whose end does not belong to it. -/
def startsIn (r : Range) (p : Position) : Bool :=
  r.start.le p && p.compare r.stop == .lt

/-- Where a highlight starts for the client, given the lines of the client.  A place that no
position can hold is an error. -/
def start (ls : List Text) (h : Highlight) : Except Error Position :=
  ((Position.ofInts h.line h.offset).mapError Error.outOfRange).map (Buffer.toClientIn ls)

/-- The cell of a highlight that starts at the given position. -/
def cell (h : Highlight) (start : Position) : Except Error Cell :=
  match Legend.index? h.type with
  | some type => .ok ⟨start, Text.units h.text, type, h.modifiers.foldl (· ||| ·) 0⟩
  | none => .error (.unknownType h.type)

/-- The cell of a highlight, unless it starts outside the range. -/
def cellIn (ls : List Text) (range : Option Range) (h : Highlight) :
    Except Error (Option Cell) := do
  let p ← start ls h
  if range.all (startsIn · p) then return some (← cell h p) else return none

/-- The cells of some highlights in document order.  With a range only those that start in it. -/
def cells (ls : List Text) (range : Option Range) (hs : List Highlight) :
    Except Error (List Cell) := do
  return (← (hs.mergeSort notAfter).mapM (cellIn ls range)).filterMap id

/-- The numbers of some cells, the distances counted from the given position. -/
def relative (previous : Position) : List Cell → List Int
  | [] => []
  | c :: rest =>
    let lines : Int := (c.start.line : Int) - previous.line
    let columns : Int :=
      if lines = 0 then (c.start.character : Int) - previous.character else c.start.character
    lines :: columns :: (c.length : Int) :: (c.type : Int) :: (c.modifiers : Int) ::
      relative c.start rest

/-- The numbers of some highlights in a buffer, in document order. -/
def encode (b : Buffer) (range : Option Range) (hs : List Highlight) : Except Error (List Int) :=
  (cells b.lines range hs).map (relative ⟨0, 0⟩)

end EmbeddedSql.Highlight
