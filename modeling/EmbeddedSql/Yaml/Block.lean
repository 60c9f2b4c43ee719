/-
**Block scalars as they are written.**

The lines of a block scalar are indented alike.  They are kept, or folded like the words of a
sentence, and the line ends after them are kept, clipped to one or dropped.

* `Yaml.BlockHeader` — what is said behind the indicator;
* `Yaml.blockLines` — the lines;
* `Yaml.block` — a whole scalar.
-/

import EmbeddedSql.Yaml.Error
import EmbeddedSql.Yaml.Place

set_option relaxedAutoImplicit false
set_option autoImplicit false

namespace EmbeddedSql.Yaml

/-! ### The header -/

/-- What is said behind the indicator of a block scalar. -/
structure BlockHeader where
  /-- Whether all line ends at the end stay, or none; otherwise one stays. -/
  keep : Option Bool
  /-- By how much the lines are indented, if that is not told by the first one. -/
  increment : Option Nat
  deriving Repr, DecidableEq

/-- The sign for the line ends at the end of a block scalar. -/
def keepSign? : Text → Option Bool
  | '+' :: _ => some true
  | '-' :: _ => some false
  | _ => none

/-- The digit for the indentation of a block scalar. -/
def increment? : Text → Option Nat
  | c :: _ => if c.isDigit then some (c.toNat - '0'.toNat) else none
  | [] => none

/-- The header, and the place behind its line.  Sign and digit may stand in either order. -/
def blockHeader (p : Place) : Except Error (BlockHeader × Place) := do
  let first := keepSign? p.rest
  let p := if first.isSome then p.advance 1 else p
  let increment := increment? p.rest
  let p := if increment.isSome then p.advance 1 else p
  let second := if first.isNone && increment.isSome then keepSign? p.rest else none
  let p := if second.isSome then p.advance 1 else p
  if increment = some 0 || !endsPart p.rest then throw .malformed
  match p.endLine? with
  | some p => return (⟨first.orElse fun _ => second, increment⟩, p)
  | none => throw .malformed

/-! ### Lines -/

/-- Passes over empty lines in front: their ends, the widest indentation seen, and the place after
them. -/
def blockIndent (widest : Nat) (p : Place) : Text × Nat × Place :=
  match _ : p.rest with
  | [] => ([], widest, p)
  | c :: _ =>
    let next := p.advance 1
    if c = ' ' then blockIndent (max widest next.column) next
    else if isBreak c then
      let (breaks, widest, q) := blockIndent widest next
      (breakText c ++ breaks, widest, q)
    else ([], widest, p)
termination_by p.left
decreasing_by all_goals simp [Place.left, *]

/-- The place after spaces, but not behind a column. -/
def skipIndent (indent : Nat) (p : Place) : Place :=
  p.advance (min (indent - p.column) (p.rest.takeWhile (· == ' ')).length)

/-- Skipping an indentation never adds characters. -/
theorem left_skipIndent_le (indent : Nat) (p : Place) : (skipIndent indent p).left ≤ p.left := by
  simp [skipIndent]

/-- Passes over the indentation and over empty lines: their ends, and the place after them. -/
def blockBreaks (indent : Nat) (p : Place) : Text × Place :=
  let q := skipIndent indent p
  match _ : q.rest with
  | [] => ([], q)
  | c :: _ =>
    if isBreak c then
      let (breaks, r) := blockBreaks indent (q.advance 1)
      (breakText c ++ breaks, r)
    else ([], q)
termination_by p.left
decreasing_by
  have hq := left_skipIndent_le indent p
  grind [Place.left, Place.left_advance]

/-- Passing over empty lines never adds characters. -/
theorem left_blockBreaks_le (indent : Nat) (p : Place) :
    (blockBreaks indent p).2.left ≤ p.left := by
  fun_induction blockBreaks indent p with
  | case1 p => grind [left_skipIndent_le indent p]
  | case2 p q c rest hq hc breaks r hr ih =>
    rw [hr] at ih
    grind [left_skipIndent_le indent p, Place.left_advance]
  | case3 p => grind [left_skipIndent_le indent p]

/-- Lines of a block scalar: their text, last character first, the end of the last one, the ends of
empty lines after it, and the place after them. -/
structure BlockLines where
  text : Text
  lineEnd : Text
  breaks : Text
  place : Place
  deriving Repr, DecidableEq

/-- Whether a line of a block scalar starts at a place. -/
def startsLine (indent : Nat) (p : Place) : Bool :=
  p.column = indent && !p.rest.isEmpty

/-- What joins two lines. -/
def joint (folding : Bool) (indented : Bool) (l : BlockLines) : Text :=
  if folding && l.lineEnd = ['\n'] && !indented && !(l.place.rest.head?.any isBlank) then
    if l.breaks.isEmpty then [' '] else []
  else l.lineEnd

/-- The line at a place, with what follows it. -/
def blockLine (indent : Nat) (l : BlockLines) : BlockLines :=
  let line := l.place.rest.takeWhile (!isBreak ·)
  let p := l.place.advance line.length
  let after := blockBreaks indent (p.advance 1)
  { text := line.reverse ++ l.breaks.reverse ++ l.text
    lineEnd := (p.rest.head?.map breakText).getD []
    breaks := after.1
    place := after.2 }

/-- A line takes characters away if there are any. -/
theorem left_blockLine_lt (indent : Nat) (l : BlockLines) (h : startsLine indent l.place) :
    (blockLine indent l).place.left < l.place.left := by
  have hl : 0 < l.place.left := by
    rw [Place.left, List.length_pos_iff]
    rintro he
    simp [startsLine, he] at h
  have hb := left_blockBreaks_le indent
    ((l.place.advance (l.place.rest.takeWhile (!isBreak ·)).length).advance 1)
  simp only [blockLine, Place.left_advance] at hb ⊢
  omega

/-- The further lines of a block scalar. -/
def blockLines (folding : Bool) (indent : Nat) (l : BlockLines) : BlockLines :=
  if startsLine indent l.place then
    let next := blockLine indent l
    if startsLine indent next.place then
      let joined := (joint folding (l.place.rest.head?.any isBlank) next).reverse ++ next.text
      blockLines folding indent { next with text := joined }
    else next
  else l
termination_by l.place.left
decreasing_by exact left_blockLine_lt indent l ‹_›

/-- The block scalar whose indicator stands at a place.  Its lines are indented more than the block
around it, whose own lines start before the column `floor`. -/
def block (folding : Bool) (floor : Nat) (p : Place) : Except Error (Text × Place) := do
  let (header, p) ← blockHeader (p.advance 1)
  let least := max 1 floor
  let (indent, breaks, p) :=
    match header.increment with
    | some n =>
      let indent := least + n - 1
      let (breaks, p) := blockBreaks indent p
      (indent, breaks, p)
    | none =>
      let (breaks, widest, p) := blockIndent 0 p
      (max least widest, breaks, p)
  let l := blockLines folding indent ⟨[], [], breaks, p⟩
  let lineEnd := if header.keep = some false then [] else l.lineEnd
  let breaks := if header.keep = some true then l.breaks else []
  return (l.text.reverse ++ lineEnd ++ breaks, l.place)

end EmbeddedSql.Yaml
