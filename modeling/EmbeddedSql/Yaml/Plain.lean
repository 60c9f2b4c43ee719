/-
**Plain scalars as they are written.**

A plain scalar is a run of words.  It ends before a comment, before a colon that a blank follows,
and, in a block, before a line that is not indented enough.  In a flow collection the indicators of
the collection end it too.

* `Yaml.startsPlain` — what a plain scalar may start with;
* `Yaml.word` — its characters up to the next blank;
* `Yaml.plainGap` — blanks and line ends between two words;
* `Yaml.plain` — a whole scalar.
-/

import EmbeddedSql.Yaml.Place

set_option relaxedAutoImplicit false
set_option autoImplicit false

namespace EmbeddedSql.Yaml

/-- Characters that mean something else where a plain scalar might start. -/
def indicators : List Char :=
  ['-', '?', ':', ',', '[', ']', '{', '}', '#', '&', '*', '!', '|', '>', '\'', '"', '%', '@',
    '\x60']

/-- Whether a text starts with a plain scalar.  A dash may start one when a word goes on after it,
and outside flow collections so may a question mark and a colon. -/
def startsPlain (flow : Bool) : Text → Bool
  | [] => false
  | c :: rest =>
    !(isGap c || indicators.contains c) ||
      (!endsWord rest && (c = '-' || (!flow && (c = '?' || c = ':'))))

/-- Whether a colon that this text follows ends a plain scalar. -/
def endsKey (flow : Bool) (rest : Text) : Bool :=
  rest.head?.all fun c => isGap c || (flow && [',', '[', ']', '{', '}'].contains c)

/-- The characters of a plain scalar up to the next blank. -/
def word (flow : Bool) : Text → Text
  | [] => []
  | c :: rest =>
    if isGap c || (c = ':' && endsKey flow rest) ||
        (flow && [',', '?', '[', ']', '{', '}'].contains c) then []
    else c :: word flow rest

/-- What stands between two words: the text it stands for, the place after it, and whether a line
ended. -/
structure Gap where
  text : Text
  place : Place
  crossed : Bool
  deriving Repr, DecidableEq

/-- Passes over spaces and line ends.  No line ends are given when a mark between documents comes
up. -/
def passBreaks (p : Place) : Option Text × Place :=
  match _ : p.rest with
  | [] => (some [], p)
  | c :: rest =>
    if c = ' ' then passBreaks (p.advance 1)
    else if isBreak c then
      if isSeparator rest then (none, p.advance 1)
      else
        let (breaks, q) := passBreaks (p.advance 1)
        (breaks.map (breakText c ++ ·), q)
    else (some [], p)
termination_by p.left
decreasing_by all_goals simp [Place.left, *]

/-- Passing over line ends never adds characters. -/
theorem left_passBreaks_le (p : Place) : (passBreaks p).2.left ≤ p.left := by
  fun_induction passBreaks p with
  | case1 => simp
  | case2 p rest h ih => exact Nat.le_trans ih (by simp)
  | case3 => simp
  | case4 p c rest h _ _ _ breaks q hq ih =>
    rw [hq] at ih
    exact Nat.le_trans ih (by simp)
  | case5 => simp

/-- What stands between two words of a plain scalar.  Tabs do not. -/
def plainGap (p : Place) : Gap :=
  let spaces := p.rest.takeWhile (· == ' ')
  let p := p.advance spaces.length
  match p.rest with
  | [] => ⟨spaces, p, false⟩
  | c :: rest =>
    if !isBreak c then ⟨spaces, p, false⟩
    else if isSeparator rest then ⟨[], p.advance 1, true⟩
    else
      match passBreaks (p.advance 1) with
      | (some breaks, p) => ⟨folded c breaks, p, true⟩
      | (none, p) => ⟨[], p, true⟩

/-- A gap never adds characters. -/
theorem left_plainGap_le (p : Place) : (plainGap p).place.left ≤ p.left := by
  unfold plainGap
  have hp := left_passBreaks_le ((p.advance (p.rest.takeWhile (· == ' ')).length).advance 1)
  grind [Place.left_advance]

/-- A plain scalar as it is written, and what follows it. -/
structure Plain where
  text : Text
  place : Place
  /-- Whether it was followed by a line end. -/
  crossed : Bool
  deriving Repr, DecidableEq

/-- The rest of a plain scalar, given what was read of it, last character first.  In a block, lines
that start before the column `floor` do not belong to it. -/
def plainFrom (flow : Bool) (floor : Nat) (read : Text) (g : Gap) : Plain :=
  let w := if g.place.rest.head? = some '#' then [] else word flow g.place.rest
  if w.isEmpty then ⟨read.reverse, g.place, g.crossed⟩
  else
    let next := plainGap (g.place.advance w.length)
    let read := w.reverse ++ g.text.reverse ++ read
    if next.text.isEmpty || next.place.rest.head? = some '#' ||
        (!flow && next.place.column < floor) then
      ⟨read.reverse, next.place, next.crossed⟩
    else plainFrom flow floor read next
termination_by g.place.left
decreasing_by
  have hw : 0 < w.length := by grind
  have hl : 0 < g.place.left := by grind [Place.left, word]
  have hn := left_plainGap_le (g.place.advance w.length)
  grind [Place.left_advance]

/-- The plain scalar that starts at a place. -/
def plain (flow : Bool) (floor : Nat) (p : Place) : Plain :=
  plainFrom flow floor [] ⟨[], p, false⟩

end EmbeddedSql.Yaml
