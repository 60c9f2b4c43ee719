/-
**The scanner for interpolations.**

The scanner goes through a query up to an offset and keeps account of the braces that open and close
interpolations.  Now and then it looks at the next character too: two hyphens start a comment, and
in an R string a backslash or a doubled quote belongs to the character behind it.  Only the doubled
quote is looked for before the offset alone; a hyphen or a backslash at the end of the part that is
scanned takes the character behind that part with it.

* `Scan` — where the scanner stands and what it has found;
* `Scan.move` — what it makes of one character, or of two;
* `Interpolation.scan` — the scan of a text up to an offset;
* `Interpolation.inside` — whether an offset lies inside an interpolation;
* `Interpolation.spans` — the complete interpolations of a text.
-/

import EmbeddedSql.Text.Basic

set_option relaxedAutoImplicit false
set_option autoImplicit false

namespace EmbeddedSql.Interpolation

/-- Quotes of SQL strings. -/
def sqlQuotes : List Char := ['\'', '"']

/-- Quotes of R strings inside an expression. -/
def exprQuotes : List Char := ['\'', '"', '\x60']

/-- What the scanner is in. -/
inductive Scan.Place where
  | sql
  | sqlString
  | sqlComment
  | expr
  | exprString
  deriving Repr, DecidableEq

/-- Where the scanner stands and what it has found. -/
structure Scan where
  place : Scan.Place := .sql
  /-- What the scanner will be in behind the interpolation that is open. -/
  resume : Scan.Place := .sql
  /-- The quote of the latest SQL string. -/
  sqlQuote : Option Char := none
  /-- The quote of the latest R string. -/
  exprQuote : Option Char := none
  /-- The number of braces that are open. -/
  depth : Nat := 0
  /-- The offset of the brace that opened the latest interpolation. -/
  start : Nat := 0
  /-- The complete interpolations, braces included, as pairs of offsets. -/
  spans : List (Nat × Nat) := []
  deriving Repr, DecidableEq

namespace Scan

/-- A brace at an offset opens an interpolation. -/
def enter (s : Scan) (i : Nat) : Scan :=
  { s with place := .expr, resume := s.place, depth := 1, start := i }

/-- A brace at an offset closes the innermost brace that is open. -/
def leave (s : Scan) (i : Nat) : Scan :=
  if s.depth = 1 then
    { s with place := s.resume, depth := 0, spans := s.spans ++ [(s.start, i + 1)] }
  else { s with depth := s.depth - 1 }

/-- What the character at offset `i` makes of a scan up to `stop`, and the number of characters that
are read with it.  `next` is the character behind it. -/
def move (stop i : Nat) (s : Scan) (c : Char) (next : Option Char) : Scan × Nat :=
  match s.place with
  | .sql =>
    if c = '-' ∧ next = some '-' then ({ s with place := .sqlComment }, 2)
    else if c ∈ sqlQuotes then ({ s with place := .sqlString, sqlQuote := some c }, 1)
    else if c = '{' then (s.enter i, 1)
    else (s, 1)
  | .sqlString =>
    if s.sqlQuote = some c then ({ s with place := .sql }, 1)
    else if c = '{' then (s.enter i, 1)
    else (s, 1)
  | .sqlComment => (if c = '\n' then { s with place := .sql } else s, 1)
  | .expr =>
    if c ∈ exprQuotes then ({ s with place := .exprString, exprQuote := some c }, 1)
    else if c = '{' then ({ s with depth := s.depth + 1 }, 1)
    else if c = '}' then (s.leave i, 1)
    else (s, 1)
  | .exprString =>
    if c = '\\' then (s, 2)
    else if s.exprQuote = some c then
      if i + 1 < stop ∧ next = some c then (s, 2) else ({ s with place := .expr }, 1)
    else (s, 1)

/-- The scan up to `stop` of a text that starts at offset `i`.  The first `skip` characters were
already read. -/
def run (stop : Nat) : (skip i : Nat) → Scan → Text → Scan
  | _, _, s, [] => s
  | skip + 1, i, s, _ :: rest => run stop skip (i + 1) s rest
  | 0, i, s, c :: rest =>
    if i < stop then
      let (s, read) := s.move stop i c rest.head?
      run stop (read - 1) (i + 1) s rest
    else s

end Scan

/-- The scan of a text up to an offset. -/
def scan (text : Text) (stop : Nat) : Scan :=
  Scan.run (min stop text.length) 0 0 {} text

/-- Whether an offset lies inside an interpolation: a brace is open there. -/
def inside (text : Text) (offset : Nat) : Bool :=
  0 < (scan text offset).depth

/-- The complete interpolations of a text, braces included, as pairs of offsets. -/
def spans (text : Text) : List (Nat × Nat) :=
  (scan text text.length).spans

end EmbeddedSql.Interpolation
