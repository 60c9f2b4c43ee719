/-
**Completion at the cursor.**

Inside an interpolation the cursor is in R code, so nothing is offered there.  Elsewhere in a query
the database is asked about the text before the cursor, and its suggestions come first.

* `Completion.Site` — a query with the text before the cursor;
* `Completion.site?` — the site at a position;
* `Completion.Site.isOpen` — whether anything is offered at a site;
* `Completion.Site.code` — the text that the database is asked about;
* `Completion.suggest` — the suggestions at a position of the client;
* `Completion.request` — the answer to a client.
-/

import EmbeddedSql.Buffer
import EmbeddedSql.Cursor
import EmbeddedSql.Database
import EmbeddedSql.Interpolation

set_option relaxedAutoImplicit false
set_option autoImplicit false

namespace EmbeddedSql.Completion

/-- A query and the part of its raw content that stands before the cursor. -/
structure Site where
  query : Query
  before : Text
  deriving Repr, DecidableEq

/-- The site at a position.  A cursor just after the closing quote is taken to be before it. -/
def site? (d : Detection) (doc : Document) (p : Position) : Option Site :=
  (Cursor.query? d doc p).map fun q =>
    let stop := if p.le q.range.stop then p else q.range.stop
    ⟨q, doc.textIn ⟨q.range.start, stop⟩⟩

/-- Whether something is offered: the cursor is not inside an interpolation.  The raw content
decides, escapes included. -/
def Site.isOpen (s : Site) : Bool :=
  !(s.query.interpolating && Interpolation.inside s.before s.before.length)

/-- The decoded text before the cursor, its interpolations exchanged for a neutral value. -/
def Site.code (s : Site) : Text :=
  let code := Escape.decode s.before
  if s.query.interpolating then Interpolation.strip Interpolation.neutralValue code else code

/-- The suggestions of the database, if there is one.  `depth` bounds how deep a cell of its rows
may be nested. -/
def ask (depth : Nat) (database : Option Database) (code : Text) :
    Except TextError (List Suggestion) × Option Database :=
  match database with
  | none => (.ok [], none)
  | some d =>
    let (found, d) := d.suggestions depth code
    (found, some d)

/-- The suggestions at a position of the client; none outside of queries. -/
def suggest (depth : Nat) (d : Detection) (b : Buffer) (database : Option Database)
    (p : Position) : Except TextError (Option (List Suggestion)) × Option Database :=
  match (site? d b.document (b.toCore p)).filter Site.isOpen with
  | none => (.ok none, database)
  | some site =>
    let (found, database) := ask depth database site.code
    (found.map fun found => some (Suggestion.rank found), database)

/-- The answer to a client: other languages than R get no suggestions, and neither does anyone when
something goes wrong. -/
def request (depth : Nat) (d : Detection) (b : Buffer) (database : Option Database)
    (p : Position) : Option (List Suggestion) × Option Database :=
  if b.isR then
    let (found, database) := suggest depth d b database p
    (found.toOption.join, database)
  else (none, database)

end EmbeddedSql.Completion
