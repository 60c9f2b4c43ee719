/-
**Diagnostics of a document.**

Every query that stands directly in its call is checked, first without the database and then, if
the settings ask for it, by the parser of the database.  An error of the parser is shown at the
character it is about.

* `Diagnostic` — a message for a range of the client;
* `Diagnostic.query` — the text of a region that is checked;
* `Diagnostic.errorRange` — where an error of the parser is shown;
* `Diagnostic.ofRegion` — the diagnostics of a region;
* `Diagnostic.ofRegions` — those of all regions; a verdict that makes no sense leaves none.
-/

import EmbeddedSql.Buffer
import EmbeddedSql.Database
import EmbeddedSql.Escape
import EmbeddedSql.Interpolation
import EmbeddedSql.Region

set_option relaxedAutoImplicit false
set_option autoImplicit false

namespace EmbeddedSql

/-- A message for a range of the client. -/
structure Diagnostic where
  message : String
  severity : Severity
  range : Range
  deriving Repr, DecidableEq

namespace Diagnostic

/-- The code that all diagnostics carry. -/
def code : String := "sql-syntax"

/-- The source that all diagnostics name. -/
def source : String := "rsql-lsp"

/-! ### One region -/

/-- The text of a region that is checked: decoded, without blanks at its ends, and with a neutral
value for every interpolation. -/
def query (r : Region) : Text :=
  let text := Escape.query r.raw
  if r.interpolating then Interpolation.strip Interpolation.neutralValue text else text

/-- The offset in the raw content of a region that a position in its query stands for. -/
def rawOffset (raw : Text) (position : Nat) : Nat :=
  let decoded := Escape.decode raw
  let blanks := decoded.length - (Text.trimLeft decoded).length
  ((Escape.offsets raw)[min (blanks + position) decoded.length]?).getD raw.length

/-- The character of the document that a position in the query of a region stands for. -/
def errorStart (doc : Document) (r : Region) (position : Nat) : Position :=
  doc.advance r.range.start (rawOffset r.raw position)

/-- Where an error of the parser is shown: at its character.  Interpolations hide where it is, so
then the whole region is shown. -/
def errorRange (doc : Document) (r : Region) (position : Nat) : Range :=
  if r.interpolating then r.range
  else
    let start := errorStart doc r position
    ⟨start, ⟨start.line, start.character + 1⟩⟩

/-- Why a document has no diagnostics. -/
inductive Error where
  /-- There is no verdict. -/
  | noVerdict (e : Verdict.Error)
  /-- The verdict has no message. -/
  | noMessage
  deriving Repr, DecidableEq

/-- The diagnostics of a verdict on a region. -/
def ofVerdict (b : Buffer) (r : Region) (v : Verdict) : Except Error (List Diagnostic) :=
  if v.error then
    match v.message with
    | .str message =>
      .ok [⟨message, v.severity, b.rangeToClient (errorRange b.document r v.position)⟩]
    | _ => .error .noMessage
  else .ok []

/-- The diagnostics of the checks that need no database. -/
def ofFindings (b : Buffer) (r : Region) : List Diagnostic :=
  (Finding.check (query r)).map fun f => ⟨f.message, f.severity, b.rangeToClient r.range⟩

/-- The diagnostics of a region.  Literals deeper inside a call and empty queries have none. -/
def ofRegion (depths : Depths) (b : Buffer) (database : Option Database) (r : Region) :
    Except Error (List Diagnostic) × Option Database :=
  if !r.direct || (query r).isEmpty then (.ok [], database)
  else
    match database with
    | none => (.ok (ofFindings b r), none)
    | some d =>
      let (verdict, d) := d.verdict depths (query r)
      let found := (verdict.mapError Error.noVerdict).bind (ofVerdict b r)
      (found.map (ofFindings b r ++ ·), some d)

/-! ### All regions -/

/-- The diagnostics of regions in order, until one fails. -/
def collect (depths : Depths) (b : Buffer) : (database : Option Database) → List Region →
    Except Error (List Diagnostic) × Option Database
  | database, [] => (.ok [], database)
  | database, r :: rest =>
    match ofRegion depths b database r with
    | (.error e, database) => (.error e, database)
    | (.ok found, database) =>
      let (more, database) := collect depths b database rest
      (more.map (found ++ ·), database)

/-- The diagnostics of regions.  When one of them fails there are none at all. -/
def ofRegions (depths : Depths) (b : Buffer) (database : Option Database) (rs : List Region) :
    List Diagnostic × Option Database :=
  let (found, database) := collect depths b database rs
  (found.toOption.getD [], database)

end Diagnostic

end EmbeddedSql
