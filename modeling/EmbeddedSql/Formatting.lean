/-
**Formatting the query under the cursor.**

The pretty printer is a given function.  It never sees an interpolation: placeholders take their
place before printing, and afterwards they are exchanged back and verified.  The edit keeps the
quotes and the escapes of the literal, and indents all lines but the first like the code around.

* `Printer` — the pretty printer;
* `Formatting.Job`, `Formatting.Job.finish` — what the printer gets, and what becomes of the text
  it gives back;
* `Formatting.formatQuery` — a query, formatted;
* `Formatting.indent` — the indentation of a text;
* `Formatting.Target`, `Formatting.target` — the literal that is to be formatted;
* `Formatting.edit` — the edit at a position, with what was given to the printer.
-/

import EmbeddedSql.Buffer
import EmbeddedSql.Cursor
import EmbeddedSql.Interpolation

set_option relaxedAutoImplicit false
set_option autoImplicit false

namespace EmbeddedSql

/-- A pretty printer for SQL: it gives back a text or says why it cannot. -/
abbrev Printer := FormatOptions → Text → Except String Text

/-- A new text for a range of the client. -/
structure Edit where
  range : Range
  text : Text
  deriving Repr, DecidableEq

namespace Formatting

/-- Why there is no formatted query. -/
inductive Error where
  /-- The cursor is in no query. -/
  | noQuery
  /-- The escapes of the literal would change. -/
  | escapes
  /-- The printer failed. -/
  | printer (message : String)
  /-- An interpolation would be lost. -/
  | roundTrip (e : Interpolation.RoundTripError)
  deriving Repr, DecidableEq

/-- The wording of an error. -/
def Error.message : Error → String
  | .noQuery => "Cursor is not inside a SQL string in a DBI function call"
  | .escapes => "SQL string contains escape sequences that cannot be written back unchanged"
  | .printer message => "SQL formatting failed: " ++ message
  | .roundTrip e => e.message

/-! ### Queries -/

/-- A query on its way through the printer. -/
structure Job where
  query : Text
  /-- What the printer gets. -/
  sql : Text
  /-- The placeholders in it, for queries with interpolations. -/
  placeholders : Option (List Interpolation.Placeholder)
  deriving Repr, DecidableEq

namespace Job

/-- The job of a query. -/
def ofQuery (query : Text) (interpolating : Bool) : Job :=
  if interpolating then
    let (sql, ps) := Interpolation.extract query
    ⟨query, sql, some ps⟩
  else ⟨query, query, none⟩

/-- Puts the interpolations back into a text and makes sure that none is lost. -/
def restore (j : Job) (formatted : Text) : Except Error Text :=
  match j.placeholders with
  | none => .ok formatted
  | some ps =>
    let restored := Interpolation.restore formatted ps
    match Interpolation.verify j.query formatted restored ps with
    | .ok _ => .ok restored
    | .error e => .error (.roundTrip e)

/-- The formatted query, given what the printer made of it. -/
def finish (j : Job) (printed : Except String Text) : Except Error Text :=
  match printed with
  | .error message => .error (.printer message)
  | .ok text => j.restore (Text.trim text)

end Job

/-- A query, formatted. -/
def formatQuery (print : Printer) (options : FormatOptions) (query : Text)
    (interpolating : Bool) : Except Error Text :=
  let job := Job.ofQuery query interpolating
  job.finish (print options job.sql)

/-! ### Edits -/

/-- Indents a line; a blank one becomes empty. -/
def indentLine (margin line : Text) : Text :=
  if Text.isAllBlank line then [] else margin ++ line

/-- Indents all lines but the first. -/
def indent (margin text : Text) : Text :=
  match Text.lines text with
  | [] => text
  | [_] => text
  | first :: rest => Text.joinLines (first :: rest.map (indentLine margin))

/-- The literal that is to be formatted. -/
structure Target where
  query : Query
  /-- Indentation of the lines after the first. -/
  margin : Text
  deriving Repr, DecidableEq

/-- The job of a target. -/
def Target.job (t : Target) : Job :=
  Job.ofQuery t.query.text t.query.interpolating

/-- The indentation of a line and two more blanks. -/
def marginOf (line : Text) : Text :=
  line.takeWhile Text.isBlank ++ [' ', ' ']

/-- The literal at a position.  Its content must survive decoding and encoding. -/
def target (d : Detection) (doc : Document) (p : Position) : Except Error Target :=
  match Cursor.query? d doc p with
  | none => .error .noQuery
  | some q =>
    let raw := doc.textIn q.range
    if Escape.encode q.quote (Escape.decode raw) != raw then .error .escapes
    else .ok ⟨q, marginOf (doc.lineAt q.range.start.line)⟩

/-- The edit that writes a formatted query back; none when nothing changes. -/
def Target.write (t : Target) (b : Buffer) (formatted : Text) : Option Edit :=
  if formatted = t.query.text then none
  else some ⟨b.rangeToClient t.query.range,
    indent t.margin (Escape.encode t.query.quote formatted)⟩

/-- The edit that formats the query at a position of the client, and the texts that the printer
got. -/
def edit (print : Printer) (options : FormatOptions) (d : Detection) (b : Buffer) (p : Position) :
    Except Error (Option Edit) × List Text :=
  match target d b.document (b.toCore p) with
  | .error e => (.error e, [])
  | .ok t => ((t.job.finish (print options t.job.sql)).map (t.write b), [t.job.sql])

end Formatting

end EmbeddedSql
