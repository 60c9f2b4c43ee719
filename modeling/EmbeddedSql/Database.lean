/-
**The database behind completion and checks.**

The database is only ever asked for suggestions and for the verdict of its parser.  What it answers
is data: a connection holds the responses it will give, and keeps a record of the statements it
got.

* `Response`, `Statement` — an answer of the database, and a statement that was sent;
* `Connection`, `Connection.send` — responses to come and statements sent;
* `Database` — the active connection, the ones before it, and how one is opened;
* `Database.connect`, `Database.close` — opening and leaving a connection;
* `Database.execute` — the rows of a statement, none when anything goes wrong;
* `Database.suggestions`, `Database.verdict` — the two questions.
-/

import EmbeddedSql.Suggestion
import EmbeddedSql.Verdict

set_option relaxedAutoImplicit false
set_option autoImplicit false

namespace EmbeddedSql

/-! ### Connections -/

/-- An answer of the database. -/
inductive Response where
  | rows (rows : List (List Value))
  | failure (message : String)
  deriving Repr

/-- A statement with its parameters, if it has any. -/
structure Statement where
  text : String
  parameters : Option Value := none
  deriving Repr

/-- A connection to the database. -/
structure Connection where
  /-- The responses to the next statements; without any left, there are no rows. -/
  pending : List Response
  /-- The statements sent so far. -/
  sent : List Statement := []
  closed : Bool := false
  deriving Repr

/-- Sends a statement. -/
def Connection.send (c : Connection) (s : Statement) : Response × Connection :=
  (c.pending.headD (.rows []), { c with pending := c.pending.tail, sent := c.sent ++ [s] })

/-! ### The database -/

/-- The database as the features use it. -/
structure Database where
  name : String
  /-- What a new connection answers, or why none can be opened. -/
  opening : Except String (List Response)
  /-- Whether connections are closed when they are left. -/
  owned : Bool := true
  active : Option Connection := none
  /-- The connections that were left, oldest first. -/
  former : List Connection := []

namespace Database

/-- Why there is no connection. -/
inductive Error where
  | notConnected
  | cannotOpen (name message : String)
  deriving Repr, DecidableEq

/-- The wording of a missing connection. -/
def Error.message : Error → String
  | .notConnected => "No active DuckDB connection available"
  | .cannotOpen name message => "Failed to open DuckDB database " ++ name ++ ": " ++ message

/-- All connections in the order they were opened. -/
def connections (d : Database) : List Connection :=
  d.former ++ d.active.toList

/-- Opens a connection unless one is active. -/
def connect (d : Database) : Except Error Database :=
  match d.active, d.opening with
  | some _, _ => .ok d
  | none, .ok pending => .ok { d with active := some { pending := pending } }
  | none, .error message => .error (.cannotOpen d.name message)

/-- Leaves the active connection. -/
def close (d : Database) : Database :=
  match d.active with
  | none => d
  | some c =>
    { d with active := none, former := d.former ++ [{ c with closed := c.closed || d.owned }] }

/-- Whether a connection is active. -/
def check (d : Database) : Except Error Unit :=
  if d.active.isSome then .ok () else .error .notConnected

/-- Sends a statement over the active connection. -/
def send (d : Database) (s : Statement) : Except Error Response × Database :=
  match d.active with
  | none => (.error .notConnected, d)
  | some c =>
    let (response, c) := c.send s
    (.ok response, { d with active := some c })

/-- The rows of a statement; none for an empty statement and when anything goes wrong.  Parameters
that do not count as present are left out. -/
def execute (d : Database) (query : String) (parameters : Value) :
    List (List Value) × Database :=
  if query.isEmpty then ([], d)
  else
    let parameters := if parameters.truthy then some parameters else none
    match d.send ⟨query, parameters⟩ with
    | (.ok (.rows rows), d) => (rows, d)
    | (_, d) => ([], d)

/-! ### Statements -/

/-- A text between single quotes, those inside it doubled. -/
def literal (t : Text) : Text :=
  ['\''] ++ Text.replaceChar '\'' ['\'', '\''] t ++ ['\'']

/-- The statement that asks for completions of a text. -/
def completionQuery (code : Text) : Text :=
  "SELECT suggestion FROM sql_auto_complete(".toList ++ literal code ++ [')']

/-- The statement that asks for the parser's report on a query. -/
def reportQuery (code : Text) : Text :=
  "SELECT json_serialize_sql(".toList ++ literal code ++ [')']

/-! ### Suggestions -/

/-- The suggestions of the database for the text before the cursor. -/
def suggestions (depth : Nat) (d : Database) (code : Text) :
    Except TextError (List Suggestion) × Database :=
  if code.isEmpty then (.ok [], d)
  else
    let (rows, d) := d.execute (String.ofList (completionQuery code)) .null
    (Suggestion.ofRows depth rows, d)

/-! ### Verdicts -/

/-- The text of an entry of a report. -/
def reportText (depth : Nat) (entries : List (Scalar × Value)) (key : String) (default : Value) :
    Except Verdict.Error String :=
  (((Value.lookup key entries).getD default).text depth).mapError .noText

/-- Whether a report is about an error of the parser.  The message of any other error is written to
the log, so it must have a text. -/
def isOfParser (depth : Nat) (entries : List (Scalar × Value)) : Except Verdict.Error Bool := do
  let kind ← reportText depth entries "error_type" (.str "")
  if kind.toLower = "parser" then return true
  let _ ← reportText depth entries "error_message" .null
  return false

/-- The verdict in a report.  What the parser does not take for its own error is no error. -/
def verdictOfReport (depth : Nat) (report : Value) (length : Nat) :
    Except Verdict.Error Verdict :=
  match report with
  | .object entries =>
    if ((Value.lookup "error" entries).getD .null).truthy then do
      if ← isOfParser depth entries then Verdict.ofReport entries length else return .valid
    else Verdict.ofReport entries length
  | _ => .error .notObject

/-- The verdict in the first cell of a row. -/
def verdictOfCell (depths : Depths) (cell : Option Value) (length : Nat) :
    Except Verdict.Error Verdict :=
  match cell.filter Value.truthy with
  | none => .ok (.failed "No validation result")
  | some (.str s) =>
    match Json.parse depths.json s.toList with
    | .ok report => verdictOfReport depths.display report length
    | .error (.expected what left) =>
      .ok (.failed ("Validation result parsing error: " ++
        Json.Error.message s.toList (.expected what left)))
    | .error e => .error (.unreadable e)
  | some _ => .error .notText

/-- The verdict in a response to the question for a report. -/
def verdictOfResponse (depths : Depths) (response : Except Error Response) (length : Nat) :
    Except Verdict.Error Verdict :=
  match response with
  | .ok (.rows rows) => verdictOfCell depths (rows.head?.bind List.head?) length
  | .ok (.failure message) => .ok (.failed ("SQL validation error: " ++ message))
  | .error e => .ok (.failed e.message)

/-- The verdict of the parser on a query. -/
def verdict (depths : Depths) (d : Database) (code : Text) :
    Except Verdict.Error Verdict × Database :=
  if code.isEmpty then (.ok (.failed "Invalid input"), d)
  else
    let (response, d) := d.send ⟨String.ofList (reportQuery code), none⟩
    (verdictOfResponse depths response code.length, d)

/-! ### Untyped questions -/

/-- The rows of whatever is given as a statement. -/
def executeValue (d : Database) (query parameters : Value) : List (List Value) × Database :=
  match query with
  | .str s => d.execute s parameters
  | _ => ([], d)

/-- The suggestions for whatever is given as a text. -/
def suggestionsValue (depth : Nat) (d : Database) (code : Value) :
    Except TextError (List Suggestion) × Database :=
  match code with
  | .str s => d.suggestions depth s.toList
  | _ => (.ok [], d)

/-- The verdict on whatever is given as a query.  Numbers and truth values have no length to place
an error in. -/
def verdictValue (depths : Depths) (d : Database) (code : Value) :
    Except Verdict.Error Verdict × Database :=
  match code with
  | .str s => d.verdict depths s.toList
  | .bool true => (.error .notQuery, d)
  | .int n => (if n = 0 then .ok (.failed "Invalid input") else .error .notQuery, d)
  | .real r => (if r.isZero then .ok (.failed "Invalid input") else .error .notQuery, d)
  | _ => (.ok (.failed "Invalid input"), d)

end Database

end EmbeddedSql
