/-
**Settings of the language server.**

* `Limits` — caps that keep every scan cheap;
* `Detection` — which calls carry SQL and how R literals are marked;
* `FormatOptions`, `DiagnosticOptions` — options of the pretty printer and of the checks;
* `Settings` — everything together.
-/

import EmbeddedSql.Literal

set_option relaxedAutoImplicit false
set_option autoImplicit false

namespace EmbeddedSql

/-- Caps of the scanners. -/
structure Limits where
  /-- Longer documents are not scanned. -/
  documentSize : Nat := 1000000
  /-- Occurrences of one function name that are followed up. -/
  functionMatches : Nat := 100
  /-- Characters between a name and its parenthesis. -/
  parenSearch : Nat := 1000
  /-- Characters of a call, and of a literal under the cursor. -/
  callLength : Nat := 50000
  /-- Lines before the cursor that are scanned. -/
  lineLookback : Nat := 100
  /-- Characters before a literal in which its argument name is looked for. -/
  argumentLookback : Nat := 50
  /-- Lifetime of a cached scan in milliseconds. -/
  cacheLifetime : Nat := 5000
  deriving Repr, DecidableEq

/-- Functions of R database packages whose strings are SQL.  Qualified names come first, so that a
qualified call goes by its qualified name. -/
def databaseFunctions : List String :=
  ["DBI::dbExecute", "DBI::dbGetQuery", "DBI::dbSendQuery", "DBI::dbSendStatement", "dbplyr::sql",
   "dbExecute", "dbGetQuery", "dbSendQuery", "dbSendStatement", "sql"]

/-- Functions whose strings are SQL with interpolations. -/
def glueFunctions : List String :=
  ["glue::glue_sql", "glue::glue_data_sql", "glue_sql", "glue_data_sql"]

/-- Which calls carry SQL. -/
structure Detection where
  sqlFunctions : List String := databaseFunctions
  interpolatingFunctions : List String := glueFunctions
  /-- Named arguments that carry SQL in calls without interpolation. -/
  statementParameters : List String := ["statement"]
  marks : Marks := Marks.r
  limits : Limits := {}
  deriving Repr, DecidableEq

namespace Detection

/-- All names of functions that carry SQL, those without interpolation first. -/
def functions (d : Detection) : List String :=
  d.sqlFunctions ++ d.interpolatingFunctions.filter (!d.sqlFunctions.contains ·)

/-- Whether the strings of a function may hold interpolations. -/
def isInterpolating (d : Detection) (function : String) : Bool :=
  d.interpolatingFunctions.contains function

end Detection

/-- How the pretty printer writes keywords. -/
inductive KeywordCase where
  | upper
  | lower
  | capitalize
  deriving Repr, DecidableEq

/-- Options of the pretty printer. -/
structure FormatOptions where
  keywordCase : Option KeywordCase := some .upper
  reindent : Bool := true
  indentWidth : Nat := 2
  deriving Repr, DecidableEq

/-- Options of the checks. -/
structure DiagnosticOptions where
  enabled : Bool := true
  /-- Whether queries are shown to the database's parser. -/
  askDatabase : Bool := true
  deriving Repr, DecidableEq

/-- All settings of the server. -/
structure Settings where
  detection : Detection := {}
  formatting : FormatOptions := {}
  diagnostics : DiagnosticOptions := {}
  highlighting : Bool := true
  completion : Bool := true
  deriving Repr, DecidableEq

end EmbeddedSql
