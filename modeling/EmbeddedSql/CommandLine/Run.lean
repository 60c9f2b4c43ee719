/-
**The command line.**

Two commands: `regions` lists the queries of a file, and `lsp` starts the language server.  A run is
a function of the arguments and the surroundings; it gives back what is printed and the exit code.

* `Surroundings` — files, environment and the database engine;
* `Outcome` — what a run leaves behind;
* `CommandLine.regions`, `CommandLine.lsp` — the two commands;
* `CommandLine.run` — a run.
-/

import EmbeddedSql.CommandLine.Listing
import EmbeddedSql.CommandLine.Usage
import EmbeddedSql.Server.Event
import EmbeddedSql.Settings.Files
import EmbeddedSql.Value.JsonText

set_option relaxedAutoImplicit false
set_option autoImplicit false

namespace EmbeddedSql

/-- What a run depends on beside its arguments. -/
structure Surroundings where
  files : Files
  /-- What a connection to the database answers, or why none can be opened. -/
  opening : Except String (List Response)
  printer : Printer
  depths : Depths

/-- What a run leaves behind. -/
structure Outcome where
  exitCode : Nat := 0
  stdout : String := ""
  stderr : String := ""
  /-- Whether everything was logged, down to details. -/
  verbose : Bool := false
  /-- Where the server listened: over its standard streams, or at an address. -/
  listened : List (Option (String × Int)) := []
  /-- The databases that were asked for. -/
  databases : List String := []
  deriving Repr, DecidableEq

namespace CommandLine

/-! ### Output -/

/-- The length of the control sequence that starts a text: an escape character, a bracket, numbers
and a letter. -/
def controlLength? : Text → Option Nat
  | '\x1b' :: '[' :: rest =>
    let numbers := rest.takeWhile fun c => c.isDigit || c == ';' || c == '?'
    if (rest.drop numbers.length).head?.any Char.isAlpha then some (numbers.length + 3) else none
  | _ => none

/-- A text without control sequences; `skip` characters of one are still to be passed over. -/
def uncontrolled : (skip : Nat) → Text → Text
  | _, [] => []
  | skip + 1, _ :: rest => uncontrolled skip rest
  | 0, c :: rest =>
    match controlLength? (c :: rest) with
    | some n => uncontrolled (n - 1) rest
    | none => c :: uncontrolled 0 rest

/-- A line of output, which does not control the terminal. -/
def printed (line : String) : String :=
  String.ofList (uncontrolled 0 line.toList) ++ "\n"

/-- Lines of output. -/
def unlines (ls : List String) : String :=
  String.join (ls.map printed)

/-- Lines of the log, which are written as they are. -/
def logged (ls : List String) : String :=
  String.join (ls.map (· ++ "\n"))

/-- The outcome of arguments that make no sense. -/
def misuse (e : Usage.Error) : Outcome :=
  { exitCode := 2, stderr := printed ("Error: " ++ e.message) }

/-- A result as data. -/
def success (result : Value) : String :=
  Json.pretty (.record [("status", .str "ok"), ("result", result)]) ++ "\n"

/-- An error as data; its kind is told to those who want details. -/
def failure (kind message : String) (debug : Bool) : String :=
  Json.pretty (.record ([("status", .str "error"), ("error", .str message)] ++
    if debug then [("type", .str kind)] else [])) ++ "\n"

/-- The outcome of an error. -/
def abort (kind message : String) (asData debug verbose : Bool) : Outcome :=
  if asData then
    { exitCode := 1, stdout := failure kind message debug, stderr := "Aborted!\n"
      verbose := verbose }
  else
    { exitCode := 1, stderr := unlines ["Error: " ++ message, "Aborted!"], verbose := verbose }

/-- The environment variable that asks for a detailed log. -/
def debugVariable : String := "RSQL_LSP_DEBUG"

/-- Whether everything is logged. -/
def isVerbose (f : Files) (debug : Bool) : Bool :=
  debug || f.flag debugVariable false

/-! ### Listing -/

/-- The options of the listing. -/
def regionsOptions : Usage.Options :=
  ⟨["--tokens", "--json-output", "--debug"], ["--config"]⟩

/-- The file that is to be listed. -/
def operandFile (f : Files) (operands : List String) : Except Usage.Error String :=
  match operands with
  | [] => .error (.missingOperand "FILE")
  | path :: rest =>
    match f.entry? path with
    | none => .error (.noFile "FILE" path)
    | some .directory => .error (.isDirectory "FILE" path)
    | some _ => if rest.isEmpty then .ok path else .error (.tooMany rest)

/-- The document in a file. -/
def readDocument (f : Files) (path : String) : Except Settings.LoadError Document :=
  match f.entry? path with
  | some (.text content) =>
    .ok (Document.ofSource (Path.uri (Path.absolute f.workingDirectory path))
      (Text.plainNewlines content) 0)
  | _ => .error (.notText path)

/-- The settings and the document of a listing. -/
def readInput (depths : Depths) (f : Files) (config : Option String) (path : String) :
    Except Settings.LoadError (Settings × Document) := do
  let settings ← Settings.load depths f config
  let doc ← readDocument f path
  return (settings, doc)

/-- The line that a warning leaves in the log. -/
def warningLine (settings : Settings) (doc : Document) (w : Region.Warning) : String :=
  "WARNING:rsql_lsp.core.regions:" ++ w.message settings.detection.limits doc.uri

/-- The listing of a document. -/
def listing (entries : List Listing.Entry) (asData : Bool) : String :=
  if asData then success (.list (entries.map Listing.Entry.dump))
  else if entries.isEmpty then unlines ["No SQL strings found"]
  else unlines (entries.map Listing.Entry.text)

/-- Lists the queries of a file. -/
def regions (s : Surroundings) (arguments : List String) : Except Usage.Error Outcome := do
  let p ← regionsOptions.parse arguments
  let path ← operandFile s.files p.operands
  let asData := p.flag "--json-output"
  let debug := p.flag "--debug"
  let verbose := isVerbose s.files debug
  match readInput s.depths s.files (p.value? "--config") path with
  | .error e => return abort e.kind e.message asData debug verbose
  | .ok (settings, doc) =>
    let (found, warnings) := Region.surveyAll settings.detection doc
    let entries := found.map (Listing.Entry.ofRegion (p.flag "--tokens"))
    return {
      stdout := listing entries asData
      stderr := logged (warnings.map (warningLine settings doc))
      verbose := verbose }

/-! ### Serving -/

/-- The options of the server. -/
def lspOptions : Usage.Options :=
  ⟨["--tcp", "--no-duckdb", "--debug"], ["--port", "--host", "--config", "--database"]⟩

/-- The environment variable that switches the database off. -/
def noDatabaseVariable : String := "RSQL_LSP_NO_DUCKDB"

/-- The port that is asked for; zero stands for the usual one. -/
def portOf (p : Usage.Parsed) : Except Usage.Error Int :=
  match p.value? "--port" with
  | none => .ok Server.defaultPort
  | some text =>
    match Text.readInt text.toList with
    | .ok n => .ok (if n = 0 then Server.defaultPort else n)
    | .error _ => .error (.notInteger "--port" text)

/-- The line that a problem of the setup leaves in the log. -/
def problemLine (problem : String × String) : String :=
  "ERROR:rsql_lsp.lsp.server:Initialization error in " ++ problem.1 ++ ": " ++ problem.2

/-- The addresses in some messages. -/
def addresses (sent : List Message) : List (Option (String × Int)) :=
  sent.filterMap fun m =>
    match m with
    | .listening address => some address
    | _ => none

/-- Starts the server, if there is one with the settings, and lets it listen until the connection
ends. -/
def serve (s : Surroundings) (settings : Settings) (p : Usage.Parsed) (port : Int) : Outcome :=
  let host := (p.value? "--host").getD "localhost"
  let name := (p.value? "--database").getD ":memory:"
  let wanted := !(p.flag "--no-duckdb" || s.files.flag noDatabaseVariable false)
  let database : Option Database :=
    if wanted then some { name := name, opening := s.opening } else none
  let debug := p.flag "--debug"
  let verbose := isVerbose s.files debug
  match Server.create settings s.printer s.depths database port fun _ => none with
  | .error e => abort e.kind e.message false debug verbose
  | .ok server =>
    let overNetwork := p.flag "--tcp"
    let (_, sent, _) := server.step (.listen (if overNetwork then some host else none))
    let greeting :=
      if overNetwork then ["Starting rsql-lsp server on " ++ host ++ ":" ++ Int.repr port] else []
    { stderr := logged (server.problems.map problemLine) ++ unlines greeting
      verbose := verbose
      listened := addresses sent
      databases := if wanted then [name] else [] }

/-- Starts the language server. -/
def lsp (s : Surroundings) (arguments : List String) : Except Usage.Error Outcome := do
  let p ← lspOptions.parse arguments
  let port ← portOf p
  if p.operands.isEmpty then
    let debug := p.flag "--debug"
    match Settings.load s.depths s.files (p.value? "--config") with
    | .error e => return abort e.kind e.message false debug (isVerbose s.files debug)
    | .ok settings => return serve s settings p port
  else .error (.tooMany p.operands)

/-! ### Commands -/

/-- How the program is used. -/
def help : String :=
  unlines ["Usage: rsql-lsp COMMAND [ARGS]...", "", "  SQL language support for R strings", "",
    "Commands:", "  lsp      Start the language server for SQL embedded in R code.",
    "  regions  List the SQL strings detected in an R file."]

/-- The command with a name, carried out.  A name that looks like an option is taken for one. -/
def named (s : Surroundings) (name : String) (rest : List String) : Except Usage.Error Outcome :=
  if name = "regions" then regions s rest
  else if name = "lsp" then lsp s rest
  else
    match Usage.shape name with
    | .long option _ => .error (.noSuchOption option)
    | .short option => .error (.noSuchOption option)
    | _ => .error (.noSuchCommand name)

/-- The command in some arguments, carried out.  A double dash may stand before its name. -/
def command (s : Surroundings) : List String → Except Usage.Error Outcome
  | [] => .ok { stdout := help }
  | ["--"] => .ok { stdout := help }
  | "--" :: name :: rest => named s name rest
  | name :: rest => named s name rest

/-- A run of the program. -/
def run (s : Surroundings) (arguments : List String) : Outcome :=
  match command s arguments with
  | .ok outcome => outcome
  | .error e => misuse e

end CommandLine

end EmbeddedSql
