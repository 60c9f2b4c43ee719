/-
**The language server.**

* `Feature`, `Listener` — what the server offers, and what hears of document events;
* `Server` — the state of the server;
* `Server.setUp`, `Server.create` — a server with the features that could be set up;
* `Server.summary` — what went wrong while it was set up;
* `Server.buffer`, `Server.Error` — an open document, or why there is none;
* `Server.shutdown` — releasing what the server holds;
* `Server.override` — new settings, which may be applied only in part.
-/

import EmbeddedSql.Completion
import EmbeddedSql.Diagnostic.Store
import EmbeddedSql.Dispatch
import EmbeddedSql.Formatting
import EmbeddedSql.Highlight.Store
import EmbeddedSql.Path
import EmbeddedSql.Settings.Merge
import EmbeddedSql.Workspace

set_option relaxedAutoImplicit false
set_option autoImplicit false

namespace EmbeddedSql

/-! ### Features and listeners -/

/-- What the server offers to clients. -/
inductive Feature where
  | completion
  | diagnostics
  | highlighting
  | formatting
  deriving Repr, DecidableEq

namespace Feature

/-- The features in the order they are set up. -/
def all : List Feature := [.completion, .diagnostics, .highlighting, .formatting]

/-- The name of a feature in reports. -/
def component : Feature → String
  | .completion => "Completion Feature"
  | .diagnostics => "Diagnostics Feature"
  | .highlighting => "Semantic Tokens Feature"
  | .formatting => "Formatting Feature"

/-- Whether the settings ask for a feature. -/
def isWanted (s : Settings) : Feature → Bool
  | .completion => s.completion
  | .highlighting => s.highlighting
  | _ => true

/-- The requests that a feature answers. -/
def requests : Feature → List String
  | .completion => ["textDocument/completion"]
  | .highlighting => ["textDocument/semanticTokens/full", "textDocument/semanticTokens/range"]
  | _ => []

end Feature

/-- What hears of document events. -/
inductive Listener where
  | regions
  | diagnostics
  | highlights
  deriving Repr, DecidableEq

/-- The listener that belongs to a feature. -/
def Feature.listener? : Feature → Option Listener
  | .diagnostics => some .diagnostics
  | .highlighting => some .highlights
  | _ => none

/-! ### The state -/

/-- The language server. -/
structure Server where
  settings : Settings
  /-- The latest settings that were applied to the end.  The format command goes by them, and so do
  the options of the checks. -/
  applied : Settings
  printer : Printer
  depths : Depths
  port : Int
  /-- What the clock reads, in seconds. -/
  now : Real := .finite (.zero false)
  /-- The open documents, once a client has introduced itself. -/
  workspace : Option Workspace := none
  regions : RegionStore
  highlights : HighlightStore := {}
  diagnostics : DiagnosticStore := {}
  /-- The database as the features have it. -/
  database : Option Database
  /-- Whether the database was opened. -/
  databaseReady : Bool
  /-- Whether the server still holds the database. -/
  holdsDatabase : Bool
  features : List Feature
  dispatch : Dispatch Listener
  /-- What went wrong during the setup: a component and a message. -/
  problems : List (String × String)
  /-- What was given to the pretty printer. -/
  printed : List (FormatOptions × Text) := []

namespace Server

/-- The name of the server. -/
def name : String := "rsql-lsp"

/-- The version of the server. -/
def version : String := "v0.1.0"

/-- The port of the server when none is asked for. -/
def defaultPort : Int := 3000

/-- Characters after which a client asks for completion. -/
def triggers : List String := [".", " "]

/-- The problems of a setup in one line. -/
def summarize (problems : List (String × String)) : String :=
  if problems.isEmpty then "No initialization errors"
  else "Initialization errors: " ++ "; ".intercalate (problems.map fun p => p.1 ++ ": " ++ p.2)

/-- The problems of the setup in one line. -/
def summary (s : Server) : String :=
  summarize s.problems

/-! ### Setting up -/

/-- The database after the setup, and what went wrong. -/
def openDatabase : Option Database → Option Database × List (String × String)
  | none => (none, [])
  | some d =>
    match d.connect with
    | .ok d => (some d, [])
    | .error e => (none, [("DuckDB Connector", e.message)])

/-- The problem of a server without any feature. -/
def noFeatures : String × String :=
  ("Feature Registration",
    "No LSP features could be registered - server cannot provide language support")

/-- A server with a region store.  `obstacle` tells why a feature cannot be set up, if it cannot. -/
def setUp (settings : Settings) (printer : Printer) (depths : Depths) (database : Option Database)
    (port : Int) (obstacle : Feature → Option String) (regions : RegionStore) : Server :=
  let (opened, databaseProblems) := openDatabase database
  let wanted := Feature.all.filter (·.isWanted settings)
  let features := wanted.filter fun f => (obstacle f).isNone
  let obstacles := wanted.filterMap fun f => (obstacle f).map fun m => (f.component, m)
  let listeners := .regions :: features.filterMap Feature.listener?
  { settings := settings
    applied := settings
    printer := printer
    depths := depths
    port := port
    regions := regions
    database := opened
    databaseReady := opened.isSome
    holdsDatabase := opened.isSome
    features := features
    dispatch := ⟨listeners, true⟩
    problems := databaseProblems ++ obstacles ++ (if features.isEmpty then [noFeatures] else []) }

/-- A new server, if the settings admit of a region store. -/
def create (settings : Settings) (printer : Printer) (depths : Depths)
    (database : Option Database) (port : Int) (obstacle : Feature → Option String) :
    Except Cache.Error Server :=
  (RegionStore.ofDetection settings.detection).map
    (setUp settings printer depths database port obstacle)

/-- Whether any feature could be set up. -/
def isRegistered (s : Server) : Bool :=
  !s.features.isEmpty

/-- All requests and notifications that the server takes, in increasing order. -/
def requests (s : Server) : List String :=
  (["initialize", "initialized", "shutdown", "exit"] ++ s.features.flatMap Feature.requests ++
    s.dispatch.features).mergeSort fun a b => a ≤ b

/-! ### Documents -/

/-- Why a request cannot be served. -/
inductive Error where
  /-- No client has introduced itself. -/
  | noWorkspace
  /-- An edit of a document that is not open. -/
  | notOpen (uri : String)
  /-- A document that is not open and cannot be read from its file. -/
  | noFile (e : Path.Obstacle)
  /-- A document whose name is none. -/
  | noName (e : Path.UriError)
  /-- Overrides that cannot be used. -/
  | settings (e : Settings.Error)
  /-- Overrides that were applied in part only. -/
  | halfway (e : Cache.Error)
  deriving Repr, DecidableEq

/-- The wording of an error. -/
def Error.message : Error → String
  | .noWorkspace => "The workspace is not available - has the server been initialized?"
  | .notOpen uri => String.ofList (Text.quoted uri.toList)
  | .noFile e => e.message
  | .noName e => e.message
  | .settings e => e.message
  | .halfway e => e.message

/-- Why a document that is not open cannot be read. -/
def fileError (uri : String) : Error :=
  match Path.ofUri uri with
  | .ok path => .noFile (Path.obstacle path)
  | .error e => .noName e

/-- The buffer of a document. -/
def buffer (s : Server) (uri : String) : Except Error Buffer :=
  match s.workspace with
  | none => .error .noWorkspace
  | some w =>
    match w.get? uri with
    | some b => .ok b
    | none => .error (fileError uri)

/-! ### Settings and shutdown -/

/-- Applies settings to the features.  The region store comes first; if it has no cache for them,
the other features are left on the settings of before. -/
def apply (s : Server) (settings : Settings) : Except Error Unit × Server :=
  match s.regions.configure settings.detection with
  | (.ok (), regions) =>
    (.ok (), { s with settings := settings, applied := settings, regions := regions })
  | (.error e, regions) =>
    (.error (.halfway e), { s with settings := settings, regions := regions })

/-- Changes the settings.  Faulty overrides are ignored, overrides of a wrong kind are refused. -/
def override (s : Server) (overrides : Value) : Except Error Unit × Server :=
  match s.settings.override s.depths.display overrides with
  | .ok settings => s.apply settings
  | .error (.notObject _) => (.ok (), s)
  | .error (.invalid _ _) => (.ok (), s)
  | .error e => (.error (.settings e), s)

/-- Releases what the server holds: no listener is told of events any more, the scans are dropped
and the database is left. -/
def shutdown (s : Server) : Server :=
  { s with
    dispatch := s.dispatch.clear
    regions := s.regions.clear
    database := if s.holdsDatabase then s.database.map Database.close else s.database
    holdsDatabase := false }

end Server

end EmbeddedSql
