/-
**Where settings come from.**

A settings file is named on the command line or in the environment, or it is one of two files that
are looked for.

* `Files`, `Files.ofEntries` — what the program sees of files and environment;
* `Settings.source?` — the file to read, if there is one;
* `Settings.load` — the settings in that file, or the defaults.
-/

import EmbeddedSql.Path
import EmbeddedSql.Settings.Check
import EmbeddedSql.Yaml.Document

set_option relaxedAutoImplicit false
set_option autoImplicit false

namespace EmbeddedSql

/-- What stands under a path. -/
inductive FileEntry where
  | directory
  | text (content : Text)
  /-- A file whose bytes are no text. -/
  | binary
  deriving Repr, DecidableEq

/-- What the program sees of its surroundings. -/
structure Files where
  /-- What stands under a path, relative ones starting at the working directory. -/
  entry? : String → Option FileEntry
  workingDirectory : String
  homeDirectory : String
  /-- The value of an environment variable. -/
  env? : String → Option String

/-- The files with the given absolute paths.  The directories on the way to them, to the working
directory and to the home directory exist as well. -/
def Files.ofEntries (workingDirectory homeDirectory : String) (entries : List (String × FileEntry))
    (env? : String → Option String) : Files :=
  let leadsOn (path : String) : Bool :=
    path = "/" || ([workingDirectory, homeDirectory] ++ entries.map Prod.fst).any fun full =>
      full.startsWith (path ++ "/")
  let find (path : String) : Option FileEntry :=
    (entries.lookup path).orElse fun _ =>
      if leadsOn path || path = workingDirectory || path = homeDirectory then some .directory
      else none
  { entry? := fun path =>
      (Path.resolve? (fun p => find p = some .directory) workingDirectory path).bind find
    workingDirectory := workingDirectory
    homeDirectory := homeDirectory
    env? := env? }

/-- Whether an environment variable is switched on; the default counts when it is unset or
empty. -/
def Files.flag (f : Files) (name : String) (default : Bool) : Bool :=
  match (f.env? name).getD "" with
  | "" => default
  | value => ["1", "true", "yes"].contains value.toLower

namespace Settings

/-- Why the settings could not be loaded. -/
inductive LoadError where
  /-- A file that was asked for does not exist. -/
  | missing (path : String)
  /-- A file that cannot be read or is malformed. -/
  | unreadable (path : String)
  /-- A file whose bytes are no text. -/
  | notText (path : String)
  /-- A file with a scalar that cannot be read. -/
  | noValue (e : Yaml.Error)
  /-- The content of the file is at fault. -/
  | content (e : Error)
  deriving Repr, DecidableEq

/-- The wording of an error. -/
def LoadError.message : LoadError → String
  | .missing path => "Config file not found at " ++ path
  | .unreadable path => "Failed to parse YAML config file " ++ path
  | .notText _ => "'utf-8' codec can't decode"
  | .noValue e => e.message
  | .content e => e.message

/-- The word for the kind of an error. -/
def LoadError.kind : LoadError → String
  | .notText _ => "UnicodeDecodeError"
  | .noValue e => e.kind
  | .content (.noNames _) => "TypeError"
  | .content .tooDeep => TextError.tooDeep.kind
  | _ => "ConfigError"

/-- The environment variable that names a settings file. -/
def pathVariable : String := "RSQL_LSP_CONFIG"

/-- The files that are looked for, in this order. -/
def candidates (f : Files) : List String :=
  [f.workingDirectory ++ "/rsql-lsp.yml", f.homeDirectory ++ "/.rsql-lsp/config.yml"]

/-- The file that was asked for: the given one, or the one named in the environment. -/
def requested? (f : Files) (path : Option String) : Option String :=
  (path.orElse fun _ => (f.env? pathVariable).filter (· ≠ "")).map Path.normal

/-- The file to read.  One that was asked for must exist, the others need not. -/
def source? (f : Files) (path : Option String) : Except LoadError (Option String) :=
  match requested? f path with
  | some p => if (f.entry? p).isSome then .ok (some p) else .error (.missing p)
  | none => .ok ((candidates f).find? fun p => (f.entry? p).isSome)

/-- The settings in a file. -/
def read (depths : Depths) (f : Files) (path : String) : Except LoadError Settings :=
  match f.entry? path with
  | some (.text content) =>
    match Yaml.parse depths.yaml (Text.plainNewlines content) with
    | .ok raw => (parse depths.display path raw).mapError .content
    | .error .malformed => .error (.unreadable path)
    | .error e => .error (.noValue e)
  | some .binary => .error (.notText path)
  | _ => .error (.unreadable path)

/-- The settings to work with: those of the file to read, or the defaults without one. -/
def load (depths : Depths) (f : Files) (path : Option String) : Except LoadError Settings := do
  match ← source? f path with
  | some p => read depths f p
  | none => return {}

end Settings

end EmbeddedSql
