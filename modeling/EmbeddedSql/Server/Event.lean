/-
**What happens to the language server.**

* `Event` — a request, a notification, or another reading of the clock;
* `Answer`, `Message` — what a request is answered, and what else the client is sent;
* `Server.notify` — telling the listeners of a document event;
* `Server.step` — the answer to an event, the messages, and the server after it;
* `Server.run` — the answers to a sequence of events.
-/

import EmbeddedSql.Server.Basic
import EmbeddedSql.Server.Command

set_option relaxedAutoImplicit false
set_option autoImplicit false

namespace EmbeddedSql

/-- What happens to the server. -/
inductive Event where
  /-- A client introduces itself. -/
  | introduced (options : Value)
  | ready
  | opened (b : Buffer)
  | changed (uri : String) (version : Option Int) (changes : List Buffer.Change)
  | closed (uri : String)
  /-- A request for highlights, of a range or of the whole document. -/
  | highlights (uri : String) (range : Option Range)
  | complete (uri : String) (p : Position)
  /-- The format command with its raw arguments. -/
  | format (arguments : Value)
  | source (uri : String)
  | regions (uri : String)
  | diagnostics (uri : String)
  /-- New settings. -/
  | override (options : Value)
  | settings
  | status
  /-- The clock reads another time, in seconds. -/
  | clock (now : Real)
  /-- The server listens, over a network when a host is given, until the connection ends. -/
  | listen (host : Option String)
  | shutdown
  | exit

/-- What the server tells a client that introduces itself. -/
structure Capabilities where
  name : String
  version : String
  /-- The types and modifiers of highlights. -/
  legend : Option (List String × List String)
  triggers : Option (List String)
  commands : List String
  deriving Repr, DecidableEq

/-- A view of the server's state. -/
structure Status where
  listeners : Nat
  cached : Nat
  requests : List String
  databaseReady : Bool
  holdsDatabase : Bool
  registered : Bool
  summary : String
  deriving Repr, DecidableEq

/-- What a request is answered. -/
inductive Answer where
  | nothing
  /-- The feature could not be set up or is not wanted. -/
  | unregistered
  | failed (e : Server.Error)
  | capabilities (c : Capabilities)
  | highlights (data : List Int)
  | suggestions (items : List Suggestion)
  | edited (uri : String) (e : Edit)
  | source (t : Text)
  | regions (rs : List Region)
  | diagnostics (version : Int) (ds : List Diagnostic)
  | settings (s : Settings)
  | status (s : Status)

/-- What the server sends to the client on its own. -/
inductive Message where
  | diagnostics (uri : String) (version : Option Int) (ds : List Diagnostic)
  | notice (severity : Severity) (text : String)
  | applyEdit (label : String) (uri : String) (e : Edit)
  /-- The server listens, over a network at an address or else over its standard streams. -/
  | listening (address : Option (String × Int))

namespace Server

/-! ### Documents -/

/-- What happened to a document. -/
inductive DocumentEvent where
  | opened
  | changed
  | closed
  deriving Repr, DecidableEq

/-- How a listener takes an event: scans survive the opening of a document. -/
def reaction (e : DocumentEvent) (l : Listener) : Option Reaction :=
  if l = .regions && e = .opened then none else some .done

/-- New diagnostics for a document.  One that is not open has none, in version zero. -/
def refreshDiagnostics (s : Server) (uri : String) : Server :=
  match s.buffer uri with
  | .ok b =>
    let (diagnostics, regions, database) :=
      s.diagnostics.refresh s.depths s.applied.diagnostics s.regions s.database s.now b
    { s with diagnostics := diagnostics, regions := regions, database := database }
  | .error _ => { s with diagnostics := s.diagnostics.insert uri 0 [] }

/-- New highlights for a document. -/
def refreshHighlights (s : Server) (uri : String) : Server :=
  match s.buffer uri with
  | .ok b =>
    if b.isR then
      let (_, regions, highlights) := s.highlights.parse s.regions .silent s.now b.document
      { s with highlights := highlights, regions := regions }
    else s
  | .error _ => s

/-- The diagnostics of a document as a message. -/
def publish (s : Server) (uri : String) : Message :=
  let (version, ds) := s.diagnostics.get uri
  .diagnostics uri (some version) ds

/-- What a listener does about an event. -/
def hear (s : Server) (e : DocumentEvent) (uri : String) : Listener → List Message × Server
  | .regions => ([], { s with regions := s.regions.forget uri })
  | .diagnostics =>
    match e with
    | .closed =>
      ([.diagnostics uri none []], { s with diagnostics := s.diagnostics.forget uri })
    | _ =>
      if s.workspace.isSome then
        let s := s.refreshDiagnostics uri
        ([s.publish uri], s)
      else ([], s)
  | .highlights =>
    match e with
    | .closed => ([], { s with highlights := s.highlights.forget uri })
    | _ => ([], s.refreshHighlights uri)

/-- Some listeners in turn. -/
def hearAll (e : DocumentEvent) (uri : String) : Server → List Listener → List Message × Server
  | s, [] => ([], s)
  | s, l :: rest =>
    let (sent, s) := s.hear e uri l
    let (more, s) := hearAll e uri s rest
    (sent ++ more, s)

/-- Tells the listeners of an event. -/
def notify (s : Server) (e : DocumentEvent) (uri : String) : List Message × Server :=
  let (told, dispatch) := s.dispatch.distribute (reaction e)
  hearAll e uri { s with dispatch := dispatch } told

/-- Nothing but the listeners hears of an event. -/
def announce (s : Server) (e : DocumentEvent) (uri : String) : Answer × List Message × Server :=
  let (sent, s) := s.notify e uri
  (.nothing, sent, s)

/-- The workspace changes, if it can, and then the listeners are told. -/
def documentEvent (s : Server) (e : DocumentEvent) (uri : String)
    (change : Workspace → Option Workspace) : Answer × List Message × Server :=
  match s.workspace with
  | none => (.failed .noWorkspace, [], s)
  | some w =>
    match change w with
    | none => (.failed (.notOpen uri), [], s)
    | some w => { s with workspace := some w }.announce e uri

/-- Opens a document, whose name must be one. -/
def openDocument (s : Server) (b : Buffer) : Answer × List Message × Server :=
  match s.workspace.isSome, Path.ofUri b.uri with
  | true, .error e => (.failed (.noName e), [], s)
  | _, _ => s.documentEvent .opened b.uri fun w => some (w.put b)

/-- Edits of a document.  Without any edit nothing changes, not even the version, but the listeners
are told. -/
def changeDocument (s : Server) (uri : String) (version : Option Int)
    (changes : List Buffer.Change) : Answer × List Message × Server :=
  if changes.isEmpty then s.announce .changed uri
  else s.documentEvent .changed uri fun w => w.change uri version changes

/-! ### Requests -/

/-- What the server offers. -/
def capabilities (s : Server) : Capabilities :=
  { name := name
    version := version
    legend :=
      if .highlighting ∈ s.features then some (Legend.types, Legend.modifiers) else none
    triggers := if .completion ∈ s.features then some triggers else none
    commands := if .formatting ∈ s.features then [Command.name] else [] }

/-- A client introduces itself: no document is open, and its options override the settings if they
can be used.  The client is not told when they cannot. -/
def introduce (s : Server) (options : Value) : Answer × List Message × Server :=
  let s := { s with workspace := some {} }
  let s := if options.truthy then (s.override options).2 else s
  (.capabilities s.capabilities, [], s)

/-- The highlights of a document. -/
def answerHighlights (s : Server) (uri : String) (range : Option Range) :
    Answer × List Message × Server :=
  if .highlighting ∈ s.features then
    match s.buffer uri with
    | .error _ => (.nothing, [], s)
    | .ok b =>
      let (data, regions, highlights) := s.highlights.request s.regions s.now b range
      (data.elim .nothing .highlights, [], { s with regions := regions, highlights := highlights })
  else (.unregistered, [], s)

/-- The suggestions at a position. -/
def answerComplete (s : Server) (uri : String) (p : Position) : Answer × List Message × Server :=
  if .completion ∈ s.features then
    match s.buffer uri with
    | .error _ => (.nothing, [], s)
    | .ok b =>
      let (items, database) :=
        Completion.request s.depths.display s.regions.detection b s.database p
      (items.elim .nothing .suggestions, [], { s with database := database })
  else (.unregistered, [], s)

/-- The label of the edits that the server asks for. -/
def editLabel : String := "Format SQL"

/-- The notice after an edit. -/
def editNotice : String := "SQL formatted successfully"

/-- The notice when the command cannot be carried out. -/
def troubleNotice (message : String) : Message :=
  .notice .error ("SQL formatting encountered an error: " ++ message)

/-- Formats the query at a position of a buffer. -/
def formatBuffer (s : Server) (b : Buffer) (p : Position) : Answer × List Message × Server :=
  let options := s.applied.formatting
  let (result, printed) := Formatting.edit s.printer options s.applied.detection b p
  let s := { s with printed := s.printed ++ printed.map (options, ·) }
  match result with
  | .error e => (.nothing, [.notice .warning e.message], s)
  | .ok none => (.nothing, [], s)
  | .ok (some e) =>
    (.edited b.uri e, [.applyEdit editLabel b.uri e, .notice .information editNotice], s)

/-- The format command. -/
def answerFormat (s : Server) (arguments : Value) : Answer × List Message × Server :=
  if .formatting ∈ s.features then
    match Command.parse s.depths.display arguments with
    | .error e => (.nothing, [troubleNotice e.message], s)
    | .ok (uri, p) =>
      match s.buffer uri with
      | .error e => (.nothing, [troubleNotice e.message], s)
      | .ok b => s.formatBuffer b p
  else (.unregistered, [], s)

/-- The regions of a document, whatever its language. -/
def answerRegions (s : Server) (uri : String) : Answer × List Message × Server :=
  match s.buffer uri with
  | .error e => (.failed e, [], s)
  | .ok b =>
    let (rs, regions) := s.regions.regions s.now b.document
    (.regions rs, [], { s with regions := regions })

/-- A view of the state. -/
def statusOf (s : Server) : Status :=
  { listeners := s.dispatch.size
    cached := s.regions.cache.size
    requests := s.requests
    databaseReady := s.databaseReady
    holdsDatabase := s.holdsDatabase
    registered := s.isRegistered
    summary := s.summary }

/-! ### Events -/

/-- The answer to an event, what else the client is sent, and the server after it. -/
def step (s : Server) : Event → Answer × List Message × Server
  | .introduced options => s.introduce options
  | .ready => (.nothing, [], s)
  | .opened b => s.openDocument b
  | .changed uri version changes => s.changeDocument uri version changes
  | .closed uri => s.documentEvent .closed uri fun w => some (w.remove uri)
  | .highlights uri range => s.answerHighlights uri range
  | .complete uri p => s.answerComplete uri p
  | .format arguments => s.answerFormat arguments
  | .source uri =>
    match s.buffer uri with
    | .ok b => (.source b.source, [], s)
    | .error e => (.failed e, [], s)
  | .regions uri => s.answerRegions uri
  | .diagnostics uri =>
    let (version, ds) := s.diagnostics.get uri
    (.diagnostics version ds, [], s)
  | .override options =>
    match s.override options with
    | (.ok (), s) => (.nothing, [], s)
    | (.error e, s) => (.failed e, [], s)
  | .settings => (.settings s.settings, [], s)
  | .status => (.status s.statusOf, [], s)
  | .clock now => (.nothing, [], { s with now := now })
  | .listen host => (.nothing, [.listening (host.map (·, s.port))], s.shutdown)
  | .shutdown => (.nothing, [], s.shutdown)
  | .exit => (.nothing, [], s)

/-- The answers and messages of a sequence of events, and the server after them. -/
def run : Server → List Event → List (Answer × List Message) × Server
  | s, [] => ([], s)
  | s, e :: rest =>
    let (answer, sent, s) := s.step e
    let (more, s) := run s rest
    ((answer, sent) :: more, s)

end Server

end EmbeddedSql
