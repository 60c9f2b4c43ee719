/-
**All queries of a document.**

The document is scanned once for literals.  Every occurrence of a configured name in code is
followed up to its call, and every closed string literal goes to the innermost call that accepts
it.

* `Region` — a literal that is query text, with the function it belongs to;
* `Region.Warning` — why a scan is incomplete;
* `Region.survey` — all regions of a document in order, and the warnings; it can be cancelled;
* `Region.all` — the regions without cancellation.
-/

import EmbeddedSql.Call
import EmbeddedSql.Document
import EmbeddedSql.Signal

set_option relaxedAutoImplicit false
set_option autoImplicit false

namespace EmbeddedSql

/-- A literal that is query text. -/
structure Region where
  range : Range
  function : String
  multiline : Bool
  interpolating : Bool
  /-- Content as it is written, escapes included. -/
  raw : Text
  /-- Whether no bracket inside the call is open around the literal. -/
  direct : Bool
  deriving Repr, DecidableEq, Inhabited

namespace Region

/-- Why a scan is incomplete. -/
inductive Warning where
  | tooLarge (size : Nat)
  | tooManyCalls (function : String)
  deriving Repr, DecidableEq

/-- The wording of a warning about a document. -/
def Warning.message (limits : Limits) (uri : String) : Warning → String
  | .tooLarge size =>
    "Document " ++ uri ++ " too large (" ++ Nat.repr size ++ " chars), skipping SQL detection"
  | .tooManyCalls function =>
    "More than " ++ Nat.repr limits.functionMatches ++ " calls to " ++ function ++ " in " ++ uri ++
      ", ignoring the rest"

/-! ### Calls -/

/-- The occurrences of a name that stand in code, `left` of them at most, and whether there were
more.  The signal is asked before every occurrence. -/
def inCode (s : Signal) (literals : List Literal) : (left : Nat) → List Nat →
    Watched (List Nat × Bool)
  | _, [] => return ([], false)
  | left, o :: os => do
    s.poll
    if (Literal.containing? literals o).isSome then inCode s literals left os
    else
      match left with
      | 0 => return ([], true)
      | n + 1 =>
        let (rest, more) ← inCode s literals n os
        return (o :: rest, more)

/-- The calls of one function, and whether some were left out. -/
def callsOf (s : Signal) (d : Detection) (text : Text) (literals : List Literal)
    (function : String) : Watched (List Call × Bool) := do
  s.poll
  let starts := Call.occurrences function text 0 text.length
  let (followed, more) ← inCode s literals d.limits.functionMatches starts
  return (followed.filterMap (Call.at? d text function), more)

/-! ### Owners -/

/-- Whether a literal of a text lies inside a call and is query text of it. -/
def accepts (d : Detection) (text : Text) (l : Literal) (call : Call) : Bool :=
  call.opening < l.start && l.stop < call.stop &&
    Call.acceptsArgument d call.function
      (Call.namedArgument? text l.start d.limits.argumentLookback)

/-- The call with the last opening parenthesis among those that accept a literal; of several with
the same parenthesis the first. -/
def owner? (d : Detection) (text : Text) (l : Literal) (calls : List Call) : Option Call :=
  calls.foldl (fun best call =>
    if accepts d text l call then
      match best with
      | none => some call
      | some b => if b.opening < call.opening then some call else best
    else best) none

/-- Whether the brackets opened in the code between a call's parenthesis and a literal are closed
again before the literal. -/
def isDirect (text : Text) (literals : List Literal) (opening start : Nat) : Bool :=
  let within := literals.dropWhile (·.start ≤ opening)
  Bracket.netDepth within (opening + 1) (text.slice (opening + 1) start) == 0

/-- The region of a literal, if a call accepts it. -/
def ofLiteral? (d : Detection) (doc : Document) (literals : List Literal) (calls : List Call)
    (l : Literal) : Option Region :=
  if l.kind = .string && l.closed then
    (owner? d doc.text l calls).map fun call =>
      let range := doc.rangeOf (l.start + 1) l.stop
      { range := range
        function := call.function
        multiline := range.isMultiline
        interpolating := d.isInterpolating call.function
        raw := doc.text.slice (l.start + 1) l.stop
        direct := isDirect doc.text literals call.opening l.start }
  else none

/-! ### The scan -/

/-- The regions of a document in order, and what was left out. -/
def survey (s : Signal) (d : Detection) (doc : Document) :
    Watched (List Region × List Warning) := do
  let size := doc.text.length
  if d.limits.documentSize < size then
    return ([], [.tooLarge size])
  else
    let literals := Literal.scanAll d.marks doc.text
    let found ← d.functions.mapM (callsOf s d doc.text literals)
    let calls := found.flatMap Prod.fst
    let warnings := (d.functions.zip found).filterMap fun f =>
      if f.2.2 then some (.tooManyCalls f.1) else none
    return (literals.filterMap (ofLiteral? d doc literals calls), warnings)

/-- The regions of a document and the warnings, when nothing cancels the scan. -/
def surveyAll (d : Detection) (doc : Document) : List Region × List Warning :=
  ((survey .silent d doc).run 0).elim ([], []) Prod.fst

/-- The regions of a document. -/
def all (d : Detection) (doc : Document) : List Region :=
  (surveyAll d doc).1

end Region

end EmbeddedSql
