/-
**The query under the cursor.**

* `Content` — the content of a string literal, quotes excluded;
* `Cursor.content?` — the literal around a position, or the one just before it;
* `Cursor.function?` — the configured function that a literal is query text of;
* `Query` — a literal that is query text, with its owner;
* `Cursor.query?` — the query at a position.

All searches look at a window of lines before the position.
-/

import EmbeddedSql.Call
import EmbeddedSql.Document
import EmbeddedSql.Escape

set_option relaxedAutoImplicit false
set_option autoImplicit false

namespace EmbeddedSql

/-- The content of a string literal. -/
structure Content where
  range : Range
  /-- Offset of the first character. -/
  start : Nat
  /-- Offset of the closing quote. -/
  stop : Nat
  quote : Char
  deriving Repr, DecidableEq

/-- Offset of the opening quote. -/
def Content.opening (c : Content) : Nat :=
  c.start - 1

/-- A literal that is query text of a call. -/
structure Query where
  /-- Decoded content without blanks at its ends. -/
  text : Text
  range : Range
  function : String
  multiline : Bool
  interpolating : Bool
  quote : Char
  deriving Repr, DecidableEq

namespace Cursor

/-! ### The literal -/

/-- The offset of the first character of the line that lies `lookback` lines before the given one,
or of the document. -/
def windowStart (doc : Document) (line lookback : Nat) : Nat :=
  doc.offsetOf ⟨line - lookback, 0⟩

/-- The content between the quotes at two offsets. -/
def contentOf (doc : Document) (opening closing : Nat) (quote : Char) : Content :=
  ⟨doc.rangeOf (opening + 1) closing, opening + 1, closing, quote⟩

/-- The string literal around a position.  A position just after the closing quote belongs to the
literal too. -/
def content? (d : Detection) (doc : Document) (p : Position) : Option Content :=
  let offset := doc.offsetOf p
  let first := windowStart doc (min p.line (doc.lineCount - 1)) d.limits.lineLookback
  match (Literal.scan d.marks doc.text first offset).getLast? with
  | some ⟨.string, opening, stop, quote, true⟩ =>
    if stop + 1 = offset then some (contentOf doc opening stop quote) else none
  | some ⟨.string, opening, _, quote, false⟩ =>
    (Literal.closingQuote? doc.text (opening + 1) quote
      (opening + 1 + d.limits.callLength)).map fun closing => contentOf doc opening closing quote
  | _ => none

/-! ### The owner -/

/-- The calls of one function that start in code of a window before a literal and contain the
literal.  `literals` are those of the window. -/
def callsAround (d : Detection) (text : Text) (literals : List Literal) (first : Nat)
    (c : Content) (function : String) : List Call :=
  ((Call.occurrences function text first c.opening).filter
    (Literal.containing? literals · |>.isNone)).filterMap fun start =>
      (Call.openingAt? d text function start).bind fun opening =>
        if opening < c.opening then
          let call : Call := ⟨function, opening, Call.stopOf d text opening⟩
          if c.stop < call.stop then some call else none
        else none

/-- Whether the second call is to be preferred: it is further inside, or it is the same one under a
longer name. -/
def prefers (a b : Call) : Bool :=
  a.opening < b.opening || (a.opening == b.opening && a.function.length < b.function.length)

/-- The first call that no later one is preferred to. -/
def innermost? (calls : List Call) : Option Call :=
  calls.foldl (fun best call =>
    match best with
    | none => some call
    | some b => if prefers b call then some call else best) none

/-- The function that a literal is query text of: the innermost call around it decides. -/
def function? (d : Detection) (doc : Document) (c : Content) : Option String :=
  let first := windowStart doc c.range.start.line d.limits.lineLookback
  let literals := Literal.scan d.marks doc.text first c.opening
  match innermost? (d.functions.flatMap (callsAround d doc.text literals first c)) with
  | none => none
  | some call =>
    let argument := Call.namedArgument? doc.text c.opening d.limits.argumentLookback
    if Call.acceptsArgument d call.function argument then some call.function else none

/-- The query at a position. -/
def query? (d : Detection) (doc : Document) (p : Position) : Option Query := do
  let c ← content? d doc p
  let function ← function? d doc c
  return {
    text := Escape.query (doc.text.slice c.start c.stop)
    range := c.range
    function := function
    multiline := c.range.isMultiline
    interpolating := d.isInterpolating function
    quote := c.quote }

/-- The offset of a position inside the raw content of a query. -/
def offsetIn (doc : Document) (q : Query) (p : Position) : Nat :=
  doc.distance q.range.start p

end Cursor

end EmbeddedSql
