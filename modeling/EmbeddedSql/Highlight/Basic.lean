/-
**Highlighted words of a document.**

The tokens of every query become highlights in document coordinates.  A highlight lies on one line
and covers what is written there, escapes included.

* `Legend` — the names of highlight types and modifiers;
* `Highlight` — a stretch of a line with its type; `Highlight.make` checks its parts;
* `Highlight.classify` — the type of a token, given the keyword before it;
* `Highlight.ofRegion` — the highlights of a region; tokens that touch an interpolation are left
  out.
-/

import EmbeddedSql.Escape
import EmbeddedSql.Interpolation
import EmbeddedSql.Region
import EmbeddedSql.Text.Quoted
import EmbeddedSql.Token
import EmbeddedSql.Vocabulary

set_option relaxedAutoImplicit false
set_option autoImplicit false

namespace EmbeddedSql

/-! ### The legend -/

/-- The types of highlights in the order of the legend. -/
def Legend.types : List String :=
  ["keyword", "function", "string", "number", "operator", "comment", "variable", "class"]

/-- The modifiers of highlights in the order of the legend. -/
def Legend.modifiers : List String := ["defaultLibrary"]

/-- The bit of the modifier for functions the database knows by itself. -/
def Legend.library : Nat := 1

/-- The place of a type in the legend. -/
def Legend.index? (type : String) : Option Nat :=
  Legend.types.idxOf? type

/-- A stretch of one line, in characters. -/
structure Highlight where
  line : Nat
  offset : Nat
  text : Text
  type : String
  modifiers : List Nat
  deriving Repr, DecidableEq

namespace Highlight

/-- What a highlight cannot be. -/
inductive Error where
  | negativeLine
  | negativeOffset
  | emptyText
  | unknownType (type : String)
  /-- A place that no position can hold. -/
  | outOfRange (e : Position.OutOfRange)
  deriving Repr, DecidableEq

/-- The wording of a rejected highlight. -/
def Error.message : Error → String
  | .negativeLine => "Token line must be non-negative"
  | .negativeOffset => "Token offset must be non-negative"
  | .emptyText => "Token text cannot be empty"
  | .unknownType type => String.ofList (Text.quoted type.toList) ++ " is not in list"
  | .outOfRange e => e.message

/-- The highlight with the given parts, which are checked from left to right. -/
def make (line offset : Int) (text : Text) (type : String) (modifiers : List Nat) :
    Except Error Highlight :=
  if line < 0 then .error .negativeLine
  else if offset < 0 then .error .negativeOffset
  else if text.isEmpty then .error .emptyText
  else .ok ⟨line.toNat, offset.toNat, text, type, modifiers⟩

/-! ### Types of tokens -/

/-- The upper case of a token's text as a word. -/
def upperWord (t : Text) : String :=
  String.ofList (Text.upper t)

/-- The type of a token.  An identifier is a function when the database knows it as one, a table
when the keyword before it says so, and a column otherwise. -/
def classify (kind : TokenKind) (text : Text) (previous : String) : String :=
  match kind with
  | .identifier =>
    if Vocabulary.functions.contains (upperWord text) then "function"
    else if Vocabulary.tableKeywords.contains previous then "class"
    else "variable"
  | kind => kind.name

/-- The modifiers of a token with a type. -/
def modifiersOf (type : String) (text : Text) : List Nat :=
  if type = "function" && Vocabulary.functions.contains (upperWord text) then [Legend.library]
  else []

/-! ### Regions -/

/-- The nonempty lines of a text as highlights, the first one at the given position. -/
def ofLines (start : Position) (text : Text) (type : String) (modifiers : List Nat) :
    List Highlight :=
  text.lines.zipIdx.filterMap fun l =>
    if l.1.isEmpty then none
    else some ⟨start.line + l.2, if l.2 = 0 then start.character else 0, l.1, type, modifiers⟩

/-- Whether a token touches one of some stretches. -/
def touches (spans : List (Nat × Nat)) (t : Token) : Bool :=
  spans.any fun s => s.1 < t.stop && t.offset < s.2

/-- The tokens that touch none of the stretches, each with the last keyword up to it.  Keywords
inside the stretches count. -/
def withKeywords (skipped : List (Nat × Nat)) : (previous : String) → List Token →
    List (Token × String)
  | _, [] => []
  | previous, t :: rest =>
    let previous := if t.kind = .keyword then upperWord t.text else previous
    if touches skipped t then withKeywords skipped previous rest
    else (t, previous) :: withKeywords skipped previous rest

/-- The highlights of a region, given the lines of the document. -/
def ofRegion (ls : List Text) (r : Region) : List Highlight :=
  let sql := Escape.decode r.raw
  let offsets := (Escape.offsets r.raw).toArray
  let skipped := if r.interpolating then Interpolation.spans sql else []
  (withKeywords skipped "" (Token.lex Vocabulary.keywords sql)).flatMap fun (t, previous) =>
    let type := classify t.kind t.text previous
    let first := offsets.getD t.offset r.raw.length
    let last := offsets.getD t.stop r.raw.length
    ofLines (Document.advanceIn ls r.range.start first) (r.raw.slice first last) type
      (modifiersOf type t.text)

end Highlight

end EmbeddedSql
