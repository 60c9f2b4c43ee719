/-
**Buffers of the client.**

A client counts columns in UTF-16 units and knows more line breaks than the detection does.  A
buffer keeps the source as the client sent it.

* `Buffer` — source, version and language of an open document;
* `Buffer.document` — the snapshot for the detection;
* `Buffer.lines` — the lines of the client, with their breaks;
* `Text.units` — the length of a text in UTF-16 units;
* `Buffer.toCore`, `Buffer.toClient` — positions of the client as positions of the detection, and
  back;
* `Buffer.Change`, `Buffer.change` — edits;
* `Buffer.isR` — whether a buffer holds R source.
-/

import EmbeddedSql.Document

set_option relaxedAutoImplicit false
set_option autoImplicit false

namespace EmbeddedSql

/-! ### UTF-16 units -/

/-- The UTF-16 units of a character. -/
def Text.charUnits (c : Char) : Nat :=
  if 0xFFFF < c.toNat then 2 else 1

/-- The UTF-16 units of a text. -/
def Text.units (t : Text) : Nat :=
  t.foldr (fun c n => Text.charUnits c + n) 0

@[simp] theorem Text.units_nil : Text.units [] = 0 := rfl

theorem Text.units_cons (c : Char) (t : Text) :
    Text.units (c :: t) = Text.charUnits c + Text.units t := rfl

theorem Text.units_append (s t : Text) : Text.units (s ++ t) = Text.units s + Text.units t := by
  induction s with
  | nil => simp
  | cons c s ih => rw [List.cons_append, Text.units_cons, ih, Text.units_cons, Nat.add_assoc]

/-- How many characters it takes to cover a number of units. -/
def Text.charsCovering : (units : Nat) → Text → Nat
  | 0, _ => 0
  | _ + 1, [] => 0
  | n + 1, c :: rest => Text.charsCovering (n + 1 - Text.charUnits c) rest + 1

/-! ### Buffers -/

/-- A document as the client has it. -/
structure Buffer where
  uri : String
  source : Text
  version : Option Int
  language : Option String
  deriving Repr, DecidableEq

namespace Buffer

/-- The version, zero when the client gave none. -/
def versionNumber (b : Buffer) : Int :=
  b.version.getD 0

/-- The snapshot for the detection. -/
def document (b : Buffer) : Document :=
  Document.ofSource b.uri b.source b.versionNumber

/-- Whether the buffer holds R source: by its language, or else by the end of its name. -/
def isR (b : Buffer) : Bool :=
  let name := b.uri.toLower
  ["r", "rmd"].contains ((b.language.getD "").toLower) || name.endsWith ".r" || name.endsWith ".rmd"

/-! ### Lines -/

/-- Characters that end a line of the client. -/
def isBreak (c : Char) : Bool :=
  ['\n', '\r', '\x0b', '\x0c', '\x1c', '\x1d', '\x1e', '\u0085', '\u2028', '\u2029'].contains c

/-- The lines of a text with their breaks; `acc` holds the current line, last character first. -/
def splitLines : (acc : Text) → Text → List Text
  | acc, [] => if acc.isEmpty then [] else [acc.reverse]
  | acc, '\r' :: '\n' :: rest => ('\n' :: '\r' :: acc).reverse :: splitLines [] rest
  | acc, c :: rest =>
    if isBreak c then (c :: acc).reverse :: splitLines [] rest else splitLines (c :: acc) rest

/-- The lines of the client, each with its break.  No line follows the last break. -/
def lines (b : Buffer) : List Text :=
  splitLines [] b.source

theorem flatten_splitLines (acc t : Text) : (splitLines acc t).flatten = acc.reverse ++ t := by
  fun_induction splitLines acc t <;> simp_all

/-- Nothing of the source is lost in its lines. -/
@[simp] theorem flatten_lines (b : Buffer) : b.lines.flatten = b.source := by
  simp [lines, flatten_splitLines]

/-! ### Positions -/

/-- The column that a client column means in a line.  One beyond the line is the column before its
last unit. -/
def columnIn (line : Text) (column : Nat) : Nat :=
  let line := Text.unifyNewlines line
  let units := Text.units line
  Text.charsCovering (if units < column then units - 1 else column) line

/-- The detection's position for a client position, given the lines of the client.  A line beyond
the last one is the end of the last one, still counted in units. -/
def toCoreIn (ls : List Text) (p : Position) : Position :=
  match ls[p.line]? with
  | some line => ⟨p.line, columnIn line p.character⟩
  | none =>
    match ls.getLast? with
    | some last => ⟨ls.length - 1, Text.units last⟩
    | none => ⟨0, 0⟩

/-- The detection's position for a client position. -/
def toCore (b : Buffer) (p : Position) : Position :=
  toCoreIn b.lines p

/-- The client's position for a position of the detection, given the lines of the client. -/
def toClientIn (ls : List Text) (p : Position) : Position :=
  match ls[p.line]? with
  | some line => ⟨p.line, Text.units (line.take p.character)⟩
  | none => ⟨ls.length, 0⟩

/-- The client's position for a position of the detection. -/
def toClient (b : Buffer) (p : Position) : Position :=
  toClientIn b.lines p

/-- The client's range for a range of the detection. -/
def rangeToClient (b : Buffer) (r : Range) : Range :=
  ⟨b.toClient r.start, b.toClient r.stop⟩

/-! ### Changes -/

/-- An edit: a new text for a range of the client, or for the whole source. -/
structure Change where
  text : Text
  range : Option Range
  deriving Repr, DecidableEq

/-- What becomes of line number `n` when the given range is exchanged for a text. -/
def changeLine (text : Text) (r : Range) (line : Text) (n : Nat) : Text :=
  if n < r.start.line || r.stop.line < n then line
  else
    (if n = r.start.line then line.take r.start.character ++ text else []) ++
      (if n = r.stop.line then line.drop r.stop.character else [])

/-- The source after an edit. -/
def changeSource (source : Text) (c : Change) : Text :=
  match c.range with
  | none => c.text
  | some r =>
    let ls := splitLines [] source
    let core : Range := ⟨toCoreIn ls r.start, toCoreIn ls r.stop⟩
    if core.start.line = ls.length then source ++ c.text
    else (ls.zipIdx.map fun l => changeLine c.text core l.1 l.2).flatten

/-- The buffer after an edit. -/
def change (b : Buffer) (c : Change) : Buffer :=
  { b with source := changeSource b.source c }

end Buffer

end EmbeddedSql
