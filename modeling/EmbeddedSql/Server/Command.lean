/-
**Arguments of the format command.**

A client sends the name of a document and a position in it.  What it sends is raw data, so every
part may be missing or of another kind.

* `Command.name` — the name of the command;
* `Command.Error` — what is wrong with the arguments;
* `Command.parse` — the document and the position.
-/

import EmbeddedSql.Position
import EmbeddedSql.Text.Numeral
import EmbeddedSql.Value.Basic

set_option relaxedAutoImplicit false
set_option autoImplicit false

namespace EmbeddedSql

namespace Command

/-- The name of the command. -/
def name : String := "rsql.formatSQL"

/-- What is wrong with the arguments of the command. -/
inductive Error where
  /-- Fewer than two arguments. -/
  | tooFew
  /-- Arguments that cannot be counted. -/
  | noLength (kind : String)
  /-- Arguments that have names instead of an order. -/
  | noOrder
  /-- A position without one of its members. -/
  | missing (member : String)
  /-- A position that has no members. -/
  | noMembers (kind : String)
  /-- A member that is no number. -/
  | notNumber (kind : String)
  /-- A member whose text is no whole number. -/
  | unreadable (e : Text.Numeral.Error)
  /-- A member that is infinite. -/
  | infinite
  /-- A member that is no number at all although it is of that kind. -/
  | undefined
  /-- A member that no position can have. -/
  | outOfRange (e : Position.OutOfRange)
  /-- A name of a document that has no text. -/
  | noText (e : TextError)
  deriving Repr, DecidableEq

/-- The wording of an error. -/
def Error.message : Error → String
  | .tooFew => name ++ " expects [uri, position]"
  | .noLength kind => "object of type '" ++ kind ++ "' has no len()"
  | .noOrder => "0"
  | .missing member => "'" ++ member ++ "'"
  | .noMembers kind => "'" ++ kind ++ "' object has no attribute 'line'"
  | .notNumber kind =>
    "int() argument must be a string, a bytes-like object or a real number, not '" ++ kind ++ "'"
  | .unreadable e => e.message
  | .infinite => "cannot convert float infinity to integer"
  | .undefined => "cannot convert float NaN to integer"
  | .outOfRange e => e.message
  | .noText e => e.message

/-- The whole number a member stands for. -/
def number : Value → Except Error Int
  | .int n => .ok n
  | .bool b => .ok (if b then 1 else 0)
  | .real (.finite b) => .ok b.truncate
  | .real (.infinite _) => .error .infinite
  | .real .undefined => .error .undefined
  | .str s => (Text.readInt s.toList).mapError .unreadable
  | v => .error (.notNumber v.kind)

/-- A member of a position. -/
def member (entries : List (Scalar × Value)) (key : String) : Except Error Int :=
  match Value.lookup key entries with
  | some v => number v
  | none => .error (.missing key)

/-- The position in a value. -/
def position : Value → Except Error Position
  | .object entries => do
    let line ← member entries "line"
    let character ← member entries "character"
    (Position.ofInts line character).mapError .outOfRange
  | v => .error (.noMembers v.kind)

/-- The first two arguments. -/
def arguments (v : Value) : Except Error (Value × Value) :=
  if !v.truthy then .error .tooFew
  else
    match v with
    | .list (a :: b :: _) => .ok (a, b)
    | .list _ => .error .tooFew
    | .str s =>
      match s.toList with
      | a :: b :: _ => .ok (.str a.toString, .str b.toString)
      | _ => .error .tooFew
    | .object (_ :: _ :: _) => .error .noOrder
    | .object _ => .error .tooFew
    | v => .error (.noLength v.kind)

/-- The document and the position that the command is about.  The name of the document may be any
value; `depth` bounds how deep that one may be nested. -/
def parse (depth : Nat) (v : Value) : Except Error (String × Position) := do
  let (uri, p) ← arguments v
  let p ← position p
  let uri ← (uri.text depth).mapError .noText
  return (uri, p)

end Command

end EmbeddedSql
