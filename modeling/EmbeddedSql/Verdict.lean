/-
**Verdicts of the database's parser.**

The parser reports on a query with a JSON object whose parts may be of any kind.

* `Verdict` — whether the query is in error, with kind, message and position;
* `Verdict.readPosition` — a position from whatever the report holds;
* `Verdict.ofReport` — the verdict in a report;
* `Verdict.severity`, `Verdict.text` — how grave it is, and how it is shown.
-/

import EmbeddedSql.Finding
import EmbeddedSql.Text.Numeral
import EmbeddedSql.Value.Json

set_option relaxedAutoImplicit false
set_option autoImplicit false

namespace EmbeddedSql

/-- A verdict on a query.  Kind and message are what the report held, so they may be any value. -/
structure Verdict where
  error : Bool
  kind : Value
  message : Value
  position : Nat
  deriving Repr

namespace Verdict

/-- The kind of errors that the checking itself ran into. -/
def checkFailed : String := "VALIDATION_ERROR"

/-- The kind of an error without any. -/
def unknownKind : String := "UNKNOWN"

/-- The severity of a kind of error. -/
def kindSeverity (kind : Value) : Severity :=
  match kind with
  | .str s => if s = checkFailed then .warning else .error
  | _ => .error

/-- How grave a verdict is. -/
def severity (v : Verdict) : Severity :=
  if v.error then kindSeverity v.kind else .hint

/-- How a verdict is shown.  `depth` bounds how deep kind and message may be nested. -/
def text (depth : Nat) (v : Verdict) : Except TextError String :=
  if v.error then do
    let kind ← v.kind.text depth
    let message ← v.message.text depth
    return "SQLValidation(error_type=" ++ kind ++ ", message='" ++ message ++ "', position=" ++
      Nat.repr v.position ++ ")"
  else .ok "SQLValidation(valid)"

/-- The verdict on a query without error. -/
def valid : Verdict := ⟨false, .null, .null, 0⟩

/-- The verdict when the check itself failed. -/
def failed (message : String) : Verdict := ⟨true, .str checkFailed, .str message, 0⟩

/-! ### Positions -/

/-- Why there is no verdict. -/
inductive Error where
  /-- The report is no object. -/
  | notObject
  /-- The report is no text. -/
  | notText
  /-- The position is infinite. -/
  | overflow
  /-- The query has no length. -/
  | notQuery
  /-- The report passes a limit of the reader. -/
  | unreadable (e : Json.Error)
  /-- A part of the report that has no text. -/
  | noText (e : TextError)
  deriving Repr, DecidableEq

/-- The whole number a value stands for; what stands for none is zero. -/
def readPosition : Value → Except Error Int
  | .int n => .ok n
  | .bool b => .ok (if b then 1 else 0)
  | .real (.finite b) => .ok b.truncate
  | .real (.infinite _) => .error .overflow
  | .str s => .ok ((Text.readInt s.toList).toOption.getD 0)
  | _ => .ok 0

/-! ### Reports -/

/-- The first of two values that counts as present, or a last resort. -/
def firstPresent (a b : Option Value) (last : Value) : Value :=
  match a.filter Value.truthy, b.filter Value.truthy with
  | some v, _ => v
  | none, some v => v
  | none, none => last

/-- The verdict that the entries of a report give on a query of some length. -/
def ofReport (entries : List (Scalar × Value)) (length : Nat) : Except Error Verdict :=
  if ((Value.lookup "error" entries).getD (.bool false)).truthy then do
    let position ← readPosition ((Value.lookup "position" entries).getD (.int 0))
    return {
      error := true
      kind := firstPresent (Value.lookup "error_subtype" entries)
        (Value.lookup "error_type" entries) (.str unknownKind)
      message := (Value.lookup "error_message" entries).getD (.str "Unknown SQL error")
      position := min position.toNat length }
  else .ok valid

end Verdict

end EmbeddedSql
