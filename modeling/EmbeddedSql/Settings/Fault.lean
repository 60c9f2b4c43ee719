/-
**Faults of raw settings, and checks that collect them.**

A check of raw data goes on after a fault, so that all faults of all sections are reported at once.

* `FaultKind`, `Fault` — what is wrong, and under which path;
* `Checked` — the faults found and, without any, the result;
* `Checked.map`, `Checked.ap` — building a record from checked fields.
-/

set_option relaxedAutoImplicit false
set_option autoImplicit false

namespace EmbeddedSql

/-- What is wrong with a raw setting. -/
inductive FaultKind where
  /-- A key that no setting has. -/
  | unknownKey
  /-- A key that is no text. -/
  | notKey
  /-- A section that is not an object. -/
  | notSection
  /-- A whole number was expected. -/
  | notInt
  /-- A text that reads as no whole number. -/
  | unreadableInt
  /-- A whole number that is too large to be read. -/
  | oversizedInt
  /-- A number with a fraction where a whole one is expected. -/
  | fraction
  /-- An infinite number or none at all where a whole one is expected. -/
  | notFinite
  /-- A number that must be positive. -/
  | notPositive
  /-- A number that must not be negative. -/
  | negative
  /-- A truth value was expected. -/
  | notBool
  /-- A number or text that reads as no truth value. -/
  | unreadableBool
  /-- A text was expected. -/
  | notString
  /-- None of the words that are allowed. -/
  | notChoice
  /-- A rule between values is broken. -/
  | rule (message : String)
  /-- A value of a kind that holds no names. -/
  | noNames (kind : String)
  /-- A name whose parts stand in each other too deeply. -/
  | tooDeep
  deriving Repr, DecidableEq

/-- The code of a kind in reports. -/
def FaultKind.code : FaultKind → String
  | .unknownKey => "extra_forbidden"
  | .notKey => "invalid_key"
  | .notSection => "model_type"
  | .notInt => "int_type"
  | .unreadableInt => "int_parsing"
  | .oversizedInt => "int_parsing_size"
  | .fraction => "int_from_float"
  | .notFinite => "finite_number"
  | .notPositive => "greater_than"
  | .negative => "greater_than_equal"
  | .notBool => "bool_type"
  | .unreadableBool => "bool_parsing"
  | .notString => "string_type"
  | .notChoice => "literal_error"
  | .rule _ => "value_error"
  | .noNames _ => "no_names"
  | .tooDeep => "too_deep"

/-- A fault and the keys that lead to it. -/
structure Fault where
  path : List String
  kind : FaultKind
  deriving Repr, DecidableEq

/-- Order of faults in reports: by path, then by code. -/
def Fault.le (a b : Fault) : Bool :=
  if a.path = b.path then a.kind.code ≤ b.kind.code else a.path < b.path

/-- The outcome of a check: faults, or a result. -/
structure Checked (α : Type) where
  faults : List Fault
  result : Option α
  deriving Repr

namespace Checked

variable {α β : Type}

/-- A value without fault. -/
def ok (a : α) : Checked α := ⟨[], some a⟩

/-- A single fault. -/
def fail (path : List String) (kind : FaultKind) : Checked α := ⟨[⟨path, kind⟩], none⟩

/-- Changes the result. -/
def map (f : α → β) (c : Checked α) : Checked β := ⟨c.faults, c.result.map f⟩

/-- Combines two checks: all faults of both. -/
def ap (f : Checked (α → β)) (c : Checked α) : Checked β :=
  ⟨f.faults ++ c.faults, f.result.bind fun g => c.result.map g⟩

/-- Adds faults found elsewhere; with any of them there is no result. -/
def withFaults (faults : List Fault) (c : Checked α) : Checked α :=
  ⟨c.faults ++ faults, if faults.isEmpty then c.result else none⟩

/-- A further check of a result. -/
def andThen (c : Checked α) (f : α → Checked β) : Checked β :=
  match c.result with
  | some a => (f a).withFaults c.faults
  | none => ⟨c.faults, none⟩

/-- The result, or all faults in order. -/
def toExcept (c : Checked α) : Except (List Fault) α :=
  match c.faults, c.result with
  | [], some a => .ok a
  | faults, _ => .error (faults.mergeSort Fault.le)

end Checked

end EmbeddedSql
