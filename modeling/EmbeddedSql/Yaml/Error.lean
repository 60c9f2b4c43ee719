/-
**Why a settings file has no value.**

Most files without a value are malformed.  A few are well formed but hold a scalar that its tag does
not admit.

* `Yaml.Error` — the reasons;
* `Yaml.Error.kind`, `Yaml.Error.message` — the word for a reason, and its wording.
-/

import EmbeddedSql.Text.Numeral
import EmbeddedSql.Value.Moment

set_option relaxedAutoImplicit false
set_option autoImplicit false

namespace EmbeddedSql.Yaml

/-- Why a file has no value. -/
inductive Error where
  /-- The file breaks a rule of the format. -/
  | malformed
  /-- Collections stand in each other more often than can be read. -/
  | tooDeep
  /-- The code of a character that does not exist. -/
  | noCharacter (code : Nat)
  /-- A whole number that cannot be read. -/
  | numeral (e : Text.Numeral.Error)
  /-- A text that is tagged as a number with a fraction. -/
  | noReal (text : Text)
  /-- A moment that does not exist. -/
  | moment (e : Moment.Error)
  /-- A text that is tagged as a truth value. -/
  | noBool (text : Text)
  /-- An empty text that is tagged as a number. -/
  | noNumber
  /-- A text that is tagged as a moment. -/
  | noMoment
  deriving Repr, DecidableEq

/-- The word for the kind of an error. -/
def Error.kind : Error → String
  | .malformed => "ConfigError"
  | .tooDeep => "RecursionError"
  | .noCharacter code => if code < Nat.pow 2 31 then "ValueError" else "OverflowError"
  | .numeral _ => "ValueError"
  | .noReal _ => "ValueError"
  | .moment _ => "ValueError"
  | .noBool _ => "KeyError"
  | .noNumber => "IndexError"
  | .noMoment => "AttributeError"

/-- The wording of an error. -/
def Error.message : Error → String
  | .malformed => "malformed"
  | .tooDeep => "maximum recursion depth exceeded"
  | .noCharacter code =>
    if code < Nat.pow 2 31 then "chr() arg not in range(0x110000)"
    else "Python int too large to convert to C int"
  | .numeral e => e.message
  | .noReal text => "could not convert string to float: " ++ String.ofList (Text.quoted text)
  | .moment e => e.message
  | .noBool text => String.ofList (Text.quoted text)
  | .noNumber => "string index out of range"
  | .noMoment => "'NoneType' object has no attribute 'groupdict'"

end EmbeddedSql.Yaml
