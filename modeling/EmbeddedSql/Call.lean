/-
**Calls of the configured functions.**

* `Call.occurrences` — where a function name stands as a whole name;
* `Call` — a call with its opening parenthesis and the offset where it ends;
* `Call.at?` — the call whose name ends at an offset;
* `Call.namedArgument?` — the name a literal is bound to when `name =` stands before it;
* `Call.acceptsArgument` — whether a literal with such a name is query text.
-/

import EmbeddedSql.Bracket
import EmbeddedSql.Settings.Basic

set_option relaxedAutoImplicit false
set_option autoImplicit false

namespace EmbeddedSql

/-- A call of a configured function. -/
structure Call where
  function : String
  /-- Offset of the opening parenthesis. -/
  opening : Nat
  /-- Offset of the closing parenthesis, or where the search for it ended. -/
  stop : Nat
  deriving Repr, DecidableEq

namespace Call

/-! ### Names -/

/-- Whether a name may start after this character. -/
def startsAfter : Option Char → Bool
  | none => true
  | some c => !(Text.isNameChar c || c == ':')

/-- Whether a name may end before this text. -/
def endsBefore : Text → Bool
  | [] => true
  | c :: _ => !Text.isNameChar c

/-- The offsets at which `name` stands as a whole name, among the characters from offset `i` on.
`before` is the character before them, and the next `skip` ones belong to the last occurrence. -/
def occurrencesFrom (name : Text) : (before : Option Char) → (skip i : Nat) → Text → List Nat
  | before, skip, i, [] =>
    if skip = 0 && name.isEmpty && startsAfter before then [i] else []
  | before, skip, i, c :: rest =>
    if skip = 0 && startsAfter before && name.isPrefixOf (c :: rest) &&
        endsBefore ((c :: rest).drop name.length) then
      i :: occurrencesFrom name (some c) (name.length - 1) (i + 1) rest
    else occurrencesFrom name (some c) (skip - 1) (i + 1) rest

/-- The offsets at which `name` stands as a whole name between two offsets of a text.  The
character before the first offset counts as context, the one at the second does not. -/
def occurrences (name : String) (text : Text) (lo hi : Nat) : List Nat :=
  let before := if lo = 0 then none else text[lo - 1]?
  occurrencesFrom name.toList before 0 lo (text.slice lo hi)

/-! ### The extent of a call -/

/-- Where the call with an opening parenthesis ends: at the closing one, or as far as the search
for it reaches. -/
def stopOf (d : Detection) (text : Text) (opening : Nat) : Nat :=
  (Bracket.matchingClose? d.marks text opening d.limits.callLength).getD
    (min text.length (opening + 1 + d.limits.callLength))

/-- The opening parenthesis of the call of a function whose name starts at an offset. -/
def openingAt? (d : Detection) (text : Text) (function : String) (start : Nat) : Option Nat :=
  Bracket.callOpen? text (start + function.length) d.limits.parenSearch

/-- The call of a function whose name starts at an offset. -/
def at? (d : Detection) (text : Text) (function : String) (start : Nat) : Option Call :=
  (openingAt? d text function start).map fun opening =>
    ⟨function, opening, stopOf d text opening⟩

/-! ### Arguments -/

/-- The name before an equals sign, in a text that is given last character first.  Digits and
underscores cannot start a name, so they are cut off. -/
def nameBeforeEquals? (reversed : Text) : Option Text :=
  match Text.trimLeft reversed with
  | '=' :: rest =>
    let name := (((Text.trimLeft rest).takeWhile Text.isNameChar).reverse).dropWhile
      (!Text.isNameStart ·)
    if name.isEmpty then none else some name
  | _ => none

/-- The name that a literal with the given opening quote is bound to.  Only `budget` characters
before the quote are looked at. -/
def namedArgument? (text : Text) (quote budget : Nat) : Option Text :=
  nameBeforeEquals? (text.slice (quote - budget) quote).reverse

/-- Whether a literal is query text of a function, given the name it is bound to.  Positional
literals always are.  Named ones never are in interpolating calls, and in other calls only under
the configured names. -/
def acceptsArgument (d : Detection) (function : String) : Option Text → Bool
  | none => true
  | some argument =>
    !d.isInterpolating function && d.statementParameters.contains (String.ofList argument)

end Call

end EmbeddedSql
