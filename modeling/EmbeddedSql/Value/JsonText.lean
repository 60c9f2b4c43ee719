/-
**Writing JSON.**

Only printable ASCII is written as it is; every other character becomes an escape by its UTF-16
units.

* `Json.render` — a value on one line;
* `Json.pretty` — a value over several lines, two blanks per level.
-/

import EmbeddedSql.Value.Basic

set_option relaxedAutoImplicit false
set_option autoImplicit false

namespace EmbeddedSql.Json

/-- One UTF-16 unit as an escape. -/
def unitEscape (n : Nat) : Text :=
  ['\\', 'u'] ++ Text.hex 4 n

/-- One character of a string. -/
def renderChar (c : Char) : Text :=
  if c = '"' || c = '\\' then ['\\', c]
  else if c = '\n' then ['\\', 'n']
  else if c = '\r' then ['\\', 'r']
  else if c = '\t' then ['\\', 't']
  else if c = '\x08' then ['\\', 'b']
  else if c = '\x0c' then ['\\', 'f']
  else if 0x20 ≤ c.toNat && c.toNat < 0x7F then [c]
  else if c.toNat < 0x10000 then unitEscape c.toNat
  else
    let n := c.toNat - 0x10000
    unitEscape (0xD800 + n / 0x400) ++ unitEscape (0xDC00 + n % 0x400)

/-- A string between quotes. -/
def renderString (s : String) : String :=
  "\"" ++ String.ofList (s.toList.flatMap renderChar) ++ "\""

/-- Null, truth values, numbers and strings; a moment is its text. -/
def renderScalar : Scalar → String
  | .null => "null"
  | .bool true => "true"
  | .bool false => "false"
  | .int n => Int.repr n
  | .real (.infinite false) => "Infinity"
  | .real (.infinite true) => "-Infinity"
  | .real .undefined => "NaN"
  | .real r => r.text
  | .str s => renderString s
  | .moment m => renderString m.text

/-- The key of an entry. -/
def renderKey : Scalar → String
  | .str s => renderString s
  | s => renderString (renderScalar s)

/-! ### On one line -/

mutual

/-- A value on one line. -/
def render : Value → String
  | .list items => "[" ++ ", ".intercalate (renderItems items) ++ "]"
  | .object entries => "\x7b" ++ ", ".intercalate (renderEntries entries) ++ "\x7d"
  | .scalar s => renderScalar s

/-- The items of a list. -/
def renderItems : List Value → List String
  | [] => []
  | v :: rest => render v :: renderItems rest

/-- The entries of an object. -/
def renderEntries : List (Scalar × Value) → List String
  | [] => []
  | (k, v) :: rest => (renderKey k ++ ": " ++ render v) :: renderEntries rest

end

/-! ### Over several lines -/

/-- The start of a line at a level. -/
def newLine (level : Nat) : String :=
  "\n" ++ String.ofList (List.replicate (2 * level) ' ')

mutual

/-- A value over several lines that starts at the given level. -/
def prettyAt (level : Nat) : Value → String
  | .list [] => "[]"
  | .object [] => "\x7b\x7d"
  | .list items =>
    "[" ++ newLine (level + 1) ++
      ("," ++ newLine (level + 1)).intercalate (prettyItems (level + 1) items) ++
      newLine level ++ "]"
  | .object entries =>
    "\x7b" ++ newLine (level + 1) ++
      ("," ++ newLine (level + 1)).intercalate (prettyEntries (level + 1) entries) ++
      newLine level ++ "\x7d"
  | .scalar s => renderScalar s

/-- The items of a list at the given level. -/
def prettyItems (level : Nat) : List Value → List String
  | [] => []
  | v :: rest => prettyAt level v :: prettyItems level rest

/-- The entries of an object at the given level. -/
def prettyEntries (level : Nat) : List (Scalar × Value) → List String
  | [] => []
  | (k, v) :: rest => (renderKey k ++ ": " ++ prettyAt level v) :: prettyEntries level rest

end

/-- A value over several lines. -/
def pretty (v : Value) : String :=
  prettyAt 0 v

end EmbeddedSql.Json
