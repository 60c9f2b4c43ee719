/-
**String literals and comments of R source.**

One forward pass tells code, quoted strings and line comments apart.  A quote inside a comment
opens no string, a comment mark inside a string starts no comment, and a backslash inside a string
hides the character after it.

* `Marks` — the quote characters and the comment character;
* `Literal` — a string or comment with its first and last offset;
* `Literal.scan` — the literals of a window of a text, in order;
* `Literal.closingQuote?` — where a string whose content starts at a given offset ends;
* `Literal.containing?` — the literal that covers an offset.
-/

import EmbeddedSql.Text.Basic

set_option relaxedAutoImplicit false
set_option autoImplicit false

namespace EmbeddedSql

/-- How strings and comments are marked. -/
structure Marks where
  /-- Characters that open and close a string. -/
  quotes : List Char
  /-- Character that starts a comment running to the end of the line. -/
  comment : Char
  deriving Repr, DecidableEq

/-- The marks of R: three quote characters and the hash. -/
def Marks.r : Marks := ⟨['"', '\'', '\x60'], '#'⟩

/-- What a literal is. -/
inductive LiteralKind where
  | string
  | comment
  deriving Repr, DecidableEq

/-- A string literal or line comment.  `start` is the offset of its mark.  A closed one stops at
its closing quote or newline, an unclosed one where the scan stopped. -/
structure Literal where
  kind : LiteralKind
  start : Nat
  stop : Nat
  mark : Char
  closed : Bool
  deriving Repr, DecidableEq

namespace Literal

/-! ### The pass -/

/-- Where the pass stands: in code, or inside a literal opened at an offset. -/
inductive Mode where
  | code
  | string (quote : Char) (start : Nat)
  | comment (mark : Char) (start : Nat)
  deriving Repr, DecidableEq

/-- The pass over the characters from offset `i` on.  A comment mark that is itself a newline is a
whole comment. -/
def scanFrom (m : Marks) : Mode → Nat → Text → List Literal
  | .code, _, [] => []
  | .string q s, i, [] => [⟨.string, s, i, q, false⟩]
  | .comment k s, i, [] => [⟨.comment, s, i, k, false⟩]
  | .code, i, c :: rest =>
    if c ∈ m.quotes then scanFrom m (.string c i) (i + 1) rest
    else if c = m.comment then
      if c = '\n' then ⟨.comment, i, i, c, true⟩ :: scanFrom m .code (i + 1) rest
      else scanFrom m (.comment c i) (i + 1) rest
    else scanFrom m .code (i + 1) rest
  | .string q s, i, c :: rest =>
    if c = '\\' then
      match rest with
      | [] => [⟨.string, s, i + 1, q, false⟩]
      | _ :: rest' => scanFrom m (.string q s) (i + 2) rest'
    else if c = q then ⟨.string, s, i, q, true⟩ :: scanFrom m .code (i + 1) rest
    else scanFrom m (.string q s) (i + 1) rest
  | .comment k s, i, c :: rest =>
    if c = '\n' then ⟨.comment, s, i, k, true⟩ :: scanFrom m .code (i + 1) rest
    else scanFrom m (.comment k s) (i + 1) rest

/-- The literals of the text between offsets `start` and `stop`, where `start` is taken to be in
code. -/
def scan (m : Marks) (text : Text) (start stop : Nat) : List Literal :=
  scanFrom m .code start (text.slice start stop)

/-- The literals of a whole text. -/
def scanAll (m : Marks) (text : Text) : List Literal :=
  scan m text 0 text.length

/-! ### Closing quotes -/

/-- How many characters stand before the closing quote. -/
def closingDistance? (quote : Char) : Text → Option Nat
  | [] => none
  | c :: rest =>
    if c = '\\' then
      match rest with
      | [] => none
      | _ :: rest' => (closingDistance? quote rest').map (· + 2)
    else if c = quote then some 0
    else (closingDistance? quote rest).map (· + 1)

/-- The closing quote stands inside the text. -/
theorem closingDistance?_lt {quote : Char} {t : Text} {n : Nat}
    (h : closingDistance? quote t = some n) : n < t.length := by
  fun_induction closingDistance? quote t generalizing n with
  | case1 => simp at h
  | case2 => simp at h
  | case3 _ rest ih =>
    obtain ⟨m, hm, rfl⟩ := Option.map_eq_some_iff.1 h
    simpa using ih hm
  | case4 =>
    obtain rfl : 0 = n := by simpa using h
    simp
  | case5 c rest _ _ ih =>
    obtain ⟨m, hm, rfl⟩ := Option.map_eq_some_iff.1 h
    simpa using ih hm

/-- The offset of the quote that closes a string whose content starts at `start`, if it stands
before `limit`. -/
def closingQuote? (text : Text) (start : Nat) (quote : Char) (limit : Nat) : Option Nat :=
  (closingDistance? quote (text.slice start limit)).map (start + ·)

/-! ### Looking up an offset -/

/-- The literal that covers an offset, ends included.  Only the last literal that starts at or
before the offset can, because literals are ordered and disjoint. -/
def containing? (literals : List Literal) (offset : Nat) : Option Literal :=
  (literals.takeWhile (·.start ≤ offset)).getLast?.filter (offset ≤ ·.stop)

end Literal

end EmbeddedSql
