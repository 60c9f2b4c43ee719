/-
**Parentheses of R calls.**

* `Bracket.callOpen?` — the opening parenthesis of a call whose name ends at an offset;
* `Bracket.matchingClose?` — the parenthesis that closes the one at an offset; parentheses inside
  strings and comments do not count;
* `Bracket.netDepth` — brackets opened less brackets closed in the code of a stretch of text.

Both searches look at a bounded number of characters.
-/

import EmbeddedSql.Literal

set_option relaxedAutoImplicit false
set_option autoImplicit false

namespace EmbeddedSql.Bracket

/-! ### The opening parenthesis of a call -/

/-- How many blanks stand before an opening parenthesis. -/
def openDistance? : Text → Option Nat
  | [] => none
  | c :: rest =>
    if c = '(' then some 0
    else if Text.isBlank c then (openDistance? rest).map (· + 1)
    else none

/-- The opening parenthesis stands inside the text. -/
theorem openDistance?_lt {t : Text} {n : Nat} (h : openDistance? t = some n) : n < t.length := by
  fun_induction openDistance? t generalizing n with
  | case1 => simp at h
  | case2 =>
    obtain rfl : 0 = n := by simpa using h
    simp
  | case3 c rest _ _ ih =>
    obtain ⟨m, hm, rfl⟩ := Option.map_eq_some_iff.1 h
    simpa using ih hm
  | case4 => simp at h

/-- The opening parenthesis after a name that ends at `nameEnd`.  Only blanks may stand between,
and at most `reach` characters are looked at. -/
def callOpen? (text : Text) (nameEnd reach : Nat) : Option Nat :=
  (openDistance? ((text.drop nameEnd).take reach)).map (nameEnd + ·)

/-! ### The closing parenthesis -/

/-- Whether the search stands in code, in a string or in a comment. -/
inductive Mode where
  | code
  | string (quote : Char)
  | comment
  deriving Repr, DecidableEq

/-- How many characters stand before the closing parenthesis, `depth` inner ones being open. -/
def closeDistance? (m : Marks) : Mode → Nat → Text → Option Nat
  | _, _, [] => none
  | .string q, depth, c :: rest =>
    if c = '\\' then
      match rest with
      | [] => none
      | _ :: rest' => (closeDistance? m (.string q) depth rest').map (· + 2)
    else if c = q then (closeDistance? m .code depth rest).map (· + 1)
    else (closeDistance? m (.string q) depth rest).map (· + 1)
  | .comment, depth, c :: rest =>
    if c = '\n' then (closeDistance? m .code depth rest).map (· + 1)
    else (closeDistance? m .comment depth rest).map (· + 1)
  | .code, depth, c :: rest =>
    if c ∈ m.quotes then (closeDistance? m (.string c) depth rest).map (· + 1)
    else if c = m.comment then (closeDistance? m .comment depth rest).map (· + 1)
    else if c = '(' then (closeDistance? m .code (depth + 1) rest).map (· + 1)
    else if c = ')' then
      match depth with
      | 0 => some 0
      | d + 1 => (closeDistance? m .code d rest).map (· + 1)
    else (closeDistance? m .code depth rest).map (· + 1)

/-- The parenthesis that closes the one at `opening`, among the `reach` characters after it.
There is none if no parenthesis opens there. -/
def matchingClose? (m : Marks) (text : Text) (opening reach : Nat) : Option Nat :=
  match text.drop opening with
  | '(' :: rest => (closeDistance? m .code 0 (rest.take reach)).map (opening + 1 + ·)
  | _ => none

/-! ### Depth -/

/-- What one character adds to the bracket depth. -/
def delta (c : Char) : Int :=
  if c = '(' || c = '[' || c = '{' then 1
  else if c = ')' || c = ']' || c = '}' then -1
  else 0

/-- Brackets opened less brackets closed in the characters from offset `i` on, those inside the
given literals left out.  The literals are in order and start at `i` or later. -/
def netDepth : List Literal → Nat → Text → Int
  | _, _, [] => 0
  | [], i, c :: rest => delta c + netDepth [] (i + 1) rest
  | l :: ls, i, c :: rest =>
    if i < l.start then delta c + netDepth (l :: ls) (i + 1) rest
    else if i < l.stop then netDepth (l :: ls) (i + 1) rest
    else netDepth ls (i + 1) rest

end EmbeddedSql.Bracket
