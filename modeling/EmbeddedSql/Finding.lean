/-
**Checks of a query that need no database.**

* `Severity` — how grave a finding is;
* `Finding` — a message with its severity;
* `Finding.isSelectExpression` — whether a text ends in a `SELECT` of plain expressions, which needs
  no `FROM`;
* `Finding.check` — the findings of a query, in a fixed order.
-/

import EmbeddedSql.Text.Basic
import EmbeddedSql.Text.Upper

set_option relaxedAutoImplicit false
set_option autoImplicit false

namespace EmbeddedSql

/-- How grave something is. -/
inductive Severity where
  | error
  | warning
  | information
  | hint
  deriving Repr, DecidableEq

/-- The number of a severity in messages to the client. -/
def Severity.number : Severity → Nat
  | .error => 1
  | .warning => 2
  | .information => 3
  | .hint => 4

/-- A problem of a whole query. -/
structure Finding where
  message : String
  severity : Severity
  deriving Repr, DecidableEq

namespace Finding

/-! ### Select expressions -/

/-- Whether two characters are the same letter, given the first in upper case.  The long s is an
`S`. -/
def sameLetter (upper c : Char) : Bool :=
  c.toUpper == upper || (upper == 'S' && c == 'ſ')

/-- What follows a word at the start of a text, the case of letters left aside. -/
def afterWord? : (word : Text) → Text → Option Text
  | [], t => some t
  | w :: ws, c :: rest => if sameLetter w c then afterWord? ws rest else none
  | _ :: _, [] => none

/-- Characters of plain expressions. -/
def isExpressionChar (c : Char) : Bool :=
  Text.isWord c || Text.isBlank c || ['(', ')', '\'', '"', ','].contains c

/-- Whether a blank and then nothing but plain expressions follow. -/
def isExpressionTail : Text → Bool
  | c :: d :: rest => Text.isBlank c && (d :: rest).all isExpressionChar
  | _ => false

/-- Whether a `SELECT` of plain expressions ends the text. -/
def endsInSelect : Text → Bool
  | [] => false
  | c :: rest =>
    (afterWord? "SELECT".toList (c :: rest)).any isExpressionTail || endsInSelect rest

/-- Whether a query ends in a `SELECT` of plain expressions. -/
def isSelectExpression (query : Text) : Bool :=
  endsInSelect query.trim

/-! ### Suspicious phrases -/

/-- Whether a text does not start with a character of a word. -/
def atWordEnd : Text → Bool
  | [] => true
  | c :: _ => !Text.isWord c

/-- Whether a text starts with a word, blanks, and one of some followers that ends there. -/
def startsPhrase (word : Text) (followers : List Text) (t : Text) : Bool :=
  word.isPrefixOf t &&
    match t.drop word.length with
    | c :: rest =>
      Text.isBlank c && followers.any fun f =>
        let body := Text.trimLeft rest
        f.isPrefixOf body && atWordEnd (body.drop f.length)
    | [] => false

/-- Whether such a phrase stands somewhere, its first word not being the end of a longer one.
`inWord` tells whether the character before belongs to a word. -/
def hasPhrase (word : Text) (followers : List Text) : (inWord : Bool) → Text → Bool
  | _, [] => false
  | inWord, c :: rest =>
    (!inWord && startsPhrase word followers (c :: rest)) ||
      hasPhrase word followers (Text.isWord c) rest

/-! ### The checks -/

/-- A `SELECT` without `FROM` that is no plain expression. -/
def checkFrom (upper : Text) : List Finding :=
  if Text.occurs "SELECT".toList upper && !Text.occurs "FROM".toList upper &&
      !isSelectExpression upper then
    [⟨"SELECT statement is missing FROM clause", .warning⟩]
  else []

/-- Parentheses that do not match in number. -/
def checkParentheses (upper : Text) : List Finding :=
  let opening := upper.count '('
  let closing := upper.count ')'
  if opening = closing then []
  else
    [⟨"Unmatched parentheses: " ++ Nat.repr opening ++ " opening, " ++ Nat.repr closing ++
      " closing", .error⟩]

/-- Phrases that are usually mistakes. -/
def checkPhrases (upper : Text) : List Finding :=
  (if hasPhrase "SELECT".toList ["FROM".toList] false upper then
    [⟨"Missing column list after SELECT", .warning⟩] else []) ++
  (if hasPhrase "WHERE".toList ["GROUP BY".toList, "ORDER BY".toList, "LIMIT".toList] false upper
    then [⟨"WHERE clause appears to be incomplete", .warning⟩] else [])

/-- The findings of a query. -/
def check (query : Text) : List Finding :=
  let upper := Text.upper query
  checkFrom upper ++ checkParentheses upper ++ checkPhrases upper

end Finding

end EmbeddedSql
