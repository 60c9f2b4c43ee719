/-
**Tokens of SQL text.**

The lexer never fails.  At every character it either recognises a lexeme, whose characters are then
passed over, or it passes over the one character.

* `Token` — a token with its kind, text and offset;
* `Token.lexeme?` — kind and length of the lexeme a text starts with;
* `Token.lex` — the tokens of a text.
-/

import EmbeddedSql.Text.Basic
import EmbeddedSql.Text.Upper

set_option relaxedAutoImplicit false
set_option autoImplicit false

namespace EmbeddedSql

/-- Kinds of tokens. -/
inductive TokenKind where
  | keyword
  | function
  | string
  | number
  | operator
  | comment
  | identifier
  deriving Repr, DecidableEq

/-- The word for a kind. -/
def TokenKind.name : TokenKind → String
  | .keyword => "keyword"
  | .function => "function"
  | .string => "string"
  | .number => "number"
  | .operator => "operator"
  | .comment => "comment"
  | .identifier => "identifier"

/-- A token and where it starts. -/
structure Token where
  kind : TokenKind
  text : Text
  offset : Nat
  deriving Repr, DecidableEq

namespace Token

/-- The offset after the last character. -/
def stop (t : Token) : Nat :=
  t.offset + t.text.length

/-! ### Lexemes -/

/-- How many characters of a string literal follow its opening quote, the closing quote included.
A doubled quote belongs to the content; without a closing quote the literal takes the whole
text. -/
def stringTail (quote : Char) : Text → Nat
  | [] => 0
  | [_] => 1
  | c :: d :: rest =>
    if c = quote then
      if d = quote then stringTail quote rest + 2 else 1
    else stringTail quote (d :: rest) + 1

/-- The length of a number: digits, and one dot with digits after it. -/
def numberLength (t : Text) : Nat :=
  let whole := (t.takeWhile Text.isDigit).length
  match t.drop whole with
  | '.' :: rest =>
    let fraction := (rest.takeWhile Text.isDigit).length
    if fraction = 0 then whole else whole + 1 + fraction
  | _ => whole

/-- Operators of two characters. -/
def twoCharOperators : List Text := [['<', '='], ['>', '='], ['<', '>'], ['!', '='], ['|', '|']]

/-- Operators of one character. -/
def oneCharOperators : List Char := ['=', '<', '>', '+', '-', '*', '/', '%']

/-- What a word is: a keyword, a function when a parenthesis follows, or an identifier. -/
def wordKind (keywords : List String) (word rest : Text) : TokenKind :=
  if String.ofList (Text.upper word) ∈ keywords then .keyword
  else
    match Text.trimLeft rest with
    | '(' :: _ => .function
    | _ => .identifier

/-- Kind and length of the lexeme that starts with the first character, if one does. -/
def lexeme? (keywords : List String) : Text → Option (TokenKind × Nat)
  | [] => none
  | c :: rest =>
    if Text.isBlank c then none
    else if ['-', '-'].isPrefixOf (c :: rest) then
      some (.comment, ((c :: rest).takeWhile (· ≠ '\n')).length)
    else if c = '\'' || c = '"' then some (.string, stringTail c rest + 1)
    else if Text.isDigit c then some (.number, numberLength (c :: rest))
    else if Text.isLetter c || c = '_' then
      let word := (c :: rest).takeWhile Text.isWord
      some (wordKind keywords word ((c :: rest).drop word.length), word.length)
    else if twoCharOperators.any (·.isPrefixOf (c :: rest)) then some (.operator, 2)
    else if c ∈ oneCharOperators then some (.operator, 1)
    else none

/-! ### The lexer -/

/-- The tokens of the characters from offset `i` on, after `skip` characters that belong to the
lexeme before. -/
def lexFrom (keywords : List String) : (skip i : Nat) → Text → List Token
  | _, _, [] => []
  | skip + 1, i, _ :: rest => lexFrom keywords skip (i + 1) rest
  | 0, i, c :: rest =>
    match lexeme? keywords (c :: rest) with
    | some (kind, n) => ⟨kind, (c :: rest).take n, i⟩ :: lexFrom keywords (n - 1) (i + 1) rest
    | none => lexFrom keywords 0 (i + 1) rest

/-- The tokens of a SQL text.  Words whose upper case is one of `keywords` are keywords. -/
def lex (keywords : List String) (sql : Text) : List Token :=
  lexFrom keywords 0 0 sql

end Token

end EmbeddedSql
