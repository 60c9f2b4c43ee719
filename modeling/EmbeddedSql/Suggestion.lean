/-
**Suggestions for completion.**

* `Suggestion` — a word that may be inserted at the cursor;
* `Suggestion.ofPhrase`, `Suggestion.ofFunction` — suggestions from the vocabulary;
* `Suggestion.ofCell?` — a suggestion from a cell of a database row;
* `Suggestion.fixed` — all suggestions from the vocabulary;
* `Suggestion.rank` — suggestions of the database with the fixed ones they do not shadow.
-/

import EmbeddedSql.Text.Upper
import EmbeddedSql.Value.Basic
import EmbeddedSql.Vocabulary

set_option relaxedAutoImplicit false
set_option autoImplicit false

namespace EmbeddedSql

/-- What a suggestion stands for. -/
inductive SuggestionKind where
  | keyword
  | function
  deriving Repr, DecidableEq

/-- The number of a kind in messages to the client. -/
def SuggestionKind.number : SuggestionKind → Nat
  | .keyword => 14
  | .function => 3

/-- A word that may be inserted at the cursor. -/
structure Suggestion where
  label : String
  kind : SuggestionKind
  detail : String
  /-- Clients sort by this text. -/
  sortKey : String
  /-- What is inserted when it is not the label; `$0` marks the place of the cursor. -/
  snippet : Option String := none
  deriving Repr, DecidableEq

namespace Suggestion

/-- A phrase of the vocabulary. -/
def ofPhrase (phrase : String) : Suggestion :=
  { label := phrase, kind := .keyword, detail := "SQL keyword", sortKey := "1_" ++ phrase }

/-- A function of the vocabulary, inserted as a call. -/
def ofFunction (name : String) : Suggestion :=
  { label := name, kind := .function, detail := "DuckDB function", sortKey := "2_" ++ name
    snippet := some (name ++ "($0)") }

/-- A word that the database suggests. -/
def ofWord (word : String) : Suggestion :=
  { label := word, kind := .keyword, detail := "DuckDB suggestion", sortKey := "0_" ++ word }

/-- A suggestion of the database.  Cells without a visible text suggest nothing, and a cell that has
no text at all is an error.  `depth` bounds how deep a cell may be nested. -/
def ofCell? (depth : Nat) : Value → Except TextError (Option Suggestion)
  | .null => .ok none
  | cell => do
    let word ← cell.text depth
    return if Text.isAllBlank word.toList then none else some (ofWord word)

/-- The suggestions in the first column of some rows. -/
def ofRows (depth : Nat) : List (List Value) → Except TextError (List Suggestion)
  | [] => .ok []
  | [] :: rows => ofRows depth rows
  | (cell :: _) :: rows => do
    let found ← ofCell? depth cell
    return found.toList ++ (← ofRows depth rows)

/-- The suggestions that need no database, phrases first. -/
def fixed : List Suggestion :=
  Vocabulary.phrases.map ofPhrase ++ Vocabulary.functions.map ofFunction

/-- The label in upper case, by which a suggestion shadows another one. -/
def name (s : Suggestion) : Text :=
  Text.upper s.label.toList

/-- The given suggestions, then the fixed ones whose name is not among theirs. -/
def rank (found : List Suggestion) : List Suggestion :=
  let seen := found.map name
  found ++ fixed.filter fun s => !seen.contains s.name

end Suggestion

end EmbeddedSql
