/-
**The signs and scalars of a settings file.**

A file is cut into tokens from front to end.  What a token is depends on the indentation of the
blocks around it, on the flow collections around it, and on whether a key may stand there.  That
something was a key is only known at its colon, so the sign for a key is put in front of it then.

* `Yaml.Token` — a sign or a scalar;
* `Yaml.PossibleKey` — a place that turns out to be a key when a colon follows on the same line;
* `Yaml.Scan` — what has been read, and what it says about what follows;
* `Yaml.Scan.fetch` — the next token;
* `Yaml.tokens` — the tokens of a file.
-/

import EmbeddedSql.Yaml.Block
import EmbeddedSql.Yaml.Name
import EmbeddedSql.Yaml.Plain
import EmbeddedSql.Yaml.Quoted

set_option relaxedAutoImplicit false
set_option autoImplicit false

namespace EmbeddedSql.Yaml

/-- A sign or a scalar. -/
inductive Token where
  | directive (d : Directive)
  | documentStart
  | documentEnd
  /-- A block sequence or mapping begins, and one of them ends. -/
  | blockSequence
  | blockMapping
  | blockEnd
  /-- The brackets of flow collections. -/
  | sequenceOpen
  | sequenceClose
  | mappingOpen
  | mappingClose
  /-- A dash before an item of a block sequence. -/
  | item
  /-- A comma in a flow collection. -/
  | comma
  /-- A key follows, and the value of a key follows. -/
  | key
  | value
  | reference (name : Text)
  | anchor (name : Text)
  | tag (name : TagName)
  /-- A scalar, and whether it was written without quotes or indicator. -/
  | scalar (text : Text) (plain : Bool)
  deriving Repr, DecidableEq

/-- A place that is a key if a colon follows on the same line. -/
structure PossibleKey where
  /-- How many tokens stand before it. -/
  number : Nat
  /-- Whether nothing but a key may stand there. -/
  required : Bool
  index : Nat
  line : Nat
  column : Nat
  deriving Repr, DecidableEq

/-- How many characters a key may have. -/
def maxKeyLength : Nat := 1024

/-- What has been read of a file. -/
structure Scan where
  place : Place
  /-- The tokens so far, last one first, and their number. -/
  tokens : List Token := []
  count : Nat := 0
  /-- One more than the column of the innermost open block; zero without any. -/
  floor : Nat := 0
  /-- The same for the blocks around it, innermost first. -/
  outer : List Nat := []
  /-- The possible key of every open flow collection, innermost first, and last that of the block
  around them. -/
  keys : List (Option PossibleKey) := [none]
  /-- Whether a key may follow. -/
  keyAllowed : Bool := true
  deriving Repr, DecidableEq

namespace Scan

/-- Whether a flow collection is open. -/
def inFlow (s : Scan) : Bool :=
  1 < s.keys.length

/-- Adds a token. -/
def push (t : Token) (s : Scan) : Scan :=
  { s with tokens := t :: s.tokens, count := s.count + 1 }

/-- Adds a token that takes some characters. -/
def take (t : Token) (n : Nat) (s : Scan) : Scan :=
  { s.push t with place := s.place.advance n }

/-- Whether a key may follow from now on. -/
def allowKey (allowed : Bool) (s : Scan) : Scan :=
  { s with keyAllowed := allowed }

/-! ### Blocks -/

/-- Closes blocks while the innermost one starts at or behind the column `limit`; `outer` are the
blocks around it. -/
def unwindFrom (limit : Nat) : (outer : List Nat) → Scan → Scan
  | [], s => s
  | f :: fs, s =>
    if limit < s.floor then unwindFrom limit fs { s.push .blockEnd with floor := f, outer := fs }
    else s

/-- Closes the blocks that a token in a column does not belong to.  In a flow collection the
indentation means nothing. -/
def unwind (limit : Nat) (s : Scan) : Scan :=
  if s.inFlow then s else unwindFrom limit s.outer s

/-- Opens a block in a column if it is indented more than the one around it, and says whether it
did. -/
def openBlock (column : Nat) (s : Scan) : Bool × Scan :=
  if s.floor < column + 1 then
    (true, { s with floor := column + 1, outer := s.floor :: s.outer })
  else (false, s)

/-- Opens a block at the current place with the given token, if it is indented enough. -/
def openHere (t : Token) (s : Scan) : Scan :=
  match s.openBlock s.place.column with
  | (true, s) => s.push t
  | (false, s) => s

/-! ### Possible keys -/

/-- Forgets the possible key of the innermost collection; one that must be a key is an error. -/
def forgetKey (s : Scan) : Except Error Scan :=
  match s.keys with
  | some k :: rest => if k.required then .error .malformed else .ok { s with keys := none :: rest }
  | _ => .ok s

/-- Whether a possible key can still become one. -/
def stillPossible (p : Place) (k : PossibleKey) : Bool :=
  k.line = p.line && p.index - k.index ≤ maxKeyLength

/-- Forgets the keys that a line end or too many characters have come after. -/
def dropStale (s : Scan) : Except Error Scan :=
  let isStale (k : Option PossibleKey) : Bool := k.any fun k => !stillPossible s.place k
  if s.keys.any fun k => isStale k && k.any PossibleKey.required then .error .malformed
  else .ok { s with keys := s.keys.map fun k => if isStale k then none else k }

/-- Notes that a key may start at the current place. -/
def noteKey (s : Scan) : Except Error Scan :=
  if !s.keyAllowed then .ok s
  else do
    let s ← s.forgetKey
    let required := !s.inFlow && s.floor == s.place.column + 1
    let key : PossibleKey :=
      ⟨s.count, required, s.place.index, s.place.line, s.place.column⟩
    return { s with keys := some key :: s.keys.tail }

/-- Puts the sign for a key in front of the possible key, and before it the start of a block mapping
if the key opens one. -/
def insertKey (k : PossibleKey) (s : Scan) : Scan :=
  let (opened, s) := if s.inFlow then (false, s) else s.openBlock k.column
  let signs := if opened then [.key, .blockMapping] else [.key]
  let after := s.count - k.number
  { s with
    tokens := s.tokens.take after ++ signs ++ s.tokens.drop after
    count := s.count + signs.length
    keys := none :: s.keys.tail }

/-! ### Tokens -/

/-- How many blanks, comments and line ends stand in front, and whether there are line ends. -/
def gapLength : (comment : Bool) → Text → Nat × Bool
  | _, [] => (0, false)
  | comment, c :: rest =>
    if isBreak c then ((gapLength false rest).1 + 1, true)
    else if comment || c = ' ' || c = '#' then
      let (n, crossed) := gapLength (comment || c = '#') rest
      (n + 1, crossed)
    else (0, false)

/-- Passes over blanks, comments and line ends.  In a block a key may follow a line end. -/
def skipGap (s : Scan) : Scan :=
  let (n, crossed) := gapLength false s.place.rest
  { s with
    place := s.place.advance n
    keyAllowed := s.keyAllowed || (crossed && !s.inFlow) }

/-- A mark between documents. -/
def separator (t : Token) (s : Scan) : Except Error Scan := do
  return ((← (s.unwind 0).forgetKey).allowKey false).take t 3

/-- A directive. -/
def fetchDirective (s : Scan) : Except Error Scan := do
  let s ← (s.unwind 0).forgetKey
  let (d, p) ← directive s.place
  return { (s.allowKey false).push (.directive d) with place := p }

/-- The opening bracket of a flow collection, which may itself be a key. -/
def openFlow (t : Token) (s : Scan) : Except Error Scan := do
  let s ← s.noteKey
  return ({ s with keys := none :: s.keys }.allowKey true).take t 1

/-- The closing bracket of a flow collection. -/
def closeFlow (t : Token) (s : Scan) : Except Error Scan := do
  if !s.inFlow then throw .malformed
  let s ← s.forgetKey
  return ({ s with keys := s.keys.tail }.allowKey false).take t 1

/-- A comma. -/
def fetchComma (s : Scan) : Except Error Scan := do
  return (← (s.allowKey true).forgetKey).take .comma 1

/-- The dash before an item. -/
def fetchItem (s : Scan) : Except Error Scan := do
  if !s.inFlow && !s.keyAllowed then throw .malformed
  let s := if s.inFlow then s else s.openHere .blockSequence
  return (← (s.allowKey true).forgetKey).take .item 1

/-- The question mark before a key. -/
def fetchKey (s : Scan) : Except Error Scan := do
  if !s.inFlow && !s.keyAllowed then throw .malformed
  let s := if s.inFlow then s else s.openHere .blockMapping
  return (← (s.allowKey (!s.inFlow)).forgetKey).take .key 1

/-- The colon before a value. -/
def fetchValue (s : Scan) : Except Error Scan := do
  match s.keys.head?.join with
  | some k => return ((s.insertKey k).allowKey false).take .value 1
  | none =>
    if !s.inFlow && !s.keyAllowed then throw .malformed
    let s := if s.inFlow then s else s.openHere .blockMapping
    return (← (s.allowKey (!s.inFlow)).forgetKey).take .value 1

/-- A token that may be a key. -/
def fetchNamed (s : Scan) (read : Place → Except Error (Token × Place)) : Except Error Scan := do
  let s ← s.noteKey
  let (t, p) ← read s.place
  return { (s.allowKey false).push t with place := p }

/-- A block scalar, which a key may follow. -/
def fetchBlock (folding : Bool) (s : Scan) : Except Error Scan := do
  let s ← (s.allowKey true).forgetKey
  let (text, p) ← block folding s.floor s.place
  return { s.push (.scalar text false) with place := p }

/-- A plain scalar.  A key may follow if a line ended after it. -/
def fetchPlain (s : Scan) : Except Error Scan := do
  let s ← s.noteKey
  let scalar := plain s.inFlow s.floor s.place
  return { (s.allowKey scalar.crossed).push (.scalar scalar.text true) with place := scalar.place }

/-- The token that starts with the character `c`, which the text `rest` follows. -/
def fetch (s : Scan) (c : Char) (rest : Text) : Except Error Scan :=
  let atStart := s.place.column = 0
  if c = '%' && atStart then s.fetchDirective
  else if c = '-' && atStart && isSeparator (c :: rest) then s.separator .documentStart
  else if c = '.' && atStart && isSeparator (c :: rest) then s.separator .documentEnd
  else if c = '[' then s.openFlow .sequenceOpen
  else if c = '{' then s.openFlow .mappingOpen
  else if c = ']' then s.closeFlow .sequenceClose
  else if c = '}' then s.closeFlow .mappingClose
  else if c = ',' then s.fetchComma
  else if c = '-' && endsWord rest then s.fetchItem
  else if c = '?' && (s.inFlow || endsWord rest) then s.fetchKey
  else if c = ':' && (s.inFlow || endsWord rest) then s.fetchValue
  else if c = '*' then
    s.fetchNamed fun p => (anchor p).map fun r => (.reference r.1, r.2)
  else if c = '&' then
    s.fetchNamed fun p => (anchor p).map fun r => (.anchor r.1, r.2)
  else if c = '!' then
    s.fetchNamed fun p => (tag p).map fun r => (.tag r.1, r.2)
  else if c = '|' && !s.inFlow then s.fetchBlock false
  else if c = '>' && !s.inFlow then s.fetchBlock true
  else if c = '\'' || c = '"' then
    s.fetchNamed fun p => (quoted (c = '"') p).map fun r => (.scalar r.1 false, r.2)
  else if startsPlain s.inFlow (c :: rest) then s.fetchPlain
  else .error .malformed

/-- All tokens from here to the end of the file. -/
def run : (fuel : Nat) → Scan → Except Error (List Token)
  | 0, _ => .error .malformed
  | fuel + 1, s => do
    let s ← s.skipGap.dropStale
    let s := s.unwind (s.place.column + 1)
    match s.place.rest with
    | [] => do
      let s ← (s.unwind 0).forgetKey
      return s.tokens.reverse
    | c :: rest => run fuel (← s.fetch c rest)

end Scan

/-- The tokens of a file.  A byte order mark in front is passed over. -/
def tokens (t : Text) : Except Error (List Token) :=
  let start : Place := { rest := t }
  let start := if t.head? = some '\uFEFF' then start.advance 1 else start
  Scan.run (t.length + 1) { place := start }

end EmbeddedSql.Yaml
