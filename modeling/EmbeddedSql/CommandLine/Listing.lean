/-
**Listing the queries of a file.**

* `Listing.Entry` — what is shown of a region;
* `Listing.Entry.ofRegion` — the entry of a region;
* `Listing.Entry.text`, `Listing.Entry.dump` — an entry for readers, and as data.
-/

import EmbeddedSql.Escape
import EmbeddedSql.Region
import EmbeddedSql.Settings.Merge
import EmbeddedSql.Token
import EmbeddedSql.Vocabulary

set_option relaxedAutoImplicit false
set_option autoImplicit false

namespace EmbeddedSql.Listing

/-- What is shown of a region. -/
structure Entry where
  function : String
  range : Range
  multiline : Bool
  interpolating : Bool
  sql : Text
  /-- The tokens of the query, when they are asked for. -/
  tokens : Option (List Token)
  deriving Repr, DecidableEq

namespace Entry

/-- The entry of a region. -/
def ofRegion (withTokens : Bool) (r : Region) : Entry :=
  let sql := Escape.query r.raw
  { function := r.function
    range := r.range
    multiline := r.multiline
    interpolating := r.interpolating
    sql := sql
    tokens := if withTokens then some (Token.lex Vocabulary.keywords sql) else none }

/-! ### For readers -/

/-- A position counted from one. -/
def place (p : Position) : String :=
  Nat.repr (p.line + 1) ++ ":" ++ Nat.repr (p.character + 1)

/-- The first line of an entry. -/
def header (e : Entry) : String :=
  place e.range.start ++ "-" ++ place e.range.stop ++ " " ++ e.function ++
    (if e.interpolating then " glue" else "")

/-- A line of the query. -/
def queryLine (line : Text) : String :=
  "    " ++ String.ofList line

/-- The line of a token. -/
def tokenLine (t : Token) : String :=
  "    [" ++ t.kind.name ++ "] " ++ String.ofList (Text.quoted t.text)

/-- An entry over several lines: the header, the query and its tokens. -/
def text (e : Entry) : String :=
  "\n".intercalate
    (e.header :: (Text.lines e.sql).map queryLine ++ (e.tokens.getD []).map tokenLine)

/-! ### As data -/

/-- A position as data. -/
def dumpPosition (p : Position) : Value :=
  .record [("line", .ofNat p.line), ("character", .ofNat p.character)]

/-- A token as data. -/
def dumpToken (t : Token) : Value :=
  .record [("type", .str t.kind.name), ("text", .str (String.ofList t.text)),
    ("offset", .ofNat t.offset)]

/-- An entry as data. -/
def dump (e : Entry) : Value :=
  .record
    ([("function", .str e.function),
      ("start", dumpPosition e.range.start),
      ("end", dumpPosition e.range.stop),
      ("multiline", .bool e.multiline),
      ("interpolating", .bool e.interpolating),
      ("sql", .str (String.ofList e.sql))] ++
      match e.tokens with
      | some ts => [("tokens", .list (ts.map dumpToken))]
      | none => [])

end Entry

end EmbeddedSql.Listing
