/-
**Highlights of open documents.**

* `HighlightStore` — the highlights of each document with the version they belong to;
* `HighlightStore.parse` — highlights from the regions of a document, which are then stored;
* `HighlightStore.get` — the stored highlights of a version, or a fresh parse;
* `HighlightStore.request` — the answer to a client that asks for highlights;
* `HighlightStore.forget` — dropping a document.
-/

import EmbeddedSql.Highlight.Encoding
import EmbeddedSql.Named
import EmbeddedSql.Region.Store

set_option relaxedAutoImplicit false
set_option autoImplicit false

namespace EmbeddedSql

/-- The highlights of a version of each document. -/
structure HighlightStore where
  entries : Named (Int × List Highlight) := []

namespace HighlightStore

/-- A document without a name cannot be stored. -/
inductive Error where
  | noName
  deriving Repr, DecidableEq

/-- The wording of a rejected document. -/
def Error.message : Error → String
  | .noName => "URI cannot be empty or None"

/-- The stored highlights of a document; none are an empty list. -/
def stored (s : HighlightStore) (uri : String) : List Highlight :=
  ((s.entries.get? uri).map Prod.snd).getD []

/-- The names of the documents with stored highlights. -/
def names (s : HighlightStore) : List String :=
  s.entries.names

/-- Drops the highlights of a document. -/
def forget (s : HighlightStore) (uri : String) : HighlightStore :=
  ⟨s.entries.erase uri⟩

/-- Stores the highlights of a version of a document. -/
def insert (s : HighlightStore) (uri : String) (version : Int) (hs : List Highlight) :
    HighlightStore :=
  ⟨s.entries.insert uri (version, hs)⟩

/-- Dropping a document leaves the others. -/
theorem stored_forget (s : HighlightStore) (uri other : String) :
    (s.forget uri).stored other = if other = uri then [] else s.stored other := by
  simp only [forget, stored, Named.get?_erase]
  split <;> rfl

/-- Storing the highlights of a document leaves those of the others. -/
theorem stored_insert (s : HighlightStore) (uri other : String) (version : Int)
    (hs : List Highlight) :
    (s.insert uri version hs).stored other = if other = uri then hs else s.stored other := by
  simp only [insert, stored, Named.get?_insert]
  split <;> rfl

/-- The highlights of some regions.  The signal is asked before every region; regions of blanks
have no highlights. -/
def ofRegions (signal : Signal) (ls : List Text) : List Region → Watched (List Highlight)
  | [] => return []
  | r :: rest => do
    signal.poll
    let here := if Text.isAllBlank r.raw then [] else Highlight.ofRegion ls r
    return here ++ (← ofRegions signal ls rest)

/-- Parses a document at a time.  The highlights are stored unless the signal stops the parse. -/
def parse (s : HighlightStore) (regions : RegionStore) (signal : Signal) (now : Real)
    (doc : Document) : Except Error (Option (List Highlight)) × RegionStore × HighlightStore :=
  if doc.uri.isEmpty then (.error .noName, regions, s)
  else
    match regions.lookup signal now doc with
    | (none, regions) => (.ok none, regions, s)
    | (some (found, asked), regions) =>
      match (ofRegions signal doc.lines found).run asked with
      | none => (.ok none, regions, s)
      | some (hs, _) => (.ok (some hs), regions, s.insert doc.uri doc.version hs)

/-- The highlights of a document at a time: the stored ones if they belong to its version, else
those of a fresh parse. -/
def get (s : HighlightStore) (regions : RegionStore) (now : Real) (doc : Document) :
    Except Error (List Highlight) × RegionStore × HighlightStore :=
  match s.entries.get? doc.uri with
  | some (version, hs) =>
    if version = doc.version then (.ok hs, regions, s)
    else
      let (parsed, regions, s) := s.parse regions .silent now doc
      (parsed.map (·.getD []), regions, s)
  | none =>
    let (parsed, regions, s) := s.parse regions .silent now doc
    (parsed.map (·.getD []), regions, s)

/-- The encoded highlights of a buffer at a time, those that start in a range when one is given.
There are none for other languages and when something is wrong. -/
def request (s : HighlightStore) (regions : RegionStore) (now : Real) (b : Buffer)
    (range : Option Range) : Option (List Int) × RegionStore × HighlightStore :=
  if b.isR then
    let (found, regions, s) := s.get regions now b.document
    let data := (found.toOption.map (Highlight.encode b range)).bind (·.toOption)
    (data, regions, s)
  else (none, regions, s)

end HighlightStore

end EmbeddedSql
