/-
**Anchors, tags and directives as they are written.**

* `Yaml.anchor` — the name behind the indicator of an anchor or of a reference to one;
* `Yaml.TagName`, `Yaml.tag` — a tag: a handle that stands for a part of it, and the rest;
* `Yaml.Directive`, `Yaml.directive` — what is said before a document.
-/

import EmbeddedSql.Value.Json
import EmbeddedSql.Yaml.Error
import EmbeddedSql.Yaml.Place

set_option relaxedAutoImplicit false
set_option autoImplicit false

namespace EmbeddedSql.Yaml

/-- Characters of a name. -/
def isNameChar (c : Char) : Bool :=
  c.isAlphanum || c == '-' || c == '_'

/-- A name that is not empty, and the place behind it. -/
def name (p : Place) : Except Error (Text × Place) :=
  let n := p.rest.takeWhile isNameChar
  if n.isEmpty then .error .malformed else .ok (n, p.advance n.length)

/-- The name of an anchor whose indicator stands at a place. -/
def anchor (p : Place) : Except Error (Text × Place) := do
  let (n, p) ← name (p.advance 1)
  if p.rest.head?.all fun c => isGap c || "?:,]\x7d%@\x60".toList.contains c then return (n, p)
  else throw .malformed

/-! ### Tags -/

/-- A tag.  Without a handle it is given in full. -/
structure TagName where
  handle : Option Text
  rest : Text
  deriving Repr, DecidableEq

/-- Characters of a tag, escapes apart. -/
def isTagChar (c : Char) : Bool :=
  c.isAlphanum || "-;/?:@&=+$,_.!~*'()[]".toList.contains c

/-- The bytes of the escapes that a text starts with; none when one of them is broken. -/
def escapedBytes? : Text → Option (List UInt8)
  | '%' :: a :: b :: rest =>
    match Json.hexDigit? a, Json.hexDigit? b with
    | some m, some n => (escapedBytes? rest).map ((16 * m + n).toUInt8 :: ·)
    | _, _ => none
  | '%' :: _ => none
  | _ => some []

/-- The characters of a tag, with its escapes resolved. -/
def tagChars : (fuel : Nat) → (read : Text) → Place → Except Error (Text × Place)
  | 0, _, _ => .error .malformed
  | fuel + 1, read, p =>
    match p.rest with
    | [] => .ok (read, p)
    | c :: _ =>
      if isTagChar c then tagChars fuel (read ++ [c]) (p.advance 1)
      else if c = '%' then
        match escapedBytes? p.rest with
        | none => .error .malformed
        | some bytes =>
          match String.fromUTF8? ⟨bytes.toArray⟩ with
          | some s => tagChars fuel (read ++ s.toList) (p.advance (3 * bytes.length))
          | none => .error .malformed
      else .ok (read, p)

/-- The characters of a tag, of which there must be some. -/
def tagRest (p : Place) : Except Error (Text × Place) := do
  let (chars, next) ← tagChars (p.rest.length + 1) [] p
  if next.index = p.index then throw .malformed else return (chars, next)

/-- A handle: exclamation marks around a name that may be empty, or a single one before a space. -/
def handle (p : Place) : Except Error (Text × Place) :=
  match p.rest with
  | '!' :: ' ' :: _ => .ok (['!'], p.advance 1)
  | '!' :: rest =>
    let n := rest.takeWhile isNameChar
    match rest.drop n.length with
    | '!' :: _ => .ok ('!' :: n ++ ['!'], p.advance (n.length + 2))
    | _ => .error .malformed
  | _ => .error .malformed

/-- The tag whose indicator stands at a place. -/
def tag (p : Place) : Except Error (TagName × Place) := do
  let (name, p) ←
    match p.rest.drop 1 with
    | '<' :: _ => do
      let (chars, p) ← tagRest (p.advance 2)
      if p.rest.head? = some '>' then pure (TagName.mk none chars, p.advance 1)
      else throw .malformed
    | rest =>
      if endsWord rest then pure (TagName.mk none ['!'], p.advance 1)
      else if (rest.takeWhile fun c => !(c == ' ' || isBreak c)).contains '!' then do
        let (h, p) ← handle p
        let (chars, p) ← tagRest p
        pure (TagName.mk (some h) chars, p)
      else do
        let (chars, p) ← tagRest (p.advance 1)
        pure (TagName.mk (some ['!']) chars, p)
  if endsPart p.rest then return (name, p) else throw .malformed

/-! ### Directives -/

/-- What is said before a document. -/
inductive Directive where
  /-- The version of the format. -/
  | version (major : Text)
  /-- A handle, and what it stands for. -/
  | handle (handle text : Text)
  /-- Anything else is passed over. -/
  | other
  deriving Repr, DecidableEq

/-- Digits, of which there must be some. -/
def digits (p : Place) : Except Error (Text × Place) :=
  let ds := p.rest.takeWhile Char.isDigit
  if ds.isEmpty then .error .malformed else .ok (ds, p.advance ds.length)

/-- The place, if a part of a directive ends there. -/
def partEnd (p : Place) : Except Error Place :=
  if endsPart p.rest then .ok p else .error .malformed

/-- The version in a directive. -/
def versionDirective (p : Place) : Except Error (Directive × Place) := do
  let (major, p) ← digits p.skipSpaces
  if p.rest.head? ≠ some '.' then throw .malformed
  let (_, p) ← digits (p.advance 1)
  return (.version major, ← partEnd p)

/-- The handle in a directive. -/
def handleDirective (p : Place) : Except Error (Directive × Place) := do
  let (h, p) ← handle p.skipSpaces
  if p.rest.head? ≠ some ' ' then throw .malformed
  let (text, p) ← tagRest p.skipSpaces
  return (.handle h text, ← partEnd p)

/-- The directive whose indicator stands at a place; it takes its whole line. -/
def directive (p : Place) : Except Error (Directive × Place) := do
  let (n, p) ← name (p.advance 1)
  let p ← partEnd p
  let (d, p) ←
    if n = "YAML".toList then versionDirective p
    else if n = "TAG".toList then handleDirective p
    else pure (.other, p.skipWhile (!isBreak ·))
  match p.endLine? with
  | some p => return (d, p)
  | none => throw .malformed

end EmbeddedSql.Yaml
