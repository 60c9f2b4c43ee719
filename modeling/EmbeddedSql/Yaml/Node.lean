/-
**The tree of a settings file.**

* `Yaml.Node` — a scalar or collection with what it stands for;
* `Yaml.Build` — the tokens that are left, with what anchors and handles stand for;
* `Yaml.node` — the tree that some tokens stand for;
* `Yaml.document` — the tree of a file; a file holds one document at most.
-/

import EmbeddedSql.Yaml.Tag
import EmbeddedSql.Yaml.Token

set_option relaxedAutoImplicit false
set_option autoImplicit false

namespace EmbeddedSql.Yaml

/-- A scalar or collection with what it stands for. -/
inductive Node where
  | scalar (tag : Tag) (text : Text)
  | sequence (tag : Tag) (items : List Node)
  | mapping (tag : Tag) (entries : List (Node × Node))
  deriving Repr

/-- A scalar that is not written at all. -/
def Node.empty : Node := .scalar .null []

/-- The tokens that are left, with what anchors and handles stand for. -/
structure Build where
  tokens : List Token
  /-- The nodes with an anchor. -/
  anchored : List (Text × Node) := []
  /-- The anchors, those of open collections included. -/
  anchors : List Text := []
  /-- What the handles of tags stand for. -/
  handles : List (Text × Text) := []
  deriving Repr

/-! ### Properties -/

/-- What is said in front of a node. -/
structure Properties where
  anchor : Option Text := none
  tag : Option TagName := none
  deriving Repr, DecidableEq

/-- The properties in front of a node: an anchor and a tag, in either order. -/
def properties : List Token → Properties × List Token
  | .anchor a :: .tag t :: rest => (⟨some a, some t⟩, rest)
  | .tag t :: .anchor a :: rest => (⟨some a, some t⟩, rest)
  | .anchor a :: rest => (⟨some a, none⟩, rest)
  | .tag t :: rest => (⟨none, some t⟩, rest)
  | rest => ({}, rest)

/-- The full name of a tag. -/
def fullName (handles : List (Text × Text)) (t : TagName) : Except Error Text :=
  match t.handle with
  | none => .ok t.rest
  | some h =>
    match handles.lookup h with
    | some text => .ok (text ++ t.rest)
    | none => .error .malformed

/-- The tag of a node whose own form stands for `default`.  A lone exclamation mark says nothing. -/
def tagOf (name : Option Text) (default : Tag) : Tag :=
  match name with
  | none => default
  | some n => if n = ['!'] then default else .ofName n

/-- The tag of a scalar. -/
def scalarTag (name : Option Text) (text : Text) (plain : Bool) : Tag :=
  tagOf name (if plain || name.isSome then .ofPlain text else .str)

namespace Build

/-- Without the first token. -/
def drop (b : Build) : Build :=
  { b with tokens := b.tokens.tail }

/-- Notes that an anchor is used; none is used twice. -/
def reserve (anchor : Option Text) (b : Build) : Except Error Build :=
  match anchor with
  | none => .ok b
  | some a =>
    if b.anchors.contains a then .error .malformed else .ok { b with anchors := a :: b.anchors }

/-- Notes the node of an anchor. -/
def store (anchor : Option Text) (n : Node) (b : Build) : Build :=
  match anchor with
  | none => b
  | some a => { b with anchored := (a, n) :: b.anchored }

/-- Whether the next token is one of the given ones. -/
def next (b : Build) (ts : List Token) : Bool :=
  b.tokens.head?.any ts.contains

end Build

/-! ### Nodes -/

mutual

/-- The node that the tokens stand for.  Collections may stand in each other `limit` times.  In a
block, block collections are admitted; after a key in a block, so are the items of a sequence that
is not indented. -/
def node (limit : Nat) : (fuel depth : Nat) → (inBlock afterKey : Bool) → Build →
    Except Error (Node × Build)
  | 0, _, _, _, _ => .error .malformed
  | fuel + 1, depth, inBlock, afterKey, b =>
    match b.tokens with
    | .reference a :: _ =>
      match b.anchored.lookup a with
      | some n => .ok (n, b.drop)
      | none => .error .malformed
    | ts => do
      let (ps, rest) := properties ts
      let name ← ps.tag.mapM (fullName b.handles)
      let b ← { b with tokens := rest }.reserve ps.anchor
      if limit < depth then throw .tooDeep
      let (n, b) ←
        match rest with
        | .scalar text plain :: _ => pure (Node.scalar (scalarTag name text plain) text, b.drop)
        | .sequenceOpen :: _ => do
          let (items, b) ← flowItems limit fuel (depth + 1) true [] b.drop
          pure (Node.sequence (tagOf name .sequence) items, b)
        | .mappingOpen :: _ => do
          let (entries, b) ← flowEntries limit fuel (depth + 1) true [] b.drop
          pure (Node.mapping (tagOf name .mapping) entries, b)
        | t :: _ =>
          if afterKey && t = .item then do
            let (items, b) ← looseItems limit fuel (depth + 1) [] b
            pure (Node.sequence (tagOf name .sequence) items, b)
          else if inBlock && t = .blockSequence then do
            let (items, b) ← blockItems limit fuel (depth + 1) [] b.drop
            pure (Node.sequence (tagOf name .sequence) items, b)
          else if inBlock && t = .blockMapping then do
            let (entries, b) ← blockEntries limit fuel (depth + 1) [] b.drop
            pure (Node.mapping (tagOf name .mapping) entries, b)
          else if ps = {} then throw .malformed
          else pure (Node.scalar (scalarTag name [] true) [], b)
        | [] =>
          if ps = {} then throw .malformed
          else pure (Node.scalar (scalarTag name [] true) [], b)
      return (n, b.store ps.anchor n)

/-- A node, or an empty scalar if one of the given tokens comes next. -/
def nodeUnless (limit fuel depth : Nat) (inBlock afterKey : Bool) (ends : List Token) (b : Build) :
    Except Error (Node × Build) :=
  match fuel with
  | 0 => .error .malformed
  | fuel + 1 =>
    if b.next ends then .ok (.empty, b) else node limit fuel depth inBlock afterKey b

/-- The rest of a block sequence. -/
def blockItems (limit : Nat) : (fuel depth : Nat) → List Node → Build →
    Except Error (List Node × Build)
  | 0, _, _, _ => .error .malformed
  | fuel + 1, depth, read, b =>
    match b.tokens with
    | .item :: _ => do
      let (n, b) ← nodeUnless limit fuel depth true false [.item, .blockEnd] b.drop
      blockItems limit fuel depth (n :: read) b
    | .blockEnd :: _ => .ok (read.reverse, b.drop)
    | _ => .error .malformed

/-- The rest of a sequence that is not indented. -/
def looseItems (limit : Nat) : (fuel depth : Nat) → List Node → Build →
    Except Error (List Node × Build)
  | 0, _, _, _ => .error .malformed
  | fuel + 1, depth, read, b =>
    match b.tokens with
    | .item :: _ => do
      let (n, b) ← nodeUnless limit fuel depth true false [.item, .key, .value, .blockEnd] b.drop
      looseItems limit fuel depth (n :: read) b
    | _ => .ok (read.reverse, b)

/-- The rest of a block mapping. -/
def blockEntries (limit : Nat) : (fuel depth : Nat) → List (Node × Node) → Build →
    Except Error (List (Node × Node) × Build)
  | 0, _, _, _ => .error .malformed
  | fuel + 1, depth, read, b =>
    match b.tokens with
    | .key :: _ => do
      let ends : List Token := [.key, .value, .blockEnd]
      let (k, b) ← nodeUnless limit fuel depth true true ends b.drop
      let (v, b) ←
        if b.next [.value] then nodeUnless limit fuel depth true true ends b.drop
        else pure (Node.empty, b)
      blockEntries limit fuel depth ((k, v) :: read) b
    | .blockEnd :: _ => .ok (read.reverse, b.drop)
    | _ => .error .malformed

/-- The rest of a flow sequence.  An item may be a single entry of a mapping. -/
def flowItems (limit : Nat) : (fuel depth : Nat) → (first : Bool) → List Node → Build →
    Except Error (List Node × Build)
  | 0, _, _, _, _ => .error .malformed
  | fuel + 1, depth, first, read, b =>
    if b.next [.sequenceClose] then .ok (read.reverse, b.drop)
    else do
      if !first && !b.next [.comma] then throw .malformed
      let b := if first then b else b.drop
      if b.next [.sequenceClose] then return (read.reverse, b.drop)
      else if b.next [.key] then
        let ends : List Token := [.value, .comma, .sequenceClose]
        let (k, b) ← nodeUnless limit fuel (depth + 1) false false ends b.drop
        let (v, b) ←
          if b.next [.value] then
            nodeUnless limit fuel (depth + 1) false false [.comma, .sequenceClose] b.drop
          else pure (Node.empty, b)
        flowItems limit fuel depth false (.mapping .mapping [(k, v)] :: read) b
      else
        let (n, b) ← node limit fuel depth false false b
        flowItems limit fuel depth false (n :: read) b

/-- The rest of a flow mapping.  A key may stand alone. -/
def flowEntries (limit : Nat) : (fuel depth : Nat) → (first : Bool) → List (Node × Node) → Build →
    Except Error (List (Node × Node) × Build)
  | 0, _, _, _, _ => .error .malformed
  | fuel + 1, depth, first, read, b =>
    if b.next [.mappingClose] then .ok (read.reverse, b.drop)
    else do
      if !first && !b.next [.comma] then throw .malformed
      let b := if first then b else b.drop
      if b.next [.mappingClose] then return (read.reverse, b.drop)
      else if b.next [.key] then
        let (k, b) ← nodeUnless limit fuel depth false false [.value, .comma, .mappingClose] b.drop
        let (v, b) ←
          if b.next [.value] then
            nodeUnless limit fuel depth false false [.comma, .mappingClose] b.drop
          else pure (Node.empty, b)
        flowEntries limit fuel depth false ((k, v) :: read) b
      else
        let (k, b) ← node limit fuel depth false false b
        flowEntries limit fuel depth false ((k, .empty) :: read) b

end

/-! ### Documents -/

/-- What handles stand for unless a directive says otherwise. -/
def usualHandles : List (Text × Text) :=
  [(['!'], ['!']), (['!', '!'], Tag.standard.toList)]

/-- The directives in front of a document: what the handles stand for, and the tokens after them.
`versioned` says whether a version was given. -/
def directives (versioned : Bool) (handles : List (Text × Text)) :
    List Token → Except Error (List (Text × Text) × List Token)
  | .directive (.version major) :: rest =>
    if versioned || Json.natOfDigits major ≠ 1 then .error .malformed
    else directives true handles rest
  | .directive (.handle h text) :: rest =>
    if (handles.lookup h).isSome then .error .malformed
    else directives versioned ((h, text) :: handles) rest
  | .directive .other :: rest => directives versioned handles rest
  | rest => .ok (handles ++ usualHandles, rest)

/-- Whether a document is over before anything was said in it. -/
def endsDocument : List Token → Bool
  | [] => true
  | .directive _ :: _ => true
  | .documentStart :: _ => true
  | .documentEnd :: _ => true
  | _ => false

/-- The tree of a document.  Nothing but ends of documents may follow it. -/
def onlyDocument (limit : Nat) (b : Build) : Except Error Node := do
  let (n, b) ← node limit (3 * b.tokens.length + 3) 0 true false b
  if b.tokens.all (· = .documentEnd) then return n else throw .malformed

/-- The tree of a file, if there is anything in it. -/
def document (limit : Nat) (ts : List Token) : Except Error (Option Node) :=
  match ts with
  | [] => .ok none
  | .directive _ :: _ => explicitDocument ts
  | .documentStart :: _ => explicitDocument ts
  | _ => (onlyDocument limit { tokens := ts, handles := usualHandles }).map some
where
  /-- A document with a mark at its start. -/
  explicitDocument (ts : List Token) : Except Error (Option Node) := do
    match ← directives false [] ts with
    | (handles, .documentStart :: rest) =>
      if endsDocument rest then
        if rest.all (· = .documentEnd) then return some .empty else throw .malformed
      else return some (← onlyDocument limit { tokens := rest, handles := handles })
    | _ => throw .malformed

end EmbeddedSql.Yaml
