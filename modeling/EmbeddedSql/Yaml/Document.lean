/-
**The value of a settings file.**

* `Yaml.Node.value` — the value a tree stands for;
* `Yaml.parse` — the value of a file.
-/

import EmbeddedSql.Yaml.Node

set_option relaxedAutoImplicit false
set_option autoImplicit false

namespace EmbeddedSql.Yaml

/-- The scalar that a key stands for.  Collections are no keys, and the sign for a default value is
a text there. -/
def Node.key : Node → Except Error Scalar
  | .scalar .equals text => Tag.str.read text
  | .scalar tag text => tag.read text
  | _ => .error .malformed

mutual

/-- The value a tree stands for. -/
def Node.value : Node → Except Error Value
  | .scalar tag text => (tag.read text).map .scalar
  | .sequence tag items => do
    if tag ≠ .sequence then throw .malformed
    return .list (← itemValues items)
  | .mapping tag entries => do
    if tag ≠ .mapping then throw .malformed
    let (merged, own) ← assignments entries
    return Value.ofAssignments (merged ++ own)

/-- The values of some items. -/
def itemValues : List Node → Except Error (List Value)
  | [] => .ok []
  | n :: rest => do
    let v ← n.value
    return v :: (← itemValues rest)

/-- The entries of a mapping: those that are merged into it, and its own. -/
def assignments : List (Node × Node) →
    Except Error (List (Scalar × Value) × List (Scalar × Value))
  | [] => .ok ([], [])
  | (.scalar .merge _, v) :: rest => do
    let here ← mergedEntries v
    let (merged, own) ← assignments rest
    return (here ++ merged, own)
  | (k, v) :: rest => do
    let key ← k.key
    let value ← v.value
    let (merged, own) ← assignments rest
    return (merged, (key, value) :: own)

/-- The entries that the value of a merge stands for: those of a mapping, or of several ones, of
which an earlier one counts more. -/
def mergedEntries : Node → Except Error (List (Scalar × Value))
  | .mapping _ entries => do
    let (merged, own) ← assignments entries
    return merged ++ own
  | .sequence _ items => mergedItems items
  | .scalar _ _ => .error .malformed

/-- The entries of several mappings, those of the last one first. -/
def mergedItems : List Node → Except Error (List (Scalar × Value))
  | [] => .ok []
  | .mapping _ entries :: rest => do
    let (merged, own) ← assignments entries
    return (← mergedItems rest) ++ merged ++ own
  | _ :: _ => .error .malformed

end

/-- The value of a file in which collections may stand in each other `limit` times.  A file with
nothing in it is null. -/
def parse (limit : Nat) (t : Text) : Except Error Value := do
  if !t.all isAllowed then throw .malformed
  match ← document limit (← tokens t) with
  | some n => n.value
  | none => return .null

end EmbeddedSql.Yaml
