/-
**Untyped data: what a configuration file, a client message or a database cell may hold.**

* `Scalar` — null, truth values, numbers, texts and moments;
* `Scalar.same` — whether two scalars are the same key: numbers and truth values by their size;
* `Value` — scalars, lists and objects with their keys in order;
* `Value.truthy` — whether a value counts as present;
* `TextError` — why a value has no text;
* `Value.text`, `Value.display` — a value as text, bare or inside a list;
* `Depths` — how deep data may be nested;
* `Value.record`, `Value.lookup`, `Value.get?`, `Value.insertKey` — writing and reading the entries
  of an object.
-/

import EmbeddedSql.Text.Numeral
import EmbeddedSql.Text.Quoted
import EmbeddedSql.Value.Moment
import EmbeddedSql.Value.Real

set_option relaxedAutoImplicit false
set_option autoImplicit false

namespace EmbeddedSql

/-! ### Limits -/

/-- How deep lists and objects may stand in each other until the work on them uses up the call
stack.  The numbers depend on the stack and on what stands on it already. -/
structure Depths where
  /-- When a settings file is read. -/
  yaml : Nat
  /-- When JSON is read. -/
  json : Nat
  /-- When a value is turned into text. -/
  display : Nat
  deriving Repr, DecidableEq

/-- Why a value has no text. -/
inductive TextError where
  /-- Lists and objects stand in each other too deeply. -/
  | tooDeep
  /-- A whole number has too many digits. -/
  | oversized
  deriving Repr, DecidableEq

/-- The wording of an error. -/
def TextError.message : TextError → String
  | .tooDeep => "maximum recursion depth exceeded while getting the repr of an object"
  | .oversized =>
    "Exceeds the limit (" ++ Nat.repr Text.Numeral.maxDigits ++
      " digits) for integer string conversion; use sys.set_int_max_str_digits() to increase the " ++
      "limit"

/-- The word for the kind of an error. -/
def TextError.kind : TextError → String
  | .tooDeep => "RecursionError"
  | .oversized => "ValueError"

/-! ### Scalars -/

/-- A value without parts. -/
inductive Scalar where
  | null
  | bool (b : Bool)
  | int (n : Int)
  | real (r : Real)
  | str (s : String)
  | moment (m : Moment)
  deriving Repr, DecidableEq, Inhabited

namespace Scalar

/-- Null, false, zeros and the empty text do not count as present. -/
def truthy : Scalar → Bool
  | .null => false
  | .bool b => b
  | .int n => n != 0
  | .real r => !r.isZero
  | .str s => !s.isEmpty
  | .moment _ => true

/-- The display of a scalar inside a list or an object. -/
def display : Scalar → Except TextError String
  | .null => .ok "None"
  | .bool true => .ok "True"
  | .bool false => .ok "False"
  | .int n => if Text.Numeral.isOversized n then .error .oversized else .ok (Int.repr n)
  | .real r => .ok r.text
  | .str s => .ok (String.ofList (Text.quoted s.toList))
  | .moment m => .ok m.display

/-- The text of a scalar. -/
def text : Scalar → Except TextError String
  | .str s => .ok s
  | .moment m => .ok m.text
  | s => s.display

/-- The display of a scalar in a list or an object that may be nested `depth` levels deep. -/
def displayAt : (depth : Nat) → Scalar → Except TextError String
  | 0, _ => .error .tooDeep
  | _ + 1, s => s.display

/-- The word for the kind of a scalar. -/
def kind : Scalar → String
  | .null => "NoneType"
  | .bool _ => "bool"
  | .int _ => "int"
  | .real _ => "float"
  | .str _ => "str"
  | .moment m => m.kind

/-- The size of a number or truth value as a quotient, whole ones over one. -/
def size? : Scalar → Option (Int × Nat)
  | .bool b => some (if b then 1 else 0, 1)
  | .int n => some (n, 1)
  | .real (.finite b) => some (if b.isWhole then (b.truncate, 1) else b.quotient)
  | _ => none

/-- Whether two scalars are the same key. -/
def same (a b : Scalar) : Bool :=
  match a.size?, b.size? with
  | some m, some n => m == n
  | none, none => a == b
  | _, _ => false

/-- A text is the same key as no other scalar. -/
theorem same_str (a : Scalar) (s : String) : a.same (.str s) = true ↔ a = .str s := by
  cases a with
  | real r => cases r <;> simp [same, size?]
  | _ => simp [same, size?]

end Scalar

/-! ### Values -/

/-- A value of a data file. -/
inductive Value where
  | scalar (s : Scalar)
  | list (items : List Value)
  | object (entries : List (Scalar × Value))
  deriving Repr, BEq, Inhabited

namespace Value

/-- Nothing. -/
@[match_pattern] abbrev null : Value := .scalar .null

/-- A truth value. -/
@[match_pattern] abbrev bool (b : Bool) : Value := .scalar (.bool b)

/-- A whole number. -/
@[match_pattern] abbrev int (n : Int) : Value := .scalar (.int n)

/-- A number with a fraction. -/
@[match_pattern] abbrev real (r : Real) : Value := .scalar (.real r)

/-- A text. -/
@[match_pattern] abbrev str (s : String) : Value := .scalar (.str s)

/-- Nulls, false, zeros and everything empty do not count as present. -/
def truthy : Value → Bool
  | .scalar s => s.truthy
  | .list items => !items.isEmpty
  | .object entries => !entries.isEmpty

mutual

/-- The display of a value inside a list or an object.  `depth` bounds the nesting. -/
def display : (depth : Nat) → Value → Except TextError String
  | depth, .scalar s => s.displayAt depth
  | 0, _ => .error .tooDeep
  | depth + 1, .list items => do
    let shown ← displayItems depth items
    return "[" ++ ", ".intercalate shown ++ "]"
  | depth + 1, .object entries => do
    let shown ← displayEntries depth entries
    return "\x7b" ++ ", ".intercalate shown ++ "\x7d"

/-- The displays of the items of a list. -/
def displayItems (depth : Nat) : List Value → Except TextError (List String)
  | [] => .ok []
  | v :: rest => do
    let first ← display depth v
    return first :: (← displayItems depth rest)

/-- The displays of the entries of an object. -/
def displayEntries (depth : Nat) : List (Scalar × Value) → Except TextError (List String)
  | [] => .ok []
  | (k, v) :: rest => do
    let key ← k.displayAt depth
    let value ← display depth v
    return (key ++ ": " ++ value) :: (← displayEntries depth rest)

end

/-- The text of a value: that of a scalar is not quoted. -/
def text (depth : Nat) : Value → Except TextError String
  | .scalar s => s.text
  | v => v.display depth

/-- The word for the kind of a value. -/
def kind : Value → String
  | .scalar s => s.kind
  | .list _ => "list"
  | .object _ => "dict"

/-! ### Entries -/

/-- The object with the given texts for keys. -/
def record (entries : List (String × Value)) : Value :=
  .object (entries.map fun e => (.str e.1, e.2))

/-- The value under a key. -/
def lookup (key : String) (entries : List (Scalar × Value)) : Option Value :=
  entries.lookup (.str key)

/-- The value under a key that may be any scalar. -/
def atKey? (key : Scalar) (entries : List (Scalar × Value)) : Option Value :=
  (entries.find? fun e => e.1.same key).map Prod.snd

/-- The value under a key of an object; other values have no keys. -/
def get? (key : String) : Value → Option Value
  | .object entries => lookup key entries
  | _ => none

/-- Sets the value under a key.  A new key goes to the end, a known one stays as it is. -/
def insertKey (key : Scalar) (v : Value) : List (Scalar × Value) → List (Scalar × Value)
  | [] => [(key, v)]
  | e :: rest => if e.1.same key then (e.1, v) :: rest else e :: insertKey key v rest

/-- The entries with the last value of every key. -/
def ofAssignments (assignments : List (Scalar × Value)) : Value :=
  .object (assignments.foldl (fun es e => insertKey e.1 e.2 es) [])

/-- Setting the value under a key leaves those under other keys. -/
theorem lookup_insertKey (key other : String) (v : Value) (es : List (Scalar × Value)) :
    lookup other (insertKey (.str key) v es) =
      if other = key then some v else lookup other es := by
  induction es with
  | nil =>
    by_cases h : other = key
    · simp [insertKey, lookup, h]
    · have hne : (Scalar.str other == Scalar.str key) = false := by simpa using h
      simp [insertKey, lookup, List.lookup_cons, h, hne]
  | cons e es ih =>
    obtain ⟨k, w⟩ := e
    by_cases hk : k.same (.str key)
    · obtain rfl := (Scalar.same_str k key).1 hk
      by_cases h : other = key
      · simp [insertKey, lookup, hk, h]
      · have hne : (Scalar.str other == Scalar.str key) = false := by simpa using h
        simp [insertKey, lookup, hk, List.lookup_cons, h, hne]
    · by_cases ho : k = .str other
      · subst ho
        have hne : other ≠ key := fun h => hk ((Scalar.same_str _ key).2 (by rw [h]))
        simp [insertKey, lookup, hk, hne]
      · have hne : (Scalar.str other == k) = false := by simpa using fun h => ho h.symm
        simpa [insertKey, lookup, hk, List.lookup_cons, hne] using ih

end Value

end EmbeddedSql
