/-
**Reading JSON.**

* `Json.Error` — what was expected and how much of the text was left, or a limit that was passed;
* `Json.parse` — the value a text stands for, or the first error;
* `Json.Error.message` — the wording of an error with line, column and offset.

Beside the standard the reader takes `NaN` and the infinities for numbers.  When a key occurs twice
the last value counts.
-/

import EmbeddedSql.Text.Numeral
import EmbeddedSql.Value.Basic

set_option relaxedAutoImplicit false
set_option autoImplicit false

namespace EmbeddedSql.Json

/-- Why a text has no value. -/
inductive Error where
  /-- Something else was expected; `left` characters were left at its place. -/
  | expected (what : String) (left : Nat)
  /-- A whole number with too many digits. -/
  | numeral (e : Text.Numeral.Error)
  /-- Lists and objects stand in each other more often than can be read; which was the last. -/
  | tooDeep (what : String)
  deriving Repr, DecidableEq

/-- The wording of an error in a text. -/
def Error.message (text : Text) : Error → String
  | .expected what left =>
    let offset := text.length - left
    let before := text.take offset
    let line := before.count '\n' + 1
    let column := (before.reverse.takeWhile (· ≠ '\n')).length + 1
    what ++ ": line " ++ Nat.repr line ++ " column " ++ Nat.repr column ++ " (char " ++
      Nat.repr offset ++ ")"
  | .numeral e => e.message
  | .tooDeep what =>
    "maximum recursion depth exceeded while decoding a JSON " ++ what ++ " from a unicode string"

/-- An error at the start of what is left. -/
def fail {α : Type} (expectation : String) (rest : Text) : Except Error α :=
  .error (.expected expectation rest.length)

/-- Blanks between the parts of a JSON text. -/
def isGap (c : Char) : Bool :=
  c == ' ' || c == '\t' || c == '\n' || c == '\r'

/-- What is left after blanks. -/
def skipGap (t : Text) : Text :=
  t.dropWhile isGap

/-! ### Numbers -/

/-- The number that some decimal digits stand for. -/
def natOfDigits (ds : Text) : Nat :=
  ds.foldl (fun n c => 10 * n + (c.toNat - '0'.toNat)) 0

/-- The digits after the decimal point, if a point with a digit follows. -/
def fraction? : Text → Option (Text × Text)
  | '.' :: rest =>
    let ds := rest.takeWhile Char.isDigit
    if ds.isEmpty then none else some (ds, rest.drop ds.length)
  | _ => none

/-- The exponent, if one with a digit follows. -/
def exponent? : Text → Option (Int × Text)
  | c :: rest =>
    if c = 'e' || c = 'E' then
      let (negative, body) :=
        match rest with
        | '-' :: r => (true, r)
        | '+' :: r => (false, r)
        | r => (false, r)
      let ds := body.takeWhile Char.isDigit
      if ds.isEmpty then none
      else
        let n := natOfDigits ds
        some (if negative then -(n : Int) else n, body.drop ds.length)
    else none
  | [] => none

/-- The digits before the decimal point: a lone zero, or digits that do not start with one. -/
def whole? : Text → Option (Text × Text)
  | [] => none
  | c :: rest =>
    if c = '0' then some (['0'], rest)
    else if c.isDigit then
      let ds := (c :: rest).takeWhile Char.isDigit
      some (ds, (c :: rest).drop ds.length)
    else none

/-- The whole number that digits stand for. -/
def integer (negative : Bool) (digits : Text) : Except Error Value :=
  if Text.Numeral.maxDigits < digits.length then .error (.numeral (.tooLong digits.length))
  else
    let n := natOfDigits digits
    .ok (.int (if negative then -(n : Int) else n))

/-- The number a text starts with. -/
def number? (t : Text) : Option (Except Error Value × Text) :=
  let (negative, body) :=
    match t with
    | '-' :: r => (true, r)
    | r => (false, r)
  match whole? body with
  | none => none
  | some (whole, afterWhole) =>
    let fraction := fraction? afterWhole
    let afterFraction := (fraction.map Prod.snd).getD afterWhole
    let power := exponent? afterFraction
    let rest := (power.map Prod.snd).getD afterFraction
    if fraction.isNone && power.isNone then some (integer negative whole, rest)
    else
      let places := (fraction.map Prod.fst).getD []
      let e := (power.map Prod.fst).getD 0 - (places.length : Int)
      some (.ok (.real (.ofDecimal ⟨negative, natOfDigits (whole ++ places), e⟩)), rest)

/-! ### Strings -/

/-- The value of a hexadecimal digit. -/
def hexDigit? (c : Char) : Option Nat :=
  if c.isDigit then some (c.toNat - '0'.toNat)
  else if 'a' ≤ c && c ≤ 'f' then some (c.toNat - 'a'.toNat + 10)
  else if 'A' ≤ c && c ≤ 'F' then some (c.toNat - 'A'.toNat + 10)
  else none

/-- The number that four hexadecimal digits stand for. -/
def hex4? (a b c d : Char) : Option Nat := do
  return (((← hexDigit? a) * 16 + (← hexDigit? b)) * 16 + (← hexDigit? c)) * 16 + (← hexDigit? d)

/-- What a one-letter escape stands for. -/
def escape? (c : Char) : Option Char :=
  match c with
  | '"' => some '"'
  | '\\' => some '\\'
  | '/' => some '/'
  | 'b' => some '\x08'
  | 'f' => some '\x0c'
  | 'n' => some '\n'
  | 'r' => some '\r'
  | 't' => some '\t'
  | _ => none

/-- The character of two UTF-16 units when they are a surrogate pair. -/
def joinUnits? (high low : Nat) : Option Char :=
  if 0xD800 ≤ high && high < 0xDC00 && 0xDC00 ≤ low && low < 0xE000 then
    some (Char.ofNat (0x10000 + (high - 0xD800) * 0x400 + (low - 0xDC00)))
  else none

/-- Adds a UTF-16 unit to a content that is held last character first.  `high` is the unit read
just before. -/
def addUnit (acc : Text) (high : Option Nat) (unit : Nat) : Text :=
  match high.bind (joinUnits? · unit) with
  | some c => c :: acc.drop 1
  | none => Char.ofNat unit :: acc

/-- The content of a string, last character first, and what follows its closing quote.  `opened`
is the number of characters from the opening quote to the end of the text, and `unit` the UTF-16
unit that the escape just before stands for. -/
def string (opened : Nat) : Text → Option Nat → Text → Except Error (Text × Text)
  | _, _, [] => .error (.expected "Unterminated string starting at" opened)
  | acc, _, '"' :: rest => .ok (acc, rest)
  | _, _, ['\\'] => .error (.expected "Unterminated string starting at" opened)
  | acc, unit, '\\' :: 'u' :: a :: b :: c :: d :: e :: rest =>
    match hex4? a b c d with
    | none => .error (.expected "Invalid \\uXXXX escape" (rest.length + 6))
    | some n =>
      let paired := (unit.bind (joinUnits? · n)).isSome
      string opened (addUnit acc unit n) (if paired then none else some n) (e :: rest)
  | _, _, '\\' :: 'u' :: rest => .error (.expected "Invalid \\uXXXX escape" (rest.length + 1))
  | acc, _, '\\' :: c :: rest =>
    match escape? c with
    | some d => string opened (d :: acc) none rest
    | none => .error (.expected "Invalid \\escape" (rest.length + 2))
  | acc, _, c :: rest =>
    if c.toNat < 0x20 then .error (.expected "Invalid control character at" (rest.length + 1))
    else string opened (c :: acc) none rest

/-- The string whose opening quote was just read. -/
def stringValue (rest : Text) : Except Error (String × Text) := do
  let (content, after) ← string (rest.length + 1) [] none rest
  return (String.ofList content.reverse, after)

/-! ### Values -/

/-- The words that stand for a value. -/
def words : List (String × Value) :=
  [("null", .null), ("true", .bool true), ("false", .bool false), ("NaN", .real .undefined),
   ("Infinity", .real (.infinite false)), ("-Infinity", .real (.infinite true))]

/-- The word a text starts with. -/
def word? (t : Text) : Option (Value × Text) :=
  (words.find? fun w => w.1.toList.isPrefixOf t).map fun w => (w.2, t.drop w.1.length)

mutual

/-- The value a text starts with.  Lists and objects may stand in each other `depth` times. -/
def value : (depth : Nat) → Text → Except Error (Value × Text)
  | _, '"' :: rest => do
    let (s, after) ← stringValue rest
    return (.str s, after)
  | 0, '[' :: _ => .error (.tooDeep "array")
  | 0, '{' :: _ => .error (.tooDeep "object")
  | depth + 1, '[' :: rest =>
    match skipGap rest with
    | ']' :: after => .ok (.list [], after)
    | start => items depth rest.length [] start
  | depth + 1, '{' :: rest =>
    match skipGap rest with
    | '}' :: after => .ok (.object [], after)
    | start => entries depth rest.length [] start
  | _, t =>
    match word? t, number? t with
    | some r, _ => .ok r
    | none, some (v, rest) => v.map (·, rest)
    | none, none => fail "Expecting value" t

/-- The rest of a list, `count` bounding the number of its items. -/
def items : (depth count : Nat) → List Value → Text → Except Error (Value × Text)
  | _, 0, _, t => fail "Expecting value" t
  | depth, count + 1, acc, t => do
    let (v, after) ← value depth t
    match skipGap after with
    | ']' :: rest => .ok (.list (v :: acc).reverse, rest)
    | ',' :: rest => items depth count (v :: acc) (skipGap rest)
    | rest => fail "Expecting ',' delimiter" rest

/-- The rest of an object, `count` bounding the number of its entries. -/
def entries : (depth count : Nat) → List (Scalar × Value) → Text → Except Error (Value × Text)
  | _, 0, _, t => fail "Expecting property name enclosed in double quotes" t
  | depth, count + 1, acc, t =>
    match t with
    | '"' :: rest => do
      let (key, afterKey) ← stringValue rest
      match skipGap afterKey with
      | ':' :: afterColon => do
        let (v, after) ← value depth (skipGap afterColon)
        let acc := Value.insertKey (.str key) v acc
        match skipGap after with
        | '}' :: rest => .ok (.object acc, rest)
        | ',' :: rest => entries depth count acc (skipGap rest)
        | rest => fail "Expecting ',' delimiter" rest
      | rest => fail "Expecting ':' delimiter" rest
    | _ => fail "Expecting property name enclosed in double quotes" t

end

/-- The value of a JSON text in which lists and objects may stand in each other `depth` times.
Nothing but blanks may follow it. -/
def parse (depth : Nat) (t : Text) : Except Error Value :=
  match t with
  | '\uFEFF' :: _ => fail "Unexpected UTF-8 BOM (decode using utf-8-sig)" t
  | _ => do
    let (v, rest) ← value depth (skipGap t)
    match skipGap rest with
    | [] => .ok v
    | extra => fail "Extra data" extra

end EmbeddedSql.Json
