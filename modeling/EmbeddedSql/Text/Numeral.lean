/-
**Whole numbers written in a text.**

* `Text.Numeral.isOversized` — whether a whole number has too many digits;
* `Text.Numeral.Error` — why a text is no whole number;
* `Text.readInt` — a whole number with an optional sign and blanks around it.
-/

import EmbeddedSql.Text.Quoted

set_option relaxedAutoImplicit false
set_option autoImplicit false

namespace EmbeddedSql.Text

/-- The largest number of digits that is read or written. -/
def Numeral.maxDigits : Nat := 4300

/-- Whether a whole number has more digits than are written. -/
def Numeral.isOversized (n : Int) : Bool :=
  Nat.pow 10 maxDigits ≤ n.natAbs

/-- Why a text is no whole number. -/
inductive Numeral.Error where
  /-- The text is not written like a whole number. -/
  | unreadable (base : Nat) (text : Text)
  /-- There are more digits than can be read. -/
  | tooLong (digits : Nat)
  deriving Repr, DecidableEq

/-- The wording of an error; only the start of a long text is shown. -/
def Numeral.Error.message : Numeral.Error → String
  | .unreadable base text =>
    "invalid literal for int() with base " ++ Nat.repr base ++ ": " ++
      String.ofList ((quoted text).take 200)
  | .tooLong digits =>
    "Exceeds the limit (" ++ Nat.repr maxDigits ++
      " digits) for integer string conversion: value has " ++ Nat.repr digits ++
      " digits; use sys.set_int_max_str_digits() to increase the limit"

/-- Blanks that may stand around a number: those of a text, but not the information separators. -/
def isNumeralBlank (c : Char) : Bool :=
  isBlank c && !(0x1C ≤ c.toNat && c.toNat ≤ 0x1F)

/-- Whether every underscore stands between two other characters. -/
def separates : Text → Bool
  | [] => false
  | '_' :: _ => false
  | [_] => true
  | _ :: '_' :: rest => separates rest
  | _ :: rest => separates rest

/-- The number that digits of a base stand for. -/
def ofDigits (base : Nat) (digits : List Nat) : Nat :=
  digits.foldl (fun n d => base * n + d) 0

/-- The whole number a text stands for.  The digits may be of any script, and single underscores
may stand between them. -/
def readInt (t : Text) : Except Numeral.Error Int :=
  let body := t.dropWhile isNumeralBlank
  let (negative, body) :=
    match body with
    | '-' :: rest => (true, rest)
    | '+' :: rest => (false, rest)
    | rest => (false, rest)
  let run := body.takeWhile fun c => c = '_' || (decimalValue? c).isSome
  let digits := run.filterMap decimalValue?
  if !separates run then .error (.unreadable 10 t)
  else if Numeral.maxDigits < digits.length then .error (.tooLong digits.length)
  else if (body.drop run.length).all isNumeralBlank then
    .ok (if negative then -(ofDigits 10 digits : Int) else ofDigits 10 digits)
  else .error (.unreadable 10 t)

end EmbeddedSql.Text
