/-
**Decimal fractions as they are written in data files.**

* `Decimal` — sign, digits and a power of ten;
* `Decimal.pointAt` — where the decimal point stands among the digits;
* `Decimal.text` — the digits without superfluous zeros, positional for moderate sizes.
-/

set_option relaxedAutoImplicit false
set_option autoImplicit false

namespace EmbeddedSql

/-- The number `± digits · 10 ^ exponent`. -/
structure Decimal where
  negative : Bool
  digits : Nat
  exponent : Int
  deriving Repr, DecidableEq

namespace Decimal

/-- Whether the number is zero. -/
def isZero (d : Decimal) : Bool :=
  d.digits == 0

/-- The significant digits, without zeros at the end. -/
def significant (d : Decimal) : List Char :=
  ((Nat.repr d.digits).toList.reverse.dropWhile (· == '0')).reverse

/-- How many digits stand before the decimal point; negative when zeros follow the point. -/
def pointAt (d : Decimal) : Int :=
  (Nat.repr d.digits).length + d.exponent

/-- The text of the number.  It is positional when its first digit is worth at least `10 ^ -4` and
less than `10 ^ 16`, and scientific otherwise. -/
def text (d : Decimal) : String :=
  let sign := if d.negative then "-" else ""
  if d.isZero then sign ++ "0.0"
  else
    let ds := d.significant
    let point := d.pointAt
    let body :=
      if -4 < point && point ≤ 0 then
        "0." ++ String.ofList (List.replicate (-point).toNat '0' ++ ds)
      else if 0 < point && point ≤ 16 then
        let n := point.toNat
        let whole := ds.take n ++ List.replicate (n - ds.length) '0'
        let fraction := if ds.length ≤ n then ['0'] else ds.drop n
        String.ofList (whole ++ ['.'] ++ fraction)
      else
        let power := point - 1
        let exponent := (Nat.repr power.natAbs).toList
        let mantissa := if ds.length ≤ 1 then ds else ds.take 1 ++ ['.'] ++ ds.drop 1
        String.ofList (mantissa ++ ['e', if power < 0 then '-' else '+'] ++
          List.replicate (2 - exponent.length) '0' ++ exponent)
    sign ++ body

end Decimal

end EmbeddedSql
