/-
**Numbers in double precision.**

A double is an exact binary fraction, so every operation is: compute in whole numbers, then round
once.

* `Binary` — sign, whole mantissa and a power of two;
* `Binary.truncate`, `Binary.isWhole` — the whole part, and whether it is all there is;
* `Real`, `Real.round` — a binary fraction of double precision, an infinity or no number; a
  quotient rounded to the nearest of them, a half to the even neighbour;
* `Real.ofDecimal`, `Real.ofInt` — the double nearest to a written number;
* `Real.add`, `Real.sub`, `Real.scale`, `Real.le` — arithmetic and order;
* `Binary.shortest`, `Real.text` — the fewest decimal digits that read back.
-/

import EmbeddedSql.Value.Decimal

set_option relaxedAutoImplicit false
set_option autoImplicit false

namespace EmbeddedSql

/-! ### Binary fractions -/

/-- The number `± mantissa · 2 ^ exponent`. -/
structure Binary where
  negative : Bool
  mantissa : Nat
  exponent : Int
  deriving Repr, DecidableEq

/-- The quotient `num / den · 2 ^ -e` as a pair of whole numbers. -/
def overPower (num den : Nat) (e : Int) : Nat × Nat :=
  match e with
  | .ofNat k => (num, den * Nat.pow 2 k)
  | .negSucc k => (num * Nat.pow 2 (k + 1), den)

/-- The whole number nearest to a quotient; a half goes to the even neighbour. -/
def roundHalfEven (num den : Nat) : Nat :=
  let q := num / den
  let twice := 2 * (num % den)
  if twice < den || (twice == den && q % 2 == 0) then q else q + 1

/-- A quotient without remainder is not changed by rounding. -/
theorem roundHalfEven_mul (q : Nat) {den : Nat} (h : 0 < den) :
    roundHalfEven (q * den) den = q := by
  simp [roundHalfEven, Nat.mul_div_cancel _ h, h]

namespace Binary

/-- The least exponent of a double. -/
def minExponent : Int := -1074

/-- Zero with a sign. -/
def zero (negative : Bool) : Binary := ⟨negative, 0, minExponent⟩

/-- Whether the number is zero. -/
def isZero (b : Binary) : Bool :=
  b.mantissa == 0

/-- The size of the number as a quotient. -/
def fraction (b : Binary) : Nat × Nat :=
  overPower b.mantissa 1 (-b.exponent)

/-- Gives a natural number the sign of the fraction. -/
def signed (b : Binary) (n : Nat) : Int :=
  if b.negative then -(n : Int) else n

/-- The whole part, rounded towards zero. -/
def truncate (b : Binary) : Int :=
  b.signed (b.fraction.1 / b.fraction.2)

/-- Whether nothing follows the binary point but zeros. -/
def isWhole (b : Binary) : Bool :=
  b.fraction.1 % b.fraction.2 == 0

/-- The nearest whole number; a half goes to the even neighbour. -/
def nearest (b : Binary) : Int :=
  b.signed (roundHalfEven b.fraction.1 b.fraction.2)

/-- The number as a quotient with a sign. -/
def quotient (b : Binary) : Int × Nat :=
  (b.signed b.fraction.1, b.fraction.2)

end Binary

/-! ### Doubles -/

/-- A number of double precision. -/
inductive Real where
  | finite (b : Binary)
  | infinite (negative : Bool)
  | undefined
  deriving Repr, DecidableEq

namespace Real

/-- The exponent of the last place of a double near `num / den`, which is not zero. -/
def lastPlace (num den : Nat) : Int :=
  let e : Int := (Nat.log2 num : Int) - Nat.log2 den - 53
  let scaled := overPower num den e
  max Binary.minExponent (if scaled.2 * Nat.pow 2 53 ≤ scaled.1 then e + 1 else e)

/-- The double nearest to `± num / den`; a half goes to the even neighbour, and what is too large
is infinite. -/
def round (negative : Bool) (num den : Nat) : Real :=
  if num = 0 then .finite (.zero negative)
  else
    let e := lastPlace num den
    let scaled := overPower num den e
    let m := roundHalfEven scaled.1 scaled.2
    let b : Binary :=
      if m = Nat.pow 2 53 then ⟨negative, Nat.pow 2 52, e + 1⟩ else ⟨negative, m, e⟩
    if 971 < b.exponent then .infinite negative
    else if b.mantissa = 0 then .finite (.zero negative)
    else .finite b

/-- The double nearest to a quotient. -/
def ofQuotient (num : Int) (den : Nat) : Real :=
  round (num < 0) num.natAbs den

/-- The double nearest to a whole number. -/
def ofInt (n : Int) : Real :=
  ofQuotient n 1

/-- The double nearest to a decimal.  Decimals far outside the range of doubles are not computed
with. -/
def ofDecimal (d : Decimal) : Real :=
  let point := d.pointAt
  if d.isZero || point < -330 then .finite (.zero d.negative)
  else if 310 < point then .infinite d.negative
  else
    match d.exponent with
    | .ofNat e => round d.negative (d.digits * Nat.pow 10 e) 1
    | .negSucc e => round d.negative d.digits (Nat.pow 10 (e + 1))

/-- Whether the number is zero. -/
def isZero : Real → Bool
  | .finite b => b.isZero
  | _ => false

/-! ### Arithmetic -/

/-- The number with the other sign. -/
def neg : Real → Real
  | .finite b => .finite { b with negative := !b.negative }
  | .infinite s => .infinite (!s)
  | .undefined => .undefined

/-- The rounded sum. -/
def add : Real → Real → Real
  | .finite a, .finite b =>
    let x := a.quotient
    let y := b.quotient
    ofQuotient (x.1 * y.2 + y.1 * x.2) (x.2 * y.2)
  | .infinite s, .finite _ => .infinite s
  | .finite _, .infinite s => .infinite s
  | .infinite s, .infinite t => if s = t then .infinite s else .undefined
  | _, _ => .undefined

/-- The rounded difference. -/
def sub (a b : Real) : Real :=
  add a b.neg

/-- The number times `num / den`, rounded once. -/
def scale (r : Real) (num den : Nat) : Real :=
  match r with
  | .finite b => round b.negative (b.fraction.1 * num) (b.fraction.2 * den)
  | r => r

/-- Order of numbers; what is no number stands in no order. -/
def le : Real → Real → Bool
  | .finite a, .finite b => a.quotient.1 * b.quotient.2 ≤ b.quotient.1 * a.quotient.2
  | .infinite s, .infinite t => s || !t
  | .infinite s, .finite _ => s
  | .finite _, .infinite t => !t
  | _, _ => false

end Real

/-! ### Decimal digits -/

namespace Binary

/-- How many digits stand before the decimal point; negative when zeros follow the point. -/
def pointAt (b : Binary) : Int :=
  ((Nat.repr (b.fraction.1 * Nat.pow 10 400 / b.fraction.2)).length : Int) - 400

/-- Four times the distances, in units of the last place, to which a decimal below and above still
reads back as this number. -/
def reach (b : Binary) : Nat × Nat :=
  (if b.mantissa = Nat.pow 2 52 && minExponent < b.exponent then 1 else 2, 2)

/-- Whether `digits · 10 ^ e` reads back as this number. -/
def readsBack (b : Binary) (digits : Nat) (e : Int) : Bool :=
  let grid : Nat × Nat :=
    match e with
    | .ofNat k => (digits * Nat.pow 10 k, 1)
    | .negSucc k => (digits, Nat.pow 10 (k + 1))
  -- four times the decimal in units of the last place, against four times the mantissa
  let scaled := overPower (4 * grid.1) grid.2 b.exponent
  let low := (4 * b.mantissa - b.reach.1) * scaled.2
  let high := (4 * b.mantissa + b.reach.2) * scaled.2
  if b.mantissa % 2 = 0 then low ≤ scaled.1 && scaled.1 ≤ high
  else low < scaled.1 && scaled.1 < high

/-- The number on a grid of decimals that is nearest to this one and reads back, if there is one.
The grid has steps of `10 ^ e`. -/
def onGrid? (b : Binary) (e : Int) : Option Nat :=
  let scaled : Nat × Nat :=
    match e with
    | .ofNat k => (b.fraction.1, b.fraction.2 * Nat.pow 10 k)
    | .negSucc k => (b.fraction.1 * Nat.pow 10 (k + 1), b.fraction.2)
  let near := roundHalfEven scaled.1 scaled.2
  let below := scaled.1 / scaled.2
  [near, below, below + 1].find? (b.readsBack · e)

/-- The decimal with the fewest digits, `n` at least, that reads back as this number. -/
def shortestFrom (b : Binary) : (fuel n : Nat) → Decimal
  | 0, n => ⟨b.negative, roundHalfEven b.fraction.1 b.fraction.2 * Nat.pow 10 n, -n⟩
  | fuel + 1, n =>
    let e := b.pointAt - n
    match b.onGrid? e with
    | some digits => ⟨b.negative, digits, e⟩
    | none => b.shortestFrom fuel (n + 1)

/-- The decimal with the fewest digits that reads back as this number; seventeen are enough. -/
def shortest (b : Binary) : Decimal :=
  if b.isZero then ⟨b.negative, 0, 0⟩ else b.shortestFrom 17 1

end Binary

/-- The text of a number. -/
def Real.text : Real → String
  | .finite b => b.shortest.text
  | .infinite false => "inf"
  | .infinite true => "-inf"
  | .undefined => "nan"

end EmbeddedSql
