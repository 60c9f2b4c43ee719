/-
**Rounding keeps the order.**

A double is found in two steps: the place of the last digit, which grows with the number, and the
whole number of such places that is nearest.  Two numbers with the same last place keep their order
because rounding to whole numbers does; with different ones a power of two lies between them that
both steps leave alone.  Everything computed with one rounding keeps the order too.

Main definitions:

* `Binary.value` — the number that a binary fraction is, with its sign put on by
  `Binary.withSign`;
* `Real.Place` — the last place of a double near a number;
* `Real.rounded` — a quotient rounded to its last place, however large;
* `Real.carry`, `Real.limit` — the fraction a full mantissa is carried over into, and the number
  from which on a quotient rounds to an infinite one.

Main results:

* `roundHalfEven_le_roundHalfEven`, `Real.Place.le` — either step keeps the order;
* `Real.rounded_le_rounded` — **rounding keeps the order**;
* `Real.round_le_round`, `Real.scale_le_scale`, `Real.add_le_add` — so do doubles, their multiples
  and their sums with a third;
* `Real.le_trans` — the order of doubles is transitive.
-/

import EmbeddedSql.Value.Real
import Mathlib.Algebra.Order.Field.Power
import Mathlib.Algebra.Order.Field.Rat
import Mathlib.Tactic.FieldSimp
import Mathlib.Tactic.GCongr
import Mathlib.Tactic.Linarith
import Mathlib.Tactic.Positivity
import Mathlib.Tactic.Ring
import Mathlib.Tactic.SplitIfs

set_option relaxedAutoImplicit false
set_option autoImplicit false

namespace EmbeddedSql

/-! ### Quotients -/

theorem overPower_snd_pos (num : Nat) {den : Nat} (h : 0 < den) (e : Int) :
    0 < (overPower num den e).2 := by
  cases e with
  | ofNat k => exact Nat.mul_pos h (Nat.pow_pos (by decide))
  | negSucc k => exact h

/-- The quotient over a power of two. -/
theorem overPower_div (num den : Nat) (e : Int) :
    ((overPower num den e).1 : ℚ) / (overPower num den e).2 = num / den / 2 ^ e := by
  cases e with
  | ofNat k =>
      simp only [overPower, Nat.pow_eq, Nat.cast_mul, Nat.cast_pow, Nat.cast_ofNat,
        Int.ofNat_eq_natCast, zpow_natCast]
      rw [div_div]
  | negSucc k =>
      simp only [overPower, Nat.pow_eq, Nat.cast_mul, Nat.cast_pow, Nat.cast_ofNat,
        zpow_negSucc, div_inv_eq_mul]
      rw [div_mul_eq_mul_div]

/-- A whole number is compared with the quotient over a power of two. -/
theorem mul_overPower_le_iff (n num : Nat) {den : Nat} (h : 0 < den) (e : Int) :
    n * (overPower num den e).2 ≤ (overPower num den e).1 ↔ (n : ℚ) * 2 ^ e ≤ num / den := by
  have hpos : (0 : ℚ) < (overPower num den e).2 := by exact_mod_cast overPower_snd_pos num h e
  have hpower : (0 : ℚ) < 2 ^ e := by positivity
  rw [← le_div_iff₀ hpower, ← overPower_div, le_div_iff₀ hpos]
  exact_mod_cast Iff.rfl

theorem overPower_le_mul_iff (n num : Nat) {den : Nat} (h : 0 < den) (e : Int) :
    (overPower num den e).1 ≤ n * (overPower num den e).2 ↔ (num : ℚ) / den ≤ n * 2 ^ e := by
  have hpos : (0 : ℚ) < (overPower num den e).2 := by exact_mod_cast overPower_snd_pos num h e
  have hpower : (0 : ℚ) < 2 ^ e := by positivity
  rw [← div_le_iff₀ hpower, ← overPower_div, div_le_iff₀ hpos]
  exact_mod_cast Iff.rfl

/-- Quotients are compared crosswise. -/
theorem div_le_div_iff_mul_le_mul {a b c d : Nat} (hb : 0 < b) (hd : 0 < d) :
    (a : ℚ) / b ≤ c / d ↔ a * d ≤ c * b := by
  rw [div_le_div_iff₀ (by exact_mod_cast hb) (by exact_mod_cast hd)]
  exact_mod_cast Iff.rfl

/-! ### Whole numbers -/

theorem roundHalfEven_le_succ (num den : Nat) : roundHalfEven num den ≤ num / den + 1 := by
  dsimp only [roundHalfEven]
  split <;> omega

theorem div_le_roundHalfEven (num den : Nat) : num / den ≤ roundHalfEven num den := by
  dsimp only [roundHalfEven]
  split <;> omega

/-- The nearest whole number is the upper neighbour. -/
theorem roundHalfEven_eq_succ_iff (num den : Nat) : roundHalfEven num den = num / den + 1 ↔
    den < 2 * (num % den) ∨ den = 2 * (num % den) ∧ (num / den) % 2 = 1 := by
  dsimp only [roundHalfEven]
  split
  · next h =>
      simp only [Bool.or_eq_true, decide_eq_true_eq, Bool.and_eq_true, beq_iff_eq] at h
      omega
  · next h =>
      simp only [Bool.or_eq_true, decide_eq_true_eq, Bool.and_eq_true, beq_iff_eq] at h
      omega

/-- The whole parts of quotients keep their order. -/
theorem div_le_div_of_mul_le_mul {a b c d : Nat} (hb : 0 < b) (hd : 0 < d)
    (h : a * d ≤ c * b) : a / b ≤ c / d := by
  rw [Nat.le_div_iff_mul_le hd]
  refine Nat.le_of_mul_le_mul_right ?_ hb
  calc a / b * d * b = a / b * b * d := by ring
    _ ≤ a * d := Nat.mul_le_mul_right d (Nat.div_mul_le_self a b)
    _ ≤ c * b := h

/-- Quotients with the same whole part are in the order of their remainders. -/
theorem mod_mul_le_mod_mul {a b c d : Nat} (heq : a / b = c / d) (h : a * d ≤ c * b) :
    a % b * d ≤ c % d * b := by
  have ha : a = b * (a / b) + a % b := (Nat.div_add_mod a b).symm
  have hc : c = d * (c / d) + c % d := (Nat.div_add_mod c d).symm
  have hsplit : b * (a / b) * d + a % b * d ≤ d * (a / b) * b + c % d * b := by
    calc b * (a / b) * d + a % b * d = (b * (a / b) + a % b) * d := by ring
      _ = a * d := by rw [← ha]
      _ ≤ c * b := h
      _ = (d * (c / d) + c % d) * b := by rw [← hc]
      _ = d * (a / b) * b + c % d * b := by rw [heq]; ring
  have hsame : b * (a / b) * d = d * (a / b) * b := by ring
  omega

/-- With the same whole part, a larger quotient is rounded up where a smaller one is. -/
theorem roundHalfEven_eq_succ_of_le {a b c d : Nat} (hb : 0 < b) (hd : 0 < d)
    (heq : a / b = c / d) (h : a * d ≤ c * b) (hup : roundHalfEven a b = a / b + 1) :
    roundHalfEven c d = c / d + 1 := by
  have hdouble : 2 * (a % b) * d ≤ 2 * (c % d) * b := by
    rw [Nat.mul_assoc, Nat.mul_assoc]
    exact Nat.mul_le_mul_left 2 (mod_mul_le_mod_mul heq h)
  rw [roundHalfEven_eq_succ_iff] at hup ⊢
  rw [← heq]
  rcases hup with hgt | ⟨hhalf, hodd⟩
  · refine Or.inl (Nat.lt_of_mul_lt_mul_right (a := b) ?_)
    calc d * b = b * d := Nat.mul_comm d b
      _ < 2 * (a % b) * d := Nat.mul_lt_mul_of_pos_right hgt hd
      _ ≤ 2 * (c % d) * b := hdouble
  · rw [← hhalf, Nat.mul_comm b d] at hdouble
    rcases Nat.lt_or_eq_of_le (Nat.le_of_mul_le_mul_right hdouble hb) with hlt | heq'
    · exact Or.inl hlt
    · exact Or.inr ⟨heq', hodd⟩

/-- Rounding to whole numbers keeps the order. -/
theorem roundHalfEven_le_roundHalfEven {a b c d : Nat} (hb : 0 < b) (hd : 0 < d)
    (h : a * d ≤ c * b) : roundHalfEven a b ≤ roundHalfEven c d := by
  have hge := div_le_roundHalfEven c d
  have hle := roundHalfEven_le_succ a b
  rcases Nat.lt_or_eq_of_le (div_le_div_of_mul_le_mul hb hd h) with hlt | heq
  · omega
  · -- the remainders decide, and their order is that of the quotients
    by_cases hup : roundHalfEven a b = a / b + 1
    · have hup' := roundHalfEven_eq_succ_of_le hb hd heq h hup
      omega
    · omega

/-! ### The last place -/

namespace Real

/-- The last place of a double near a positive number: as small as there is, or such that the number
has fifty-three binary digits. -/
structure Place (x : ℚ) (e : Int) : Prop where
  least : Binary.minExponent ≤ e
  lt_zpow : x < 2 ^ (e + 53)
  zpow_le : Binary.minExponent < e → (2 : ℚ) ^ (e + 52) ≤ x

/-- A larger number has no smaller last place. -/
theorem Place.le {x y : ℚ} {e e' : Int} (hx : Place x e) (hy : Place y e') (h : x ≤ y) :
    e ≤ e' := by
  by_contra hlt
  have hmin := hy.least
  have hpower : (2 : ℚ) ^ (e' + 53) ≤ 2 ^ (e + 52) :=
    zpow_le_zpow_right₀ (by norm_num) (by omega)
  exact absurd h (not_le.2 (hy.lt_zpow.trans_le (hpower.trans (hx.zpow_le (by omega)))))

/-- The powers of two next to a number. -/
theorem zpow_log2_le {n : Nat} (h : n ≠ 0) : (2 : ℚ) ^ (Nat.log2 n : Int) ≤ n := by
  rw [zpow_natCast]
  exact_mod_cast Nat.log2_self_le h

theorem lt_zpow_log2 (n : Nat) : (n : ℚ) < 2 ^ ((Nat.log2 n : Int) + 1) := by
  have hlt : n < 2 ^ (Nat.log2 n + 1) := Nat.lt_log2_self
  exact_mod_cast hlt

/-- A quotient lies between the powers of two that its digits tell. -/
theorem zpow_lt_div {num den : Nat} (hnum : num ≠ 0) (hden : 0 < den) :
    (2 : ℚ) ^ ((Nat.log2 num : Int) - Nat.log2 den - 1) < num / den := by
  have hpos : (0 : ℚ) < den := by exact_mod_cast hden
  rw [lt_div_iff₀ hpos]
  calc (2 : ℚ) ^ ((Nat.log2 num : Int) - Nat.log2 den - 1) * den
      < 2 ^ ((Nat.log2 num : Int) - Nat.log2 den - 1) * 2 ^ ((Nat.log2 den : Int) + 1) := by
        gcongr
        exact lt_zpow_log2 den
    _ = 2 ^ (Nat.log2 num : Int) := by
        rw [← zpow_add₀ two_ne_zero]
        congr 1
        ring
    _ ≤ num := zpow_log2_le hnum

theorem div_lt_zpow {num den : Nat} (hden : 0 < den) :
    (num : ℚ) / den < 2 ^ ((Nat.log2 num : Int) - Nat.log2 den + 1) := by
  have hpos : (0 : ℚ) < den := by exact_mod_cast hden
  rw [div_lt_iff₀ hpos]
  calc (num : ℚ) < 2 ^ ((Nat.log2 num : Int) + 1) := lt_zpow_log2 num
    _ = 2 ^ ((Nat.log2 num : Int) - Nat.log2 den + 1) * 2 ^ (Nat.log2 den : Int) := by
        rw [← zpow_add₀ two_ne_zero]
        congr 1
        ring
    _ ≤ 2 ^ ((Nat.log2 num : Int) - Nat.log2 den + 1) * den := by
        gcongr
        exact zpow_log2_le (Nat.pos_iff_ne_zero.1 hden)

theorem zpow_fiftyThree (e : Int) : (2 : ℚ) ^ (e + 53) = (2 ^ 53 : Nat) * 2 ^ e := by
  rw [add_comm, zpow_add₀ two_ne_zero]
  norm_num

theorem zpow_fiftyTwo (e : Int) : (2 : ℚ) ^ (e + 52) = (2 ^ 52 : Nat) * 2 ^ e := by
  rw [add_comm, zpow_add₀ two_ne_zero]
  norm_num

/-- The last place that is computed is the last place. -/
theorem place_lastPlace {num den : Nat} (hnum : num ≠ 0) (hden : 0 < den) :
    Place (num / den) (lastPlace num den) := by
  set e : Int := (Nat.log2 num : Int) - Nat.log2 den - 53 with he
  set e' : Int := if (overPower num den e).2 * Nat.pow 2 53 ≤ (overPower num den e).1 then e + 1
    else e with he'
  have hplace : lastPlace num den = max Binary.minExponent e' := rfl
  have hlower : (2 : ℚ) ^ (e + 52) < num / den := by
    have hdiv := zpow_lt_div hnum hden
    rwa [show (Nat.log2 num : Int) - Nat.log2 den - 1 = e + 52 by omega] at hdiv
  have hupper : (num : ℚ) / den < 2 ^ (e + 54) := by
    have hdiv := @div_lt_zpow num den hden
    rwa [show (Nat.log2 num : Int) - Nat.log2 den + 1 = e + 54 by omega] at hdiv
  have htest : (overPower num den e).2 * Nat.pow 2 53 ≤ (overPower num den e).1 ↔
      (2 : ℚ) ^ (e + 53) ≤ num / den := by
    rw [zpow_fiftyThree, ← mul_overPower_le_iff _ num hden e, Nat.mul_comm]
    rfl
  have hbounds : (num : ℚ) / den < 2 ^ (e' + 53) ∧ (2 : ℚ) ^ (e' + 52) ≤ num / den := by
    rw [he']
    split
    · next h =>
        rw [htest] at h
        rw [show e + 1 + 53 = e + 54 by ring, show e + 1 + 52 = e + 53 by ring]
        exact ⟨hupper, h⟩
    · next h =>
        rw [htest, not_le] at h
        exact ⟨h, hlower.le⟩
  refine ⟨?_, ?_, ?_⟩
  · rw [hplace]
    exact le_max_left _ _
  · refine hbounds.1.trans_le (zpow_le_zpow_right₀ (by norm_num) ?_)
    have hle : e' ≤ lastPlace num den := hplace ▸ le_max_right _ _
    omega
  · intro hlt
    have hsame : lastPlace num den = e' := by omega
    rw [hsame]
    exact hbounds.2

/-! ### Rounded quotients -/

/-- A quotient rounded to its last place, however large. -/
def rounded (num den : Nat) : ℚ :=
  roundHalfEven (overPower num den (lastPlace num den)).1
    (overPower num den (lastPlace num den)).2 * 2 ^ lastPlace num den

/-- Rounding to places leaves whole numbers of them alone. -/
theorem le_roundHalfEven_overPower {n num den : Nat} (hden : 0 < den) {e : Int}
    (h : (n : ℚ) * 2 ^ e ≤ num / den) :
    n ≤ roundHalfEven (overPower num den e).1 (overPower num den e).2 := by
  have hpos := overPower_snd_pos num hden e
  have hle := roundHalfEven_le_roundHalfEven hpos hpos
    (Nat.mul_le_mul_right (overPower num den e).2 ((mul_overPower_le_iff n num hden e).2 h))
  rwa [roundHalfEven_mul n hpos] at hle

theorem roundHalfEven_overPower_le {n num den : Nat} (hden : 0 < den) {e : Int}
    (h : (num : ℚ) / den ≤ n * 2 ^ e) :
    roundHalfEven (overPower num den e).1 (overPower num den e).2 ≤ n := by
  have hpos := overPower_snd_pos num hden e
  have hle := roundHalfEven_le_roundHalfEven hpos hpos
    (Nat.mul_le_mul_right (overPower num den e).2 ((overPower_le_mul_iff n num hden e).2 h))
  rwa [roundHalfEven_mul n hpos] at hle

/-- The mantissa of a double has at most fifty-three binary digits. -/
theorem roundHalfEven_le_fiftyThree {num den : Nat} (hnum : num ≠ 0) (hden : 0 < den) :
    roundHalfEven (overPower num den (lastPlace num den)).1
      (overPower num den (lastPlace num den)).2 ≤ 2 ^ 53 := by
  refine roundHalfEven_overPower_le hden ?_
  rw [← zpow_fiftyThree]
  exact (place_lastPlace hnum hden).lt_zpow.le

/-- It has that many unless the last place is as small as there is. -/
theorem fiftyTwo_le_roundHalfEven {num den : Nat} (hnum : num ≠ 0) (hden : 0 < den)
    (h : Binary.minExponent < lastPlace num den) :
    2 ^ 52 ≤ roundHalfEven (overPower num den (lastPlace num den)).1
      (overPower num den (lastPlace num den)).2 := by
  refine le_roundHalfEven_overPower hden ?_
  rw [← zpow_fiftyTwo]
  exact (place_lastPlace hnum hden).zpow_le h

theorem roundHalfEven_zero (den : Nat) : roundHalfEven 0 den = 0 := by
  cases den <;> simp [roundHalfEven]

theorem rounded_zero (den : Nat) : rounded 0 den = 0 := by
  have hzero : (overPower 0 den (lastPlace 0 den)).1 = 0 := by
    cases lastPlace 0 den <;> simp [overPower]
  rw [rounded, hzero, roundHalfEven_zero, Nat.cast_zero, zero_mul]

theorem rounded_nonneg (num den : Nat) : 0 ≤ rounded num den := by
  unfold rounded
  positivity

/-- **Rounding keeps the order.** -/
theorem rounded_le_rounded {a b c d : Nat} (hb : 0 < b) (hd : 0 < d)
    (h : (a : ℚ) / b ≤ c / d) : rounded a b ≤ rounded c d := by
  by_cases ha : a = 0
  · rw [ha, rounded_zero]
    exact rounded_nonneg c d
  have hc : c ≠ 0 := by
    rintro rfl
    have hpos : (0 : ℚ) < a / b := by positivity
    simp only [Nat.cast_zero, zero_div] at h
    exact absurd h (not_le.2 hpos)
  have hplace := (place_lastPlace ha hb).le (place_lastPlace hc hd) h
  unfold rounded
  rcases hplace.lt_or_eq with hlt | heq
  · -- a power of two lies between the numbers
    have hmin := (place_lastPlace ha hb).least
    have hbelow := roundHalfEven_le_fiftyThree ha hb
    have habove := fiftyTwo_le_roundHalfEven hc hd (by omega)
    calc _ ≤ ((2 ^ 53 : Nat) : ℚ) * 2 ^ lastPlace a b := by gcongr
      _ = 2 ^ (lastPlace a b + 53) := (zpow_fiftyThree _).symm
      _ ≤ 2 ^ (lastPlace c d + 52) := zpow_le_zpow_right₀ (by norm_num) (by omega)
      _ = ((2 ^ 52 : Nat) : ℚ) * 2 ^ lastPlace c d := zpow_fiftyTwo _
      _ ≤ _ := by gcongr
  · rw [← heq]
    have hb' := overPower_snd_pos a hb (lastPlace a b)
    have hd' := overPower_snd_pos c hd (lastPlace a b)
    have hle : roundHalfEven (overPower a b (lastPlace a b)).1 (overPower a b (lastPlace a b)).2 ≤
        roundHalfEven (overPower c d (lastPlace a b)).1 (overPower c d (lastPlace a b)).2 := by
      refine roundHalfEven_le_roundHalfEven hb' hd' ?_
      rw [← div_le_div_iff_mul_le_mul hb' hd', overPower_div, overPower_div]
      gcongr
    gcongr

/-! ### Doubles -/

end Real

namespace Binary

/-- A number with a sign. -/
def withSign (negative : Bool) (x : ℚ) : ℚ :=
  if negative then -x else x

/-- The number that a binary fraction is. -/
def value (b : Binary) : ℚ :=
  b.quotient.1 / b.quotient.2

theorem quotient_snd_pos (b : Binary) : 0 < b.quotient.2 :=
  overPower_snd_pos b.mantissa Nat.one_pos _

theorem value_eq_withSign (b : Binary) :
    b.value = withSign b.negative ((b.fraction.1 : ℚ) / b.fraction.2) := by
  unfold value quotient signed withSign
  split
  · push_cast
    exact neg_div _ _
  · rfl

theorem value_eq (b : Binary) : b.value = withSign b.negative (b.mantissa * 2 ^ b.exponent) := by
  rw [value_eq_withSign, fraction, overPower_div, Nat.cast_one, div_one, zpow_neg, div_inv_eq_mul]

end Binary

namespace Real

open Binary

/-- Finite doubles are in the order of their numbers. -/
theorem finite_le_finite {a b : Binary} :
    (finite a).le (finite b) = true ↔ a.value ≤ b.value := by
  have ha : (0 : ℚ) < a.quotient.2 := by exact_mod_cast a.quotient_snd_pos
  have hb : (0 : ℚ) < b.quotient.2 := by exact_mod_cast b.quotient_snd_pos
  rw [le, decide_eq_true_iff, value, value, div_le_div_iff₀ ha hb]
  exact_mod_cast Iff.rfl

theorem round_ne_undefined (negative : Bool) (num den : Nat) :
    round negative num den ≠ .undefined := by
  simp only [round, ne_eq]
  split_ifs <;> simp

theorem infinite_le {r : Real} (h : r ≠ undefined) : (infinite true).le r = true := by
  cases r with
  | undefined => exact absurd rfl h
  | _ => rfl

theorem le_infinite {r : Real} (h : r ≠ undefined) : r.le (infinite false) = true := by
  cases r with
  | undefined => exact absurd rfl h
  | finite b => rfl
  | infinite s => cases s <;> rfl

/-- What lies between finite numbers is finite. -/
theorem exists_eq_finite {a b : Binary} {r : Real} (hlow : (finite a).le r = true)
    (hhigh : r.le (finite b) = true) : ∃ c, r = finite c := by
  cases r with
  | finite c => exact ⟨c, rfl⟩
  | infinite s =>
      obtain rfl : s = false := by simpa [le] using hlow
      cases hhigh
  | undefined => cases hlow

/-- The order of doubles is transitive. -/
theorem le_trans {a b c : Real} (hab : a.le b = true) (hbc : b.le c = true) : a.le c = true := by
  cases a with
  | undefined => cases hab
  | finite x =>
      cases b with
      | undefined => cases hab
      | finite y =>
          cases c with
          | undefined => cases hbc
          | finite z =>
              exact finite_le_finite.2 ((finite_le_finite.1 hab).trans (finite_le_finite.1 hbc))
          | infinite u => exact hbc
      | infinite t =>
          obtain rfl : t = false := by simpa [le] using hab
          cases c with
          | infinite u => simpa [le] using hbc
          | _ => cases hbc
  | infinite s =>
      cases s with
      | true =>
          refine infinite_le ?_
          rintro rfl
          cases b <;> cases hbc
      | false =>
          cases b with
          | infinite t =>
              obtain rfl : t = false := by simpa [le] using hab
              exact hbc
          | _ => cases hab

/-- The binary fraction with some mantissa and last place; a full mantissa is carried over into the
next place. -/
def carry (negative : Bool) (m : Nat) (e : Int) : Binary :=
  if m = Nat.pow 2 53 then ⟨negative, Nat.pow 2 52, e + 1⟩ else ⟨negative, m, e⟩

theorem carry_negative (negative : Bool) (m : Nat) (e : Int) :
    (carry negative m e).negative = negative := by
  unfold carry
  split <;> rfl

theorem value_carry (negative : Bool) (m : Nat) (e : Int) :
    (carry negative m e).value = withSign negative (m * 2 ^ e) := by
  unfold carry
  split
  · next h =>
      rw [value_eq, h]
      congr 1
      rw [zpow_add₀ two_ne_zero]
      norm_num
      ring
  · exact value_eq _

/-- The least number that rounds to none but an infinite one. -/
def limit : ℚ := 2 ^ (1024 : Int)

theorem limit_pos : 0 < limit := by
  unfold limit
  positivity

/-- What is too large is told by the exponent. -/
theorem lt_exponent_carry_iff (negative : Bool) {m : Nat} {e : Int} (hbelow : m ≤ 2 ^ 53)
    (habove : minExponent < e → 2 ^ 52 ≤ m) :
    971 < (carry negative m e).exponent ↔ limit ≤ m * 2 ^ e := by
  unfold carry limit
  split
  · next h =>
      have hm : (m : ℚ) * 2 ^ e = 2 ^ (e + 53) := by rw [h, zpow_fiftyThree, Nat.pow_eq]
      rw [hm, zpow_le_zpow_iff_right₀ (by norm_num)]
      dsimp only
      omega
  · next h =>
      have hlt : m < 2 ^ 53 := Nat.lt_of_le_of_ne hbelow h
      dsimp only
      constructor
      · intro he
        have hmin : minExponent < e := lt_trans (by decide) he
        calc (2 : ℚ) ^ (1024 : Int) ≤ 2 ^ (e + 52) := zpow_le_zpow_right₀ (by norm_num) (by omega)
          _ = ((2 ^ 52 : Nat) : ℚ) * 2 ^ e := zpow_fiftyTwo e
          _ ≤ m * 2 ^ e := by
              have hm := habove hmin
              gcongr
      · intro hle
        by_contra he
        have hupper : (m : ℚ) * 2 ^ e < 2 ^ (1024 : Int) := by
          calc (m : ℚ) * 2 ^ e < ((2 ^ 53 : Nat) : ℚ) * 2 ^ e := by gcongr
            _ = 2 ^ (e + 53) := (zpow_fiftyThree e).symm
            _ ≤ 2 ^ (1024 : Int) := zpow_le_zpow_right₀ (by norm_num) (by omega)
        exact absurd hle (not_le.2 hupper)

/-- What a rounded quotient is as a double. -/
theorem round_cases (negative : Bool) (num : Nat) {den : Nat} (hden : 0 < den) :
    (limit ≤ rounded num den ∧ round negative num den = infinite negative) ∨
      ∃ b, round negative num den = finite b ∧ b.value = withSign negative (rounded num den) ∧
        rounded num den < limit := by
  by_cases hnum : num = 0
  · subst hnum
    refine Or.inr ⟨zero negative, if_pos rfl, ?_, ?_⟩
    · rw [value_eq, rounded_zero, zero, Nat.cast_zero, zero_mul]
    · rw [rounded_zero]
      exact limit_pos
  have hbelow := roundHalfEven_le_fiftyThree hnum hden
  have habove := fiftyTwo_le_roundHalfEven hnum hden
  have hround : round negative num den =
      let b := carry negative (roundHalfEven (overPower num den (lastPlace num den)).1
        (overPower num den (lastPlace num den)).2) (lastPlace num den)
      if 971 < b.exponent then .infinite negative
      else if b.mantissa = 0 then .finite (.zero negative) else .finite b := if_neg hnum
  rw [hround, rounded]
  generalize roundHalfEven _ _ = m at *
  generalize lastPlace num den = e at *
  have hvalue := value_carry negative m e
  have hlarge := lt_exponent_carry_iff negative hbelow habove
  dsimp only
  split
  · next h => exact Or.inl ⟨hlarge.1 h, rfl⟩
  · next h =>
      have hsmall : (m : ℚ) * 2 ^ e < limit := not_le.1 fun hle => h (hlarge.2 hle)
      split
      · next hzero =>
          refine Or.inr ⟨_, rfl, ?_, hsmall⟩
          rw [← hvalue, value_eq, value_eq, hzero, carry_negative, zero, Nat.cast_zero, zero_mul,
            zero_mul]
      · exact Or.inr ⟨_, rfl, hvalue, hsmall⟩

/-! ### Order -/

/-- Rounding keeps the order of numbers with signs. -/
theorem withSign_rounded_le {s t : Bool} {a b c d : Nat} (hb : 0 < b) (hd : 0 < d)
    (h : withSign s ((a : ℚ) / b) ≤ withSign t (c / d)) :
    withSign s (rounded a b) ≤ withSign t (rounded c d) := by
  have hab : (0 : ℚ) ≤ a / b := by positivity
  have hcd : (0 : ℚ) ≤ c / d := by positivity
  cases s <;> cases t <;> simp only [withSign, Bool.false_eq_true, if_false, if_true] at h ⊢
  · exact rounded_le_rounded hb hd h
  · -- both numbers are zero
    have hab' : rounded a b ≤ rounded 0 1 := rounded_le_rounded hb Nat.one_pos (by simp; linarith)
    have hcd' : rounded c d ≤ rounded 0 1 := rounded_le_rounded hd Nat.one_pos (by simp; linarith)
    rw [rounded_zero] at hab' hcd'
    linarith
  · linarith [rounded_nonneg a b, rounded_nonneg c d]
  · exact neg_le_neg (rounded_le_rounded hd hb (neg_le_neg_iff.1 h))

/-- A sign makes no nonnegative number larger, and none smaller than its negative. -/
theorem withSign_le {x : ℚ} (hx : 0 ≤ x) (s : Bool) : withSign s x ≤ x := by
  cases s
  · exact le_refl x
  · exact neg_le_self hx

theorem neg_le_withSign {x : ℚ} (hx : 0 ≤ x) (s : Bool) : -x ≤ withSign s x := by
  cases s
  · exact neg_le_self hx
  · exact le_refl (-x)

/-- Doubles keep the order of the quotients they are nearest to. -/
theorem round_le_round {s t : Bool} {a b c d : Nat} (hb : 0 < b) (hd : 0 < d)
    (h : withSign s ((a : ℚ) / b) ≤ withSign t (c / d)) :
    (round s a b).le (round t c d) = true := by
  have hle := withSign_rounded_le hb hd h
  rcases round_cases s a hb with ⟨hlarge, hround⟩ | ⟨x, hround, hvalue, hsmall⟩
  · cases s with
    | true => exact hround ▸ infinite_le (round_ne_undefined t c d)
    | false =>
        -- the other quotient is as large, which leaves it no sign and no finite double
        have hother : limit ≤ withSign t (rounded c d) := hlarge.trans hle
        rcases round_cases t c hd with ⟨-, hround'⟩ | ⟨y, -, -, hsmall'⟩
        · cases t with
          | false => rw [hround, hround']; rfl
          | true =>
              have hneg : limit ≤ -rounded c d := hother
              linarith [limit_pos, rounded_nonneg c d]
        · exact absurd (hother.trans (withSign_le (rounded_nonneg c d) t)) (not_le.2 hsmall')
  · rcases round_cases t c hd with ⟨hlarge', hround'⟩ | ⟨y, hround', hvalue', -⟩
    · cases t with
      | false => exact hround' ▸ le_infinite (round_ne_undefined s a b)
      | true =>
          have hother : withSign s (rounded a b) ≤ -rounded c d := hle
          linarith [neg_le_withSign (rounded_nonneg a b) s]
    · rw [hround, hround', finite_le_finite, hvalue, hvalue']
      exact hle

theorem withSign_natAbs (num : Int) (den : Nat) :
    withSign (decide (num < 0)) ((num.natAbs : ℚ) / den) = num / den := by
  have habs : (num.natAbs : ℚ) = |(num : ℚ)| := by rw [Nat.cast_natAbs, Int.cast_abs]
  rw [withSign, habs]
  split
  · next h =>
      have hneg : (num : ℚ) < 0 := by simpa using h
      rw [abs_of_neg hneg, neg_div, neg_neg]
  · next h =>
      have hnonneg : (0 : ℚ) ≤ num := by simpa using h
      rw [abs_of_nonneg hnonneg]

theorem ofQuotient_le_ofQuotient {a c : Int} {b d : Nat} (hb : 0 < b) (hd : 0 < d)
    (h : (a : ℚ) / b ≤ c / d) : (ofQuotient a b).le (ofQuotient c d) = true := by
  refine round_le_round hb hd ?_
  rwa [withSign_natAbs, withSign_natAbs]

theorem ofInt_le_ofInt {m n : Int} (h : m ≤ n) : (ofInt m).le (ofInt n) = true := by
  refine ofQuotient_le_ofQuotient Nat.one_pos Nat.one_pos ?_
  simpa using h

/-- The exact multiple of a double. -/
theorem withSign_scale (b : Binary) (num den : Nat) :
    withSign b.negative (((b.fraction.1 * num : Nat) : ℚ) / (b.fraction.2 * den : Nat)) =
      b.value * (num / den) := by
  rw [value_eq_withSign, Nat.cast_mul, Nat.cast_mul, mul_div_mul_comm]
  unfold withSign
  split
  · rw [neg_mul]
  · rfl

/-- Doubles keep their order when they are multiplied. -/
theorem scale_le_scale {r t : Real} (h : r.le t = true) (num : Nat) {den : Nat} (hden : 0 < den) :
    (r.scale num den).le (t.scale num den) = true := by
  cases r with
  | undefined => cases h
  | infinite s =>
      cases t with
      | undefined => cases h
      | infinite u => exact h
      | finite b =>
          obtain rfl : s = true := h
          exact infinite_le (round_ne_undefined _ _ _)
  | finite a =>
      cases t with
      | undefined => cases h
      | infinite u =>
          obtain rfl : u = false := by simpa [le] using h
          exact le_infinite (round_ne_undefined _ _ _)
      | finite b =>
          have ha : 0 < a.fraction.2 := overPower_snd_pos _ Nat.one_pos _
          have hb : 0 < b.fraction.2 := overPower_snd_pos _ Nat.one_pos _
          refine round_le_round (Nat.mul_pos ha hden) (Nat.mul_pos hb hden) ?_
          rw [withSign_scale, withSign_scale]
          have hle := finite_le_finite.1 h
          gcongr

/-- The exact sum of two doubles. -/
theorem quotient_add (a b : Binary) :
    ((a.quotient.1 * b.quotient.2 + b.quotient.1 * a.quotient.2 : Int) : ℚ) /
      (a.quotient.2 * b.quotient.2 : Nat) = a.value + b.value := by
  have ha : (a.quotient.2 : ℚ) ≠ 0 := by exact_mod_cast a.quotient_snd_pos.ne'
  have hb : (b.quotient.2 : ℚ) ≠ 0 := by exact_mod_cast b.quotient_snd_pos.ne'
  unfold value
  push_cast
  field_simp

/-- A sum with an infinite number is that number, if it is one at all. -/
theorem add_infinite {r : Real} {u : Bool} (h : r.add (infinite u) ≠ undefined) :
    r.add (infinite u) = infinite u := by
  cases r with
  | undefined => exact absurd rfl h
  | finite x => rfl
  | infinite s =>
      simp only [add] at h ⊢
      split
      · next hs => rw [hs]
      · next hs => exact absurd (if_neg hs) h

/-- Doubles keep their order when one is added to them. -/
theorem add_le_add {a b : Real} (h : a.le b = true) {c : Real} (ha : a.add c ≠ undefined)
    (hb : b.add c ≠ undefined) : (a.add c).le (b.add c) = true := by
  cases c with
  | undefined => cases a <;> exact absurd rfl ha
  | infinite u =>
      rw [add_infinite ha, add_infinite hb]
      cases u <;> rfl
  | finite z =>
      cases a with
      | undefined => cases h
      | infinite s =>
          cases b with
          | undefined => cases h
          | infinite t => exact h
          | finite y =>
              obtain rfl : s = true := h
              exact infinite_le hb
      | finite x =>
          cases b with
          | undefined => cases h
          | infinite t =>
              obtain rfl : t = false := by simpa [le] using h
              exact le_infinite ha
          | finite y =>
              refine ofQuotient_le_ofQuotient (Nat.mul_pos x.quotient_snd_pos z.quotient_snd_pos)
                (Nat.mul_pos y.quotient_snd_pos z.quotient_snd_pos) ?_
              rw [quotient_add, quotient_add]
              have hle := finite_le_finite.1 h
              gcongr

end Real

end EmbeddedSql
