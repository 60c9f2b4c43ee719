/-
**Skipping pairs, and counting backslashes.**

The search for the quote that closes a string takes a backslash and the character behind it in one
step and never looks at that character.  R says it the other way round: a quote is escaped if an odd
number of backslashes stands right before it.  The two agree because a step over a pair cannot
change the parity.  Backslashes that end the text behind the pair are counted without it, unless
they reach back to it, and then the pair adds both of its characters or none.

Main definitions:

* `Text.backslashes` — how many backslashes a text ends with;
* `Literal.Unescaped` — an offset of a quote behind an even number of backslashes;
* `Literal.ClosesAt` — such an offset between the start of a content and a limit.

Main results:

* `Text.even_backslashes_pair` — a pair in front does not change the parity;
* `Literal.unescaped_of_closingDistance?`, `Literal.exists_closingDistance?_le` — the search ends at
  an unescaped quote, and it passes over none;
* `Literal.closing_by_parity` — **the search finds the first quote behind an even number of
  backslashes**, and nothing if there is none.
-/

import EmbeddedSql.Proofs.Literal.Scan
import Mathlib.Algebra.Group.Nat.Even
import Mathlib.Order.Bounds.Basic

set_option relaxedAutoImplicit false
set_option autoImplicit false

namespace EmbeddedSql

namespace Text

/-! ### Backslashes at the end -/

/-- How many backslashes a text ends with. -/
def backslashes (t : Text) : Nat :=
  (t.reverse.takeWhile (· == '\\')).length

@[simp] theorem backslashes_nil : backslashes [] = 0 := rfl

theorem backslashes_cons (c : Char) (t : Text) :
    backslashes (c :: t) =
      if backslashes t = t.length ∧ c = '\\' then t.length + 1 else backslashes t := by
  unfold backslashes
  rw [List.reverse_cons, List.takeWhile_append, List.length_reverse]
  by_cases hall : (t.reverse.takeWhile (· == '\\')).length = t.length
  · by_cases hc : c = '\\' <;> simp [hall, hc]
  · simp [hall]

theorem backslashes_cons_of_ne {c : Char} (h : c ≠ '\\') (t : Text) :
    backslashes (c :: t) = backslashes t := by
  simp [backslashes_cons, h]

/-- A backslash and any character behind it do not change the parity. -/
theorem even_backslashes_pair (d : Char) (t : Text) :
    Even (backslashes ('\\' :: d :: t)) ↔ Even (backslashes t) := by
  by_cases hall : backslashes t = t.length
  · by_cases hd : d = '\\'
    · -- both characters belong to the run
      have hrun : backslashes ('\\' :: d :: t) = backslashes t + 2 := by
        simp [backslashes_cons, hall, hd]
      rw [hrun, Nat.even_iff, Nat.even_iff, Nat.add_mod_right]
    · -- the run ends in front of `d`
      have hrun : backslashes ('\\' :: d :: t) = backslashes t := by
        simp [backslashes_cons, hall, hd]
      rw [hrun]
  · -- the run does not reach back to the pair
    have hrest : backslashes (d :: t) = backslashes t := by
      simp [backslashes_cons, hall]
    have hshort : backslashes t ≠ (d :: t).length := by
      have hle : backslashes t ≤ t.length := by
        simpa [backslashes] using (List.takeWhile_sublist (· == '\\') (l := t.reverse)).length_le
      simp only [List.length_cons]
      omega
    have hrun : backslashes ('\\' :: d :: t) = backslashes t := by
      rw [backslashes_cons, hrest, if_neg fun h => hshort h.1]
    rw [hrun]

end Text

namespace Literal

open Text

variable {quote : Char} {t : Text}

/-! ### Unescaped quotes -/

/-- A quote behind an even number of backslashes. -/
def Unescaped (quote : Char) (t : Text) (n : Nat) : Prop :=
  t[n]? = some quote ∧ Even (backslashes (t.take n))

theorem unescaped_zero_iff : Unescaped quote t 0 ↔ t.head? = some quote := by
  simp [Unescaped, List.head?_eq_getElem?]

/-- A backslash and the character behind it are no quotes that count. -/
theorem unescaped_pair_iff (h : quote ≠ '\\') {d : Char} {k : Nat} :
    Unescaped quote ('\\' :: d :: t) k ↔ ∃ n, k = n + 2 ∧ Unescaped quote t n := by
  rcases k with _ | _ | n
  · simp [Unescaped, h.symm]
  · simp [Unescaped, backslashes_cons, Nat.not_even_one]
  · simp [Unescaped, even_backslashes_pair]

theorem unescaped_succ_iff {c : Char} (h : c ≠ '\\') {n : Nat} :
    Unescaped quote (c :: t) (n + 1) ↔ Unescaped quote t n := by
  simp [Unescaped, backslashes_cons_of_ne h]

/-- The search ends at an unescaped quote. -/
theorem unescaped_of_closingDistance? (h : quote ≠ '\\') {n : Nat}
    (hn : closingDistance? quote t = some n) : Unescaped quote t n := by
  fun_induction closingDistance? quote t generalizing n with
  | case1 => simp at hn
  | case2 => simp at hn
  | case3 d rest ih =>
      obtain ⟨k, hk, rfl⟩ := Option.map_eq_some_iff.1 hn
      exact (unescaped_pair_iff h).2 ⟨k, rfl, ih hk⟩
  | case4 =>
      obtain rfl : 0 = n := by simpa using hn
      simp [unescaped_zero_iff]
  | case5 c rest hc _ ih =>
      obtain ⟨k, hk, rfl⟩ := Option.map_eq_some_iff.1 hn
      exact (unescaped_succ_iff hc).2 (ih hk)

/-- The search passes over no unescaped quote. -/
theorem exists_closingDistance?_le (h : quote ≠ '\\') {k : Nat} (hk : Unescaped quote t k) :
    ∃ n ≤ k, closingDistance? quote t = some n := by
  fun_induction closingDistance? quote t generalizing k with
  | case1 => simp [Unescaped] at hk
  | case2 =>
      cases k with
      | zero => exact absurd (unescaped_zero_iff.1 hk) (by simp [h.symm])
      | succ k => simp [Unescaped] at hk
  | case3 d rest ih =>
      obtain ⟨j, rfl, hj⟩ := (unescaped_pair_iff h).1 hk
      obtain ⟨n, hn, heq⟩ := ih hj
      exact ⟨n + 2, by omega, by simp [heq]⟩
  | case4 => exact ⟨0, Nat.zero_le k, rfl⟩
  | case5 c rest hc hq ih =>
      cases k with
      | zero => exact absurd (unescaped_zero_iff.1 hk) (by simpa using hq)
      | succ k =>
          obtain ⟨n, hn, heq⟩ := ih ((unescaped_succ_iff hc).1 hk)
          exact ⟨n + 1, by omega, by simp [heq]⟩

/-! ### Closing quotes -/

/-- An offset between `start` and a limit at which a quote stands behind an even number of
backslashes.  Those before `start` do not count. -/
structure ClosesAt (text : Text) (start : Nat) (quote : Char) (limit : Int) (offset : Nat) :
    Prop where
  start_le : start ≤ offset
  lt_limit : (offset : Int) < min limit text.length
  quote_eq : text[offset]? = some quote
  even : Even (backslashes (text.slice start offset))

/-- In the part of a text between `start` and the limit such an offset is an unescaped quote. -/
theorem closesAt_iff {text : Text} {start : Nat} {limit : Int} {offset : Nat} :
    ClosesAt text start quote limit offset ↔
      ∃ n, offset = start + n ∧ Unescaped quote (text.slice start limit.toNat) n := by
  have htake : ∀ {n}, n < limit.toNat - start →
      (text.slice start limit.toNat).take n = text.slice start (start + n) := by
    intro n hn
    rw [slice, slice, List.take_take, Nat.min_eq_left (Nat.le_of_lt hn), Nat.add_sub_cancel_left]
  have hget : ∀ {n}, n < limit.toNat - start →
      (text.slice start limit.toNat)[n]? = text[start + n]? := by
    intro n hn
    rw [getElem?_slice, if_pos hn]
  constructor
  · rintro ⟨hstart, hlimit, hquote, heven⟩
    obtain ⟨n, rfl⟩ := Nat.exists_eq_add_of_le hstart
    have hn : n < limit.toNat - start := by omega
    exact ⟨n, rfl, by rw [hget hn, hquote], by rw [htake hn]; exact heven⟩
  · rintro ⟨n, rfl, hquote, heven⟩
    obtain ⟨hlength, -⟩ := List.getElem?_eq_some_iff.1 hquote
    rw [length_slice] at hlength
    have hn : n < limit.toNat - start := by omega
    rw [htake hn] at heven
    rw [hget hn] at hquote
    exact ⟨Nat.le_add_right start n, by omega, hquote, heven⟩

/-- **The quote that closes a string is the first one behind an even number of backslashes**,
counted from where the content starts.  There is none before the limit exactly when nothing is
found; a negative limit leaves nothing to search. -/
theorem closing_by_parity (text : Text) (start : Nat) {quote : Char} (h : quote ≠ '\\')
    (limit : Int) :
    (∀ r, closingQuote? text start quote limit.toNat = some r ↔
      IsLeast {offset | ClosesAt text start quote limit offset} r) ∧
    (closingQuote? text start quote limit.toNat = none ↔
      ∀ offset, ¬ ClosesAt text start quote limit offset) := by
  have hfound : ∀ r, closingQuote? text start quote limit.toNat = some r →
      IsLeast {offset | ClosesAt text start quote limit offset} r := by
    intro r hr
    obtain ⟨n, hn, rfl⟩ := Option.map_eq_some_iff.1 hr
    refine ⟨closesAt_iff.2 ⟨n, rfl, unescaped_of_closingDistance? h hn⟩, ?_⟩
    intro offset hoffset
    obtain ⟨k, rfl, hk⟩ := closesAt_iff.1 hoffset
    obtain ⟨n', hle, hn'⟩ := exists_closingDistance?_le h hk
    obtain rfl : n = n' := Option.some.inj (hn.symm.trans hn')
    exact Nat.add_le_add_left hle start
  have hany : ∀ offset, ClosesAt text start quote limit offset →
      closingQuote? text start quote limit.toNat ≠ none := by
    intro offset hoffset
    obtain ⟨k, -, hk⟩ := closesAt_iff.1 hoffset
    obtain ⟨n, -, hn⟩ := exists_closingDistance?_le h hk
    simp [closingQuote?, hn]
  constructor
  · intro r
    refine ⟨hfound r, fun hr => ?_⟩
    obtain ⟨r', hr'⟩ := Option.ne_none_iff_exists'.1 (hany r hr.1)
    rw [hr', hr.unique (hfound r' hr')]
  · constructor
    · intro hnone offset hoffset
      exact hany offset hoffset hnone
    · intro hno
      by_contra hsome
      obtain ⟨r, hr⟩ := Option.ne_none_iff_exists'.1 hsome
      exact hno r (hfound r hr).1

/-- Three backslashes hide the first quote behind them, two do not hide the next one, and a limit at
that one leaves none.  For a content that starts behind the first backslash only two of the three
count. -/
theorem closing_by_parity_run :
    let text := "'\\\\\\'\\\\'".toList
    '\'' ≠ '\\' ∧
    (closingQuote? text 1 '\'' 8 = some 7 ∧ IsLeast {offset | ClosesAt text 1 '\'' 8 offset} 7) ∧
    (closingQuote? text 1 '\'' 7 = none ∧ ∀ offset, ¬ ClosesAt text 1 '\'' 7 offset) ∧
    closingQuote? text 2 '\'' 8 = some 4 ∧ IsLeast {offset | ClosesAt text 2 '\'' 8 offset} 4 := by
  intro text
  have hlast : closingQuote? text 1 '\'' 8 = some 7 := by decide +kernel
  have hnone : closingQuote? text 1 '\'' 7 = none := by decide +kernel
  have hfirst : closingQuote? text 2 '\'' 8 = some 4 := by decide +kernel
  have hquote : '\'' ≠ '\\' := by decide
  exact ⟨hquote, ⟨hlast, ((closing_by_parity text 1 hquote 8).1 7).1 hlast⟩,
    ⟨hnone, (closing_by_parity text 1 hquote 7).2.1 hnone⟩,
    hfirst, ((closing_by_parity text 2 hquote 8).1 4).1 hfirst⟩

end Literal

end EmbeddedSql
