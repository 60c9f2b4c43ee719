/-
**The parenthesis that closes a call.**

The search for the closing parenthesis tells strings and comments apart on its own, character by
character and with a count of the parentheses that are open.  It agrees with the scan for literals:
what it skips are the literals of the stretch that it may look at.  So the parenthesis it finds is
the first one in code before which as many parentheses are opened as closed.

The comparison goes by way of `Literal.Reading.codeOf`.  The search only depends on what a reader
sees of the code (`Bracket.closeDistance?_eq_closeIn`), and there it is a search in a list
(`Bracket.closeIn_eq_some_iff`).

Main definitions:

* `Bracket.closeIn`, `Bracket.Closing` — the search in what is seen, and what it looks for;
* `Bracket.countInCode` — how often a character stands in the code of a stretch of text;
* `Bracket.Closes` — a parenthesis that closes the one at an offset.

Main results:

* `Bracket.closeIn_eq_some_iff`, `Bracket.closeIn_eq_none_iff` — the search finds the first one;
* `Bracket.closing_iff_closes` — what it looks for, in offsets of the text;
* `Bracket.matching_close_in_code` — **the search and the scan agree on what is code**.
-/

import EmbeddedSql.Bracket
import EmbeddedSql.Proofs.Literal.Reading

set_option relaxedAutoImplicit false
set_option autoImplicit false

namespace EmbeddedSql.Bracket

open Literal

variable {m : Marks}

/-! ### The search in what is seen -/

/-- How many characters stand before the closing parenthesis, `depth` inner ones being open. -/
def closeIn : Nat → List (Option Char) → Option Nat
  | _, [] => none
  | depth, x :: v =>
    if x = some '(' then (closeIn (depth + 1) v).map (· + 1)
    else if x = some ')' then
      match depth with
      | 0 => some 0
      | d + 1 => (closeIn d v).map (· + 1)
    else (closeIn depth v).map (· + 1)

/-- Where the reader stands in a mode of the search. -/
def Mode.reading : Mode → Reading
  | .code => .code
  | .string q => .string q
  | .comment => .comment

/-- The search only depends on what is seen of the code. -/
theorem closeDistance?_eq_closeIn (hm : m.comment ≠ '\n') (mode : Mode) (depth : Nat) (t : Text) :
    closeDistance? m mode depth t = closeIn depth (Reading.codeOf m mode.reading t) := by
  fun_induction closeDistance? m mode depth t with
  | case1 => simp [Reading.codeOf, closeIn]
  | case2 => simp [Reading.codeOf, Mode.reading, closeIn]
  | case3 q depth d rest ih =>
      simp [ih, Reading.codeOf, Mode.reading, Reading.step, closeIn, Function.comp_def]
  | case4 depth c rest hc ih =>
      simp [ih, Reading.codeOf, Mode.reading, Reading.step, closeIn, hc]
  | case5 q depth c rest hc hq ih =>
      simp [ih, Reading.codeOf, Mode.reading, Reading.step, closeIn, hc, hq]
  | case6 depth rest ih => simp [ih, Reading.codeOf, Mode.reading, Reading.step, closeIn]
  | case7 depth c rest hc ih => simp [ih, Reading.codeOf, Mode.reading, Reading.step, closeIn, hc]
  | case8 depth c rest hq ih =>
      have hopen : m.opens? c = some .string := by simp [Marks.opens?, hq]
      simp [ih, Reading.codeOf, Mode.reading, Reading.step, hopen, Reading.entered, closeIn]
  | case9 depth rest hq ih =>
      have hopen : m.opens? m.comment = some .comment := by simp [Marks.opens?, hq]
      simp [ih, Reading.codeOf, Mode.reading, Reading.step, hopen, Reading.entered, hm, closeIn]
  | case10 depth rest hq hc ih =>
      have hopen : m.opens? '(' = none := by simp [Marks.opens?, hq, hc]
      simp [ih, Reading.codeOf, Mode.reading, Reading.step, hopen, closeIn]
  | case11 rest hq hc _ =>
      have hopen : m.opens? ')' = none := by simp [Marks.opens?, hq, hc]
      simp [Reading.codeOf, Mode.reading, Reading.step, hopen, closeIn]
  | case12 rest d hq hc _ ih =>
      have hopen : m.opens? ')' = none := by simp [Marks.opens?, hq, hc]
      simp [ih, Reading.codeOf, Mode.reading, Reading.step, hopen, closeIn]
  | case13 depth c rest hq hc hopening hclosing ih =>
      have hopen : m.opens? c = none := by simp [Marks.opens?, hq, hc]
      simp [ih, Reading.codeOf, Mode.reading, Reading.step, hopen, hopening, hclosing, closeIn]

/-- A closing parenthesis is seen, and before it as many are closed as are opened and were open. -/
def Closing (depth : Nat) (v : List (Option Char)) (n : Nat) : Prop :=
  v[n]? = some (some ')') ∧
    depth + (v.take n).count (some '(') = (v.take n).count (some ')')

theorem closing_zero_iff {depth : Nat} {x : Option Char} {v : List (Option Char)} :
    Closing depth (x :: v) 0 ↔ x = some ')' ∧ depth = 0 := by
  simp [Closing]

theorem closing_succ_open {depth n : Nat} {v : List (Option Char)} :
    Closing depth (some '(' :: v) (n + 1) ↔ Closing (depth + 1) v n := by
  have hne : some '(' ≠ some ')' := by decide
  simp only [Closing, List.getElem?_cons_succ, List.take_succ_cons, List.count_cons_self,
    List.count_cons_of_ne hne]
  exact and_congr_right fun _ => by omega

theorem closing_succ_close {depth n : Nat} {v : List (Option Char)} :
    Closing (depth + 1) (some ')' :: v) (n + 1) ↔ Closing depth v n := by
  have hne : some ')' ≠ some '(' := by decide
  simp only [Closing, List.getElem?_cons_succ, List.take_succ_cons, List.count_cons_self,
    List.count_cons_of_ne hne]
  exact and_congr_right fun _ => by omega

theorem closing_succ_other {depth n : Nat} {x : Option Char} {v : List (Option Char)}
    (hopen : x ≠ some '(') (hclose : x ≠ some ')') :
    Closing depth (x :: v) (n + 1) ↔ Closing depth v n := by
  simp only [Closing, List.getElem?_cons_succ, List.take_succ_cons, List.count_cons_of_ne hopen,
    List.count_cons_of_ne hclose]

/-- The first offset that has a property which the very first one does not have. -/
theorem map_succ_eq_some_iff {o : Option Nat} {P Q : Nat → Prop}
    (ho : ∀ n, o = some n ↔ Q n ∧ ∀ j < n, ¬ Q j) (hzero : ¬ P 0)
    (hsucc : ∀ n, P (n + 1) ↔ Q n) (n : Nat) :
    o.map (· + 1) = some n ↔ P n ∧ ∀ j < n, ¬ P j := by
  cases n with
  | zero => simp [hzero]
  | succ n =>
      have hmap : o.map (· + 1) = some (n + 1) ↔ o = some n := by simp
      rw [hmap, ho, hsucc, Nat.forall_lt_succ_left]
      simp [hzero, hsucc]

/-- The search finds the first parenthesis it looks for. -/
theorem closeIn_eq_some_iff {depth : Nat} {v : List (Option Char)} {n : Nat} :
    closeIn depth v = some n ↔ Closing depth v n ∧ ∀ j < n, ¬ Closing depth v j := by
  induction v generalizing depth n with
  | nil => simp [closeIn, Closing]
  | cons x v ih =>
      rw [closeIn.eq_def]
      dsimp only
      by_cases hopen : x = some '('
      · subst hopen
        rw [if_pos rfl]
        exact map_succ_eq_some_iff (fun n => ih) (by simp [closing_zero_iff])
          (fun n => closing_succ_open) n
      · rw [if_neg hopen]
        by_cases hclose : x = some ')'
        · subst hclose
          rw [if_pos rfl]
          cases depth with
          | zero =>
              -- the very first character is the one
              have hzero : Closing 0 (some ')' :: v) 0 := closing_zero_iff.2 ⟨rfl, rfl⟩
              cases n with
              | zero => simp [hzero]
              | succ n =>
                  exact iff_of_false (by simp) fun h => h.2 0 (Nat.succ_pos n) hzero
          | succ d =>
              exact map_succ_eq_some_iff (fun n => ih) (by simp [closing_zero_iff])
                (fun n => closing_succ_close) n
        · rw [if_neg hclose]
          exact map_succ_eq_some_iff (fun n => ih) (by simp [closing_zero_iff, hclose])
            (fun n => closing_succ_other hopen hclose) n

/-- The search fails only if there is nothing to be found. -/
theorem closeIn_eq_none_iff {depth : Nat} {v : List (Option Char)} :
    closeIn depth v = none ↔ ∀ n, ¬ Closing depth v n := by
  constructor
  · intro hnone n hn
    induction n using Nat.strongRecOn with
    | _ n ih =>
        have hsome := closeIn_eq_some_iff.2 ⟨hn, ih⟩
        rw [hnone] at hsome
        simp at hsome
  · intro h
    rw [Option.eq_none_iff_forall_ne_some]
    intro n hn
    exact h n (closeIn_eq_some_iff.1 hn).1

/-! ### Offsets of the text -/

/-- How often a character stands in code between two offsets, given the literals. -/
def countInCode (ls : List Literal) (text : Text) (c : Char) (lo hi : Nat) : Nat :=
  (List.range' lo (hi - lo)).countP fun o => text[o]? = some c ∧ InCode ls o

/-- The end of the stretch in which the parenthesis is looked for that closes the one at an
offset. -/
def limit (text : Text) (opening reach : Nat) : Nat :=
  min text.length (opening + 1 + reach)

/-- A parenthesis in code that closes the one at an offset: between the two, as many parentheses of
the code are opened as closed. -/
structure Closes (m : Marks) (text : Text) (opening reach i : Nat) : Prop where
  lt : opening < i
  lt_limit : i < limit text opening reach
  paren : text[i]? = some ')'
  inCode : InCode (scan m text (opening + 1) (limit text opening reach)) i
  balanced :
    countInCode (scan m text (opening + 1) (limit text opening reach)) text '(' (opening + 1) i =
      countInCode (scan m text (opening + 1) (limit text opening reach)) text ')' (opening + 1) i

theorem count_take_eq_countP (v : List (Option Char)) (x : Option Char) (n : Nat) :
    (v.take n).count x = (List.range n).countP fun k => v[k]? = some x := by
  induction n with
  | zero => simp
  | succ n ih =>
      rw [List.take_add_one, List.count_append, List.range_succ, List.countP_append, ih]
      cases hget : v[n]? with
      | none => simp [hget]
      | some y => by_cases hy : y = x <;> simp [hget, hy]

section Stretch

variable (hm : m.comment ≠ '\n') (text : Text) (lo hi : Nat)

include hm

/-- What is seen of a stretch of the text at an offset of it. -/
theorem getElem?_codeOf_slice (k : Nat) (c : Char) :
    (Reading.codeOf m .code (text.slice lo hi))[k]? = some (some c) ↔
      lo + k < hi ∧ text[lo + k]? = some c ∧ InCode (scan m text lo hi) (lo + k) := by
  rw [(scanned_scanFrom m lo (text.slice lo hi)).getElem?_codeOf hm, Text.slice,
    List.getElem?_take, List.getElem?_drop]
  by_cases hk : lo + k < hi
  · rw [if_pos (show k < hi - lo by omega)]
    cases text[lo + k]? with
    | none => simp
    | some d =>
        by_cases hcode : InCode (scan m text lo hi) (lo + k)
        · have hcode' : InCode (scanFrom m .code lo ((text.drop lo).take (hi - lo))) (lo + k) :=
            hcode
          simp [hcode, hcode', hk]
        · have hcode' : ¬ InCode (scanFrom m .code lo ((text.drop lo).take (hi - lo))) (lo + k) :=
            hcode
          simp [hcode, hcode']
  · rw [if_neg (show ¬ k < hi - lo by omega)]
    simp [hk]

theorem count_codeOf_slice (c : Char) {n : Nat} (hn : lo + n ≤ hi) :
    ((Reading.codeOf m .code (text.slice lo hi)).take n).count (some c) =
      countInCode (scan m text lo hi) text c lo (lo + n) := by
  rw [count_take_eq_countP, countInCode, Nat.add_sub_cancel_left, List.range'_eq_map_range,
    List.countP_map]
  refine List.countP_congr fun k hk => ?_
  have hk := List.mem_range.1 hk
  have hlt : lo + k < hi := by omega
  simp [getElem?_codeOf_slice hm, hlt]

end Stretch

/-- What the search looks for, in offsets of the text. -/
theorem closing_iff_closes (hm : m.comment ≠ '\n') (text : Text) (opening reach n : Nat) :
    Closing 0 (Reading.codeOf m .code (text.slice (opening + 1) (limit text opening reach))) n ↔
      Closes m text opening reach (opening + 1 + n) := by
  rw [Closing, getElem?_codeOf_slice hm, Nat.zero_add]
  constructor
  · rintro ⟨⟨hlt, hparen, hcode⟩, hcount⟩
    rw [count_codeOf_slice hm _ _ _ _ (Nat.le_of_lt hlt),
      count_codeOf_slice hm _ _ _ _ (Nat.le_of_lt hlt)] at hcount
    exact ⟨by omega, hlt, hparen, hcode, hcount⟩
  · rintro ⟨-, hlt, hparen, hcode, hcount⟩
    refine ⟨⟨hlt, hparen, hcode⟩, ?_⟩
    rw [count_codeOf_slice hm _ _ _ _ (Nat.le_of_lt hlt),
      count_codeOf_slice hm _ _ _ _ (Nat.le_of_lt hlt)]
    exact hcount

theorem matchingClose?_eq_closeIn (hm : m.comment ≠ '\n') {text : Text} {opening : Nat}
    (hopen : text[opening]? = some '(') (reach : Nat) :
    matchingClose? m text opening reach =
      (closeIn 0 (Reading.codeOf m .code (text.slice (opening + 1) (limit text opening reach)))).map
        (opening + 1 + ·) := by
  obtain ⟨hlt, hget⟩ := List.getElem?_eq_some_iff.1 hopen
  have hslice : text.slice (opening + 1) (limit text opening reach) =
      (text.drop (opening + 1)).take reach := by
    rw [Text.slice, List.take_eq_take_iff, List.length_drop, limit]
    omega
  rw [matchingClose?, List.drop_eq_getElem_cons hlt, hget, hslice]
  simp only [closeDistance?_eq_closeIn hm, Mode.reading]

/-- **The search and the scan agree on what is code.**  From an opening parenthesis the search finds
the first parenthesis that closes it outside of all literals of the stretch it may look at, and it
finds nothing only if there is none. -/
theorem matching_close_in_code (hm : m.comment ≠ '\n') {text : Text} {opening : Nat}
    (hopen : text[opening]? = some '(') (reach : Nat) :
    (∀ i, matchingClose? m text opening reach = some i ↔
      Closes m text opening reach i ∧ ∀ j < i, ¬ Closes m text opening reach j) ∧
    (matchingClose? m text opening reach = none ↔ ∀ i, ¬ Closes m text opening reach i) := by
  have hcloses := closing_iff_closes hm text opening reach
  -- nothing closes a parenthesis before it
  have hbehind : ∀ {i}, Closes m text opening reach i → ∃ n, i = opening + 1 + n := fun h =>
    Nat.exists_eq_add_of_le h.lt
  rw [matchingClose?_eq_closeIn hm hopen]
  refine ⟨fun i => ?_, ?_⟩
  · rw [Option.map_eq_some_iff]
    constructor
    · rintro ⟨n, hn, rfl⟩
      obtain ⟨hclosing, hfirst⟩ := closeIn_eq_some_iff.1 hn
      refine ⟨(hcloses n).1 hclosing, fun j hj hclose => ?_⟩
      obtain ⟨k, rfl⟩ := hbehind hclose
      exact hfirst k (by omega) ((hcloses k).2 hclose)
    · rintro ⟨hclose, hfirst⟩
      obtain ⟨n, rfl⟩ := hbehind hclose
      refine ⟨n, closeIn_eq_some_iff.2 ⟨(hcloses n).2 hclose, fun k hk hclosing => ?_⟩, rfl⟩
      exact hfirst (opening + 1 + k) (by omega) ((hcloses k).1 hclosing)
  · rw [Option.map_eq_none_iff, closeIn_eq_none_iff]
    constructor
    · intro hnone i hclose
      obtain ⟨n, rfl⟩ := hbehind hclose
      exact hnone n ((hcloses n).2 hclose)
    · intro hnone n hclosing
      exact hnone _ ((hcloses n).1 hclosing)

/-- A parenthesis and an escaped quote in a string, a call inside, and a comment with a quote and a
parenthesis. -/
theorem matching_close_in_code_nested :
    let text := "f(\"a)\\\"\", g(1) # it's (\n)".toList
    text[1]? = some '(' ∧ matchingClose? Marks.r text 1 100 = some 24 ∧
      Closes Marks.r text 1 100 24 ∧ (∀ j < 24, ¬ Closes Marks.r text 1 100 j) ∧
      matchingClose? Marks.r text 1 22 = none ∧ ∀ i, ¬ Closes Marks.r text 1 22 i := by
  intro text
  have hopen : text[1]? = some '(' := by decide +kernel
  have hfound : matchingClose? Marks.r text 1 100 = some 24 := by decide +kernel
  have hnone : matchingClose? Marks.r text 1 22 = none := by decide +kernel
  obtain ⟨hsome, -⟩ := matching_close_in_code (m := Marks.r) (by decide) hopen 100
  obtain ⟨-, hnone_iff⟩ := matching_close_in_code (m := Marks.r) (by decide) hopen 22
  obtain ⟨hcloses, hfirst⟩ := (hsome 24).1 hfound
  exact ⟨hopen, hfound, hcloses, hfirst, hnone, hnone_iff.1 hnone⟩

end EmbeddedSql.Bracket
