/-
**Which calls a text holds.**

`Call.occurrences` passes over the characters of an occurrence before it looks for the next one, and
a search in a window does not see what stands behind the window.  For names that are words neither
matters: a whole name cannot start inside another one.  So the occurrences are the offsets at which
the name stands as a whole name, and one opening parenthesis belongs to one name only.

Main definitions:

* `Call.IsWord` — names that consist of the characters of R names and colons;
* `Call.StandsAt` — the name stands at an offset as a whole name;
* `Call.Found` — the calls of the configured functions whose names stand in code.

Main results:

* `Call.mem_occurrences_iff` — **the occurrences of a word** in the first part of a text;
* `Call.StandsAt.take`, `Call.StandsAt.of_take` — cutting the text off behind the name changes
  nothing;
* `Call.Found.eq_of_opening_eq` — **a parenthesis opens one call only**.
-/

import EmbeddedSql.Call
import Mathlib.Data.List.Basic

set_option relaxedAutoImplicit false
set_option autoImplicit false

namespace EmbeddedSql.Call

/-! ### Words -/

/-- Characters of qualified names: those of R names and the colon. -/
def isQualifiedChar (c : Char) : Bool :=
  Text.isNameChar c || c == ':'

/-- A nonempty name that consists of such characters. -/
def IsWord (name : Text) : Prop :=
  name ≠ [] ∧ ∀ c ∈ name, isQualifiedChar c = true

instance (name : Text) : Decidable (IsWord name) :=
  decidable_of_iff (name ≠ [] ∧ name.all isQualifiedChar = true) (by rw [List.all_eq_true]; rfl)

theorem IsWord.length_pos {name : Text} (h : IsWord name) : 0 < name.length :=
  List.length_pos_iff.2 h.1

theorem startsAfter_eq_false_iff (c : Char) :
    startsAfter (some c) = false ↔ isQualifiedChar c = true := by
  rw [startsAfter, Bool.not_eq_false']
  rfl

/-- The characters of a word are visible ASCII characters. -/
theorem toNat_of_isQualifiedChar {c : Char} (h : isQualifiedChar c = true) :
    46 ≤ c.toNat ∧ c.toNat ≤ 122 := by
  change (((((c.isUpper || c.isLower) || c.isDigit) || c == '.') || c == '_') || c == ':') = true
    at h
  simp only [Bool.or_eq_true, beq_iff_eq] at h
  rcases h with ((((h | h) | h) | rfl) | rfl) | rfl
  · have hupper : 'A'.val ≤ c.val ∧ c.val ≤ 'Z'.val := of_decide_eq_true h
    change 65 ≤ c.toNat ∧ c.toNat ≤ 90 at hupper
    omega
  · obtain ⟨hlo, hhi⟩ := Bool.and_eq_true_iff.1 h
    have hlower : 'a'.val ≤ c.val ∧ c.val ≤ 'z'.val :=
      ⟨of_decide_eq_true hlo, of_decide_eq_true hhi⟩
    change 97 ≤ c.toNat ∧ c.toNat ≤ 122 at hlower
    omega
  · have hdigit := Char.isDigit_iff_toNat.1 h
    change 48 ≤ c.toNat ∧ c.toNat ≤ 57 at hdigit
    omega
  · decide
  · decide
  · decide

/-- No character of a word is a blank. -/
theorem isBlank_eq_false {c : Char} (h : isQualifiedChar c = true) : Text.isBlank c = false := by
  obtain ⟨hlo, hhi⟩ := toNat_of_isQualifiedChar h
  simp only [Text.isBlank, Bool.or_eq_false_iff, Bool.and_eq_false_iff, decide_eq_false_iff_not,
    beq_eq_false_iff_ne]
  omega

/-! ### Whole names -/

/-- The character before an offset, when `before` stands before the text. -/
def charBefore (before : Option Char) (t : Text) : Nat → Option Char
  | 0 => before
  | k + 1 => t[k]?

theorem charBefore_succ (before : Option Char) (c : Char) (t : Text) (k : Nat) :
    charBefore before (c :: t) (k + 1) = charBefore (some c) t k := by
  cases k <;> simp [charBefore]

/-- The name stands at an offset of a text as a whole name; `before` stands before the text. -/
structure StandsAfter (name : Text) (before : Option Char) (t : Text) (offset : Nat) : Prop where
  starts : startsAfter (charBefore before t offset) = true
  stands : name <+: t.drop offset
  ends : endsBefore (t.drop (offset + name.length)) = true

/-- The name stands at an offset of a text as a whole name. -/
abbrev StandsAt (name t : Text) (offset : Nat) : Prop :=
  StandsAfter name none t offset

theorem standsAfter_zero_iff {name : Text} {before : Option Char} {t : Text} :
    StandsAfter name before t 0 ↔
      startsAfter before = true ∧ name <+: t ∧ endsBefore (t.drop name.length) = true := by
  constructor
  · intro h
    exact ⟨h.starts, by simpa using h.stands, by simpa using h.ends⟩
  · rintro ⟨h₁, h₂, h₃⟩
    exact ⟨h₁, by simpa using h₂, by simpa using h₃⟩

theorem standsAfter_succ_iff {name : Text} {before : Option Char} {c : Char} {t : Text} {k : Nat} :
    StandsAfter name before (c :: t) (k + 1) ↔ StandsAfter name (some c) t k := by
  have hsum : k + 1 + name.length = k + name.length + 1 := by omega
  constructor
  · intro h
    have hends := h.ends
    rw [hsum, List.drop_succ_cons] at hends
    exact ⟨charBefore_succ before c t k ▸ h.starts, by simpa using h.stands, hends⟩
  · intro h
    refine ⟨(charBefore_succ before c t k).symm ▸ h.starts, by simpa using h.stands, ?_⟩
    rw [hsum, List.drop_succ_cons]
    exact h.ends

/-- The search finds every whole name.  While it passes over an occurrence, all characters it has
just seen belong to a name, so no other occurrence starts there. -/
theorem mem_occurrencesFrom_iff {name : Text} (hname : IsWord name) (before : Option Char)
    (skip i : Nat) (t : Text)
    (hskip : 0 < skip → startsAfter before = false ∧
      ∀ c ∈ t.take (skip - 1), startsAfter (some c) = false) (offset : Nat) :
    offset ∈ occurrencesFrom name before skip i t ↔
      ∃ k, offset = i + k ∧ StandsAfter name before t k := by
  induction t generalizing before skip i with
  | nil =>
      constructor
      · intro h
        simp [occurrencesFrom, hname.1] at h
      · rintro ⟨k, -, hk⟩
        exact absurd (by simpa using hk.stands) hname.1
  | cons c t ih =>
      have hsplit : (∃ k, offset = i + k ∧ StandsAfter name before (c :: t) k) ↔
          (offset = i ∧ StandsAfter name before (c :: t) 0) ∨
            ∃ k, offset = i + 1 + k ∧ StandsAfter name (some c) t k := by
        constructor
        · rintro ⟨k, rfl, hk⟩
          cases k with
          | zero => exact Or.inl ⟨rfl, hk⟩
          | succ k => exact Or.inr ⟨k, by omega, standsAfter_succ_iff.1 hk⟩
        · rintro (⟨rfl, hk⟩ | ⟨k, rfl, hk⟩)
          · exact ⟨0, rfl, hk⟩
          · exact ⟨k + 1, by omega, standsAfter_succ_iff.2 hk⟩
      rw [hsplit, occurrencesFrom]
      split
      · next hmatch =>
          -- an occurrence: its other characters are passed over
          simp only [Bool.and_eq_true, decide_eq_true_eq, List.isPrefixOf_iff_prefix] at hmatch
          obtain ⟨⟨⟨-, hstarts⟩, hpre⟩, hends⟩ := hmatch
          obtain ⟨v, hv⟩ := hpre
          have hfirst : ∀ d ∈ (c :: t).take name.length, startsAfter (some d) = false := by
            intro d hd
            rw [← hv, List.take_left] at hd
            exact (startsAfter_eq_false_iff d).2 (hname.2 d hd)
          have hlen := hname.length_pos
          rw [List.mem_cons, ih]
          · have hhere : StandsAfter name before (c :: t) 0 :=
              standsAfter_zero_iff.2 ⟨hstarts, ⟨v, hv⟩, hends⟩
            simp [hhere]
          · intro hlong
            obtain ⟨k, hk⟩ : ∃ k, name.length = k + 1 := ⟨name.length - 1, by omega⟩
            rw [hk, List.take_succ_cons] at hfirst
            refine ⟨hfirst c List.mem_cons_self, fun d hd => hfirst d ?_⟩
            refine List.mem_cons_of_mem c ((List.take_subset_take_left t ?_) hd)
            omega
      · next hmatch =>
          have hhere : ¬ StandsAfter name before (c :: t) 0 := by
            intro h
            obtain ⟨hstarts, hpre, hends⟩ := standsAfter_zero_iff.1 h
            by_cases hzero : skip = 0
            · refine hmatch ?_
              simp only [Bool.and_eq_true, decide_eq_true_eq, List.isPrefixOf_iff_prefix]
              exact ⟨⟨⟨hzero, hstarts⟩, hpre⟩, hends⟩
            · rw [(hskip (by omega)).1] at hstarts
              simp at hstarts
          rw [ih]
          · simp [hhere]
          · intro hlong
            have hfirst := (hskip (by omega)).2
            obtain ⟨k, hk⟩ : ∃ k, skip - 1 = k + 1 := ⟨skip - 2, by omega⟩
            rw [hk, List.take_succ_cons] at hfirst
            refine ⟨hfirst c List.mem_cons_self, fun d hd => hfirst d ?_⟩
            refine List.mem_cons_of_mem c ?_
            rwa [show skip - 1 - 1 = k by omega] at hd

/-- **The occurrences of a word** are the offsets at which it stands as a whole name. -/
theorem mem_occurrences_iff {name : String} (hname : IsWord name.toList) (text : Text)
    (hi offset : Nat) :
    offset ∈ occurrences name text 0 hi ↔ StandsAt name.toList (text.take hi) offset := by
  simp only [occurrences, if_true, Text.slice, List.drop_zero, Nat.sub_zero]
  rw [mem_occurrencesFrom_iff hname none 0 0 (text.take hi) (by simp)]
  simp

/-! ### Cutting the text off -/

theorem charBefore_take {t : Text} {hi offset : Nat} (h : offset ≤ hi) :
    charBefore none (t.take hi) offset = charBefore none t offset := by
  cases offset with
  | zero => rfl
  | succ k => simp [charBefore, List.getElem?_take_of_lt (show k < hi by omega)]

/-- A name that ends before the cut stands there before and after it. -/
theorem StandsAt.take {name t : Text} {hi offset : Nat} (h : StandsAt name t offset)
    (hlt : offset + name.length ≤ hi) : StandsAt name (t.take hi) offset := by
  refine ⟨?_, ?_, ?_⟩
  · rw [charBefore_take (by omega)]
    exact h.starts
  · rw [List.drop_take]
    exact List.prefix_take_iff.2 ⟨h.stands, by omega⟩
  · have hends := h.ends
    rw [List.drop_take]
    cases hrest : t.drop (offset + name.length) with
    | nil => simp [endsBefore]
    | cons c rest =>
        rw [hrest] at hends
        cases hi - (offset + name.length) with
        | zero => rfl
        | succ k => exact hends

theorem StandsAt.of_take {name t : Text} {hi offset : Nat}
    (h : StandsAt name (t.take hi) offset) (hlt : offset + name.length < hi) :
    StandsAt name t offset := by
  refine ⟨?_, ?_, ?_⟩
  · rw [← charBefore_take (t := t) (show offset ≤ hi by omega)]
    exact h.starts
  · have hstands := h.stands
    rw [List.drop_take] at hstands
    exact hstands.trans (List.take_prefix _ _)
  · have hends := h.ends
    rw [List.drop_take] at hends
    cases hrest : t.drop (offset + name.length) with
    | nil => rfl
    | cons c rest =>
        -- the character behind the name is still there
        obtain ⟨k, hk⟩ : ∃ k, hi - (offset + name.length) = k + 1 :=
          ⟨hi - (offset + name.length) - 1, by omega⟩
        rw [hrest, hk] at hends
        exact hends

/-! ### The opening parenthesis -/

theorem isBlank_of_openDistance? {t : Text} {n : Nat} (h : Bracket.openDistance? t = some n)
    {k : Nat} (hk : k < n) : ∃ c, t[k]? = some c ∧ Text.isBlank c = true := by
  fun_induction Bracket.openDistance? t generalizing n k with
  | case1 => simp at h
  | case2 =>
      obtain rfl : 0 = n := by simpa using h
      omega
  | case3 c rest _ hblank ih =>
      obtain ⟨m, hm, rfl⟩ := Option.map_eq_some_iff.1 h
      cases k with
      | zero => exact ⟨c, rfl, hblank⟩
      | succ k => simpa using ih hm (by omega)
  | case4 => simp at h

/-- Only blanks stand between the end of a name and its parenthesis. -/
theorem isBlank_of_openingAt? {d : Detection} {text : Text} {function : String}
    {start opening : Nat} (h : openingAt? d text function start = some opening) :
    start + function.length ≤ opening ∧
      ∀ k, start + function.length ≤ k → k < opening →
        ∃ c, text[k]? = some c ∧ Text.isBlank c = true := by
  obtain ⟨n, hn, rfl⟩ := Option.map_eq_some_iff.1 h
  refine ⟨by omega, fun k hlo hhi => ?_⟩
  have hlt := Bracket.openDistance?_lt hn
  obtain ⟨c, hc, hblank⟩ := isBlank_of_openDistance? hn
    (show k - (start + function.length) < n by omega)
  refine ⟨c, ?_, hblank⟩
  rw [List.length_take] at hlt
  rw [List.getElem?_take_of_lt (by omega), List.getElem?_drop] at hc
  rwa [show start + function.length + (k - (start + function.length)) = k by omega] at hc

/-- The characters of a name where it stands. -/
theorem StandsAfter.exists_char {name : Text} {before : Option Char} {t : Text} {offset k : Nat}
    (h : StandsAfter name before t offset) (hlo : offset ≤ k) (hhi : k < offset + name.length) :
    ∃ c ∈ name, t[k]? = some c := by
  obtain ⟨v, hv⟩ := h.stands
  have hk : k - offset < name.length := by omega
  refine ⟨name[k - offset], List.getElem_mem hk, ?_⟩
  have hdrop : t[k]? = (t.drop offset)[k - offset]? := by
    rw [List.getElem?_drop, show offset + (k - offset) = k by omega]
  rw [hdrop, ← hv, List.getElem?_append_left hk, List.getElem?_eq_getElem hk]

/-- A name does not reach over the blanks before a parenthesis. -/
theorem end_le_of_openingAt? {d : Detection} {text : Text} {f g : String} {a b opening : Nat}
    (hg : IsWord g.toList) (hstands : StandsAt g.toList text b)
    (hf : openingAt? d text f a = some opening) (hopen : b + g.length ≤ opening) :
    b + g.length ≤ a + f.length := by
  by_contra hlt
  have hpos := hg.length_pos
  rw [String.length_toList] at hpos
  -- the last character of `g` would be one of the blanks behind `f`
  obtain ⟨c, hc, hchar⟩ := hstands.exists_char (show b ≤ b + g.length - 1 by omega)
    (by rw [String.length_toList]; omega)
  obtain ⟨e, he, hblank⟩ := (isBlank_of_openingAt? hf).2 (b + g.length - 1) (by omega) (by omega)
  obtain rfl : c = e := Option.some.inj (hchar.symm.trans he)
  rw [isBlank_eq_false (hg.2 c hc)] at hblank
  simp at hblank

/-- A name does not start inside another one. -/
theorem start_le_of_standsAt {f g text : Text} {a b : Nat} (hf : IsWord f)
    (ha : StandsAt f text a) (hb : StandsAt g text b) (hlt : b < a + f.length) : b ≤ a := by
  by_contra hab
  obtain ⟨c, hc, hchar⟩ := ha.exists_char (show a ≤ b - 1 by omega) (by omega)
  have hstarts := hb.starts
  rw [show b = b - 1 + 1 by omega, charBefore, hchar,
    (startsAfter_eq_false_iff c).2 (hf.2 c hc)] at hstarts
  simp at hstarts

/-! ### Calls in code -/

/-- The calls of the configured functions whose names stand in code. -/
structure Found (d : Detection) (text : Text) (call : Call) : Prop where
  mem_functions : call.function ∈ d.functions
  exists_start : ∃ start, StandsAt call.function.toList text start ∧
    Literal.containing? (Literal.scanAll d.marks text) start = none ∧
    openingAt? d text call.function start = some call.opening
  stop_eq : call.stop = stopOf d text call.opening

/-- **A parenthesis opens one call only.** -/
theorem Found.eq_of_opening_eq {d : Detection} {text : Text} {x y : Call}
    (hwords : ∀ f ∈ d.functions, IsWord f.toList) (hx : Found d text x) (hy : Found d text y)
    (h : x.opening = y.opening) : x = y := by
  obtain ⟨a, ha, -, hopenx⟩ := hx.exists_start
  obtain ⟨b, hb, -, hopeny⟩ := hy.exists_start
  have hwx := hwords _ hx.mem_functions
  have hwy := hwords _ hy.mem_functions
  -- the two names end at the same place, hence they start at the same place
  have hend : a + x.function.length = b + y.function.length := by
    refine Nat.le_antisymm ?_ ?_
    · exact end_le_of_openingAt? hwx ha hopeny (h ▸ (isBlank_of_openingAt? hopenx).1)
    · exact end_le_of_openingAt? hwy hb hopenx (h ▸ (isBlank_of_openingAt? hopeny).1)
  have hlenx := String.length_toList (s := x.function)
  have hleny := String.length_toList (s := y.function)
  have hposx := hwx.length_pos
  have hposy := hwy.length_pos
  have hstart : a = b := by
    refine Nat.le_antisymm ?_ ?_
    · exact start_le_of_standsAt hwy hb ha (by omega)
    · exact start_le_of_standsAt hwx ha hb (by omega)
  subst hstart
  have hname : x.function = y.function := by
    rw [← String.toList_inj]
    have hpre := List.prefix_of_prefix_length_le ha.stands hb.stands (by omega)
    exact hpre.eq_of_length (by omega)
  have hstop : x.stop = y.stop := by rw [hx.stop_eq, hy.stop_eq, h]
  obtain ⟨f, o, e⟩ := x
  obtain ⟨f', o', e'⟩ := y
  exact Call.mk.injEq .. ▸ ⟨hname, h, hstop⟩

end EmbeddedSql.Call
