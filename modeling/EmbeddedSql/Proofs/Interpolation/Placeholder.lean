/-
**Placeholders that cannot be confused.**

Extraction exchanges the interpolations of a text for placeholders, restoration looks the
placeholders up one after another.  That this works rests on a few facts about the shape of
placeholders and of the interpolations behind them, and on nothing else.  This module collects the
facts in `Interpolation.Separable` and proves that extraction provides them.

Two of them take an argument.  The common stem of the placeholders does not stand in the text: the
candidates are tried in order, no two of them can stand at the same offset, and there is one
candidate more than the text has offsets.  And an interpolation starts and ends with a brace:
the automaton enters an expression with an opening brace only and leaves it with a closing brace
only.

Main definitions:

* `Interpolation.Separable` — what keeps placeholders apart from each other and from the
  interpolations.

Main results:

* `Interpolation.Template.exists_hole_eq` — an interpolation starts and ends with a brace;
* `Interpolation.exists_freshStem_eq`, `Interpolation.freshStem_absent` — **the stem is free**, and
  the first candidate that is;
* `Interpolation.separable_extract` — **the placeholders of an extraction are separable**.
-/

import EmbeddedSql.Interpolation
import Mathlib.Data.Finset.Card
import Mathlib.Data.List.Basic

set_option relaxedAutoImplicit false
set_option autoImplicit false

namespace EmbeddedSql.Interpolation

/-! ### Braces around an interpolation -/

namespace Mode

/-- In an expression only a closing brace leads out. -/
theorem isHole_stepExpr (outer : Option Char) (nested : Nat) {c : Char} (hc : c ≠ '}') :
    (stepExpr outer nested c).isHole = true := by
  unfold stepExpr
  split
  · rfl
  · split
    · rfl
    · simp [isHole]

/-- In plain query text only an opening brace leads into an expression. -/
theorem isHole_stepSql {c : Char} (hc : c ≠ '{') : (stepSql c).isHole = false := by
  unfold stepSql
  split
  · rfl
  · split
    · rfl
    · simp [isHole]

theorem eq_of_step_opens {m : Mode} {c : Char} (hm : m.isHole = false)
    (hn : (m.step c).isHole = true) : c = '{' := by
  by_contra hc
  -- outside an expression a mode stays what it is or goes on as plain query text does
  have hsql := isHole_stepSql hc
  cases m with
  | sql => simp [step, hsql] at hn
  | dash =>
      simp only [step] at hn
      split at hn
      · simp [isHole] at hn
      · simp [hsql] at hn
  | string q =>
      simp only [step, hc, if_false] at hn
      split at hn <;> simp [isHole] at hn
  | comment =>
      simp only [step] at hn
      split at hn <;> simp [isHole] at hn
  | hole outer n e => simp [isHole] at hm

theorem eq_of_step_closes {m : Mode} {c : Char} (hm : m.isHole = true)
    (hn : (m.step c).isHole = false) : c = '}' := by
  by_contra hc
  cases m with
  | hole outer n e =>
      have hexpr := isHole_stepExpr outer n hc
      cases e with
      | code => simp [step, hexpr] at hn
      | string q =>
          simp only [step] at hn
          split at hn
          · simp [isHole] at hn
          · split at hn <;> simp [isHole] at hn
      | escaped q => simp [step, isHole] at hn
      | quoteSeen q =>
          simp only [step] at hn
          split at hn
          · simp [isHole] at hn
          · simp [hexpr] at hn
  | sql => simp [isHole] at hm
  | dash => simp [isHole] at hm
  | string q => simp [isHole] at hm
  | comment => simp [isHole] at hm

end Mode

namespace Template

/-- Every hole that the cutting finds lies between braces, provided that the open one starts with a
brace. -/
theorem exists_hole_eq_of_from (m : Mode) (gap hole t : Text)
    (hopen : m.isHole = true → ∃ s, hole.reverse = '{' :: s)
    (hclosed : m.isHole = false → hole = [])
    {p : Text × Text} (hp : p ∈ (ofTextFrom m gap hole t).parts) :
    ∃ s, p.2 = '{' :: (s ++ ['}']) := by
  induction t generalizing m gap hole with
  | nil => simp [ofTextFrom] at hp
  | cons c t ih =>
      cases hn : (m.step c).isHole with
      | true =>
          rw [ofTextFrom_inside hn] at hp
          refine ih (m.step c) gap (c :: hole) ?_ (by simp [hn]) hp
          -- the open hole grows by `c`, or starts with `c` now
          intro _
          cases hm : m.isHole with
          | true =>
              obtain ⟨s, hs⟩ := hopen hm
              exact ⟨s ++ [c], by simp [hs]⟩
          | false => exact ⟨[], by simp [hclosed hm, Mode.eq_of_step_opens hm hn]⟩
      | false =>
          cases hm : m.isHole with
          | true =>
              rw [ofTextFrom_closes hm hn] at hp
              rcases List.mem_cons.1 hp with rfl | hp
              · obtain ⟨s, hs⟩ := hopen hm
                exact ⟨s, by simp [hs, Mode.eq_of_step_closes hm hn]⟩
              · exact ih (m.step c) [] [] (by simp [hn]) (fun _ => rfl) hp
          | false =>
              rw [ofTextFrom_outside hm hn] at hp
              exact ih (m.step c) (c :: gap) [] (by simp [hn]) (fun _ => rfl) hp

/-- An interpolation starts with an opening brace and ends with a closing one. -/
theorem exists_hole_eq {t : Text} {p : Text × Text} (hp : p ∈ (ofText t).parts) :
    ∃ s, p.2 = '{' :: (s ++ ['}']) :=
  exists_hole_eq_of_from .sql [] [] t (by simp [Mode.isHole]) (fun _ => rfl) hp

/-- A gap stands in the text together with the hole after it. -/
theorem infix_text_of_mem {t : Template} {p : Text × Text} (hp : p ∈ t.parts) :
    p.1 ++ p.2 <:+: t.text := by
  obtain ⟨before, after, hparts⟩ := List.append_of_mem hp
  refine ⟨before.flatMap fun p => p.1 ++ p.2,
    (after.flatMap fun p => p.1 ++ p.2) ++ t.rest, ?_⟩
  simp [text, hparts]

end Template

/-! ### The stem -/

/-- What tells the candidates apart: nothing for the first one, then the counting numbers. -/
def stemLabel : Nat → Text
  | 0 => []
  | k + 1 => Nat.toDigits 10 (k + 1)

-- the equations of `stem` are stated by hand: generating them evaluates the texts
theorem stem_zero : stem 0 = "GLUE_INTERPOLATION_".toList := rfl

theorem stem_succ (k : Nat) :
    stem (k + 1) = "GLUE".toList ++ (Nat.repr (k + 1)).toList ++ "_INTERPOLATION_".toList := rfl

theorem stem_eq (k : Nat) :
    stem k = "GLUE".toList ++ (stemLabel k ++ "_INTERPOLATION_".toList) := by
  cases k with
  | zero => simp [stem_zero, stemLabel]
  | succ k => rw [stem_succ, stemLabel, Nat.toList_repr, List.append_assoc]

theorem isDigit_of_mem_stemLabel {k : Nat} {c : Char} (h : c ∈ stemLabel k) : c.isDigit = true := by
  cases k with
  | zero => simp [stemLabel] at h
  | succ k => exact Nat.isDigit_of_mem_toDigits (by omega) (by omega) h

theorem stemLabel_injective {j k : Nat} (h : stemLabel j = stemLabel k) : j = k := by
  -- a label can be read back; the empty one reads as zero
  have hlabel : ∀ n, Nat.ofDigitChars 10 (stemLabel n) 0 = n := by
    intro n
    cases n with
    | zero => rfl
    | succ n => exact Nat.ofDigitChars_ten_toDigits
  rw [← hlabel j, h, hlabel k]

/-- The label of a candidate is what is written in digits behind its first four letters. -/
theorem takeWhile_isDigit_stem_append (k : Nat) (v : Text) :
    ((stem k ++ v).drop 4).takeWhile Char.isDigit = stemLabel k := by
  have hdrop : (stem k ++ v).drop 4 = stemLabel k ++ '_' :: ("INTERPOLATION_".toList ++ v) := by
    simp [stem_eq]
  rw [hdrop, List.takeWhile_append_of_pos fun c hc => isDigit_of_mem_stemLabel hc]
  simp

/-- Different candidates do not stand at the same offset. -/
theorem stem_unique {j k : Nat} {t : Text} (hj : stem j <+: t) (hk : stem k <+: t) : j = k := by
  obtain ⟨v, hv⟩ := hj
  obtain ⟨w, hw⟩ := hk
  apply stemLabel_injective
  rw [← takeWhile_isDigit_stem_append j v, hv, ← hw, takeWhile_isDigit_stem_append k w]

/-- A candidate starts with a letter that it does not hold anywhere else. -/
theorem stem_eq_cons (k : Nat) : ∃ s, stem k = 'G' :: s ∧ 'G' ∉ s := by
  refine ⟨"LUE".toList ++ (stemLabel k ++ "_INTERPOLATION_".toList), by simp [stem_eq], ?_⟩
  intro hmem
  rcases List.mem_append.1 hmem with hmem | hmem
  · exact absurd hmem (by decide)
  · rcases List.mem_append.1 hmem with hmem | hmem
    · exact absurd (isDigit_of_mem_stemLabel hmem) (by decide)
    · exact absurd hmem (by decide)

/-- The characters of placeholders. -/
def isMarkChar (c : Char) : Bool :=
  c.isAlphanum || c == '_'

theorem isMarkChar_of_isDigit {c : Char} (h : c.isDigit = true) : isMarkChar c = true := by
  simp [isMarkChar, Char.isAlphanum, h]

theorem isMarkChar_of_mem_stem {k : Nat} {c : Char} (h : c ∈ stem k) : isMarkChar c = true := by
  have hfront : "GLUE".toList.all isMarkChar = true := by decide
  have hback : "_INTERPOLATION_".toList.all isMarkChar = true := by decide
  rw [stem_eq, List.mem_append, List.mem_append] at h
  rcases h with h | h | h
  · exact List.all_eq_true.1 hfront c h
  · exact isMarkChar_of_isDigit (isDigit_of_mem_stemLabel h)
  · exact List.all_eq_true.1 hback c h

/-- Among the first `text.length + 1` candidates one does not stand in the text. -/
theorem exists_stem_absent (text : Text) : ∃ k < text.length + 1, ¬ stem k <:+: text := by
  by_contra hall
  push Not at hall
  -- if all of them stood in the text, each would have an offset of its own
  have hplace : ∀ k, ∃ i, k < text.length + 1 → i < text.length ∧ stem k <+: text.drop i := by
    intro k
    by_cases hk : k < text.length + 1
    · obtain ⟨u, v, huv⟩ := hall k hk
      obtain ⟨s, hs, -⟩ := stem_eq_cons k
      refine ⟨u.length, fun _ => ⟨?_, v, ?_⟩⟩
      · have hlen := congrArg List.length huv
        simp [hs] at hlen
        omega
      · rw [← huv]
        simp
    · exact ⟨0, fun h => absurd h hk⟩
  choose place hplace using hplace
  -- but there is one candidate more than there are offsets
  obtain ⟨j, hj, k, hk, hne, heq⟩ :=
    Finset.exists_ne_map_eq_of_card_lt_of_maps_to (s := Finset.range (text.length + 1))
      (t := Finset.range text.length) (f := place) (by simp)
      (fun k hk => by simpa using (hplace k (by simpa using hk)).1)
  have hj := (hplace j (by simpa using hj)).2
  have hk := (hplace k (by simpa using hk)).2
  rw [heq] at hj
  exact hne (stem_unique hj hk)

/-- The stem is the first candidate that does not stand in the text. -/
theorem exists_freshStem_eq (text : Text) :
    ∃ k ≤ text.length, freshStem text = stem k ∧ ¬ stem k <:+: text ∧
      ∀ j < k, stem j <:+: text := by
  obtain ⟨k, hk, hfree⟩ := exists_stem_absent text
  cases hfound : (List.range (text.length + 1)).find? fun k => !Text.occurs (stem k) text with
  | none =>
      rw [List.find?_eq_none] at hfound
      have := hfound k (List.mem_range.2 hk)
      simp [Text.occurs_iff, hfree] at this
  | some j =>
      obtain ⟨hfree, hmem, hpassed⟩ := List.find?_range_eq_some.1 hfound
      refine ⟨j, Nat.lt_succ_iff.1 (List.mem_range.1 hmem), by simp [freshStem, hfound], ?_, ?_⟩
      · simpa [← Text.occurs_iff] using hfree
      · intro i hi
        simpa [← Text.occurs_iff] using hpassed i hi

/-- The stem is one of the candidates and **does not stand in the text**. -/
theorem freshStem_absent (text : Text) :
    ∃ k, freshStem text = stem k ∧ ¬ stem k <:+: text := by
  obtain ⟨k, -, hstem, hfree, -⟩ := exists_freshStem_eq text
  exact ⟨k, hstem, hfree⟩

/-! ### Numbers of equal width -/

theorem length_padded {width n : Nat} (h : (Nat.repr n).length ≤ width) :
    (padded width n).length = width := by
  rw [← String.length_toList] at h
  simp only [padded, List.length_append, List.length_replicate]
  omega

theorem isDigit_of_mem_padded {width n : Nat} {c : Char} (h : c ∈ padded width n) :
    c.isDigit = true := by
  rcases List.mem_append.1 h with h | h
  · rw [(List.mem_replicate.1 h).2]
    rfl
  · rw [Nat.toList_repr] at h
    exact Nat.isDigit_of_mem_toDigits (by omega) (by omega) h

/-- Zeros in front do not change a number. -/
theorem ofDigitChars_padded (width n : Nat) : Nat.ofDigitChars 10 (padded width n) 0 = n := by
  simp [padded, Nat.ofDigitChars_append, Nat.ofDigitChars_replicate_zero]

/-! ### Placeholders -/

theorem map_hole_placeholders (common : Text) (holes : List Text) :
    (placeholders common holes).map (·.hole) = holes := by
  simp [placeholders, Function.comp_def, List.zipIdx_map_fst]

theorem map_mark_placeholders (common : Text) (holes : List Text) :
    (placeholders common holes).map (·.mark) =
      (List.range holes.length).map
        fun i => common ++ padded (Nat.repr (holes.length - 1)).length i := by
  rw [List.range_eq_range', ← List.zipIdx_map_snd, List.map_map]
  simp [placeholders, Function.comp_def]

theorem mark_of_mem_placeholders {common : Text} {holes : List Text} {p : Placeholder}
    (h : p ∈ placeholders common holes) :
    ∃ i < holes.length, p.mark = common ++ padded (Nat.repr (holes.length - 1)).length i := by
  have hmark : p.mark ∈ (placeholders common holes).map (·.mark) := List.mem_map_of_mem h
  rw [map_mark_placeholders] at hmark
  obtain ⟨i, hi, heq⟩ := List.mem_map.1 hmark
  exact ⟨i, List.mem_range.1 hi, heq.symm⟩

theorem nodup_mark_placeholders (common : Text) (holes : List Text) :
    ((placeholders common holes).map (·.mark)).Nodup := by
  rw [map_mark_placeholders]
  refine List.Nodup.map_on ?_ List.nodup_range
  intro i _ j _ heq
  have hdigits := congrArg (fun s => Nat.ofDigitChars 10 s 0) (List.append_cancel_left heq)
  simpa [ofDigitChars_padded] using hdigits

theorem length_mark_of_mem_placeholders {common : Text} {holes : List Text} {p : Placeholder}
    (h : p ∈ placeholders common holes) :
    p.mark.length = common.length + (Nat.repr (holes.length - 1)).length := by
  obtain ⟨i, hi, heq⟩ := mark_of_mem_placeholders h
  -- no number is wider than the last one
  have hwidth : (Nat.repr i).length ≤ (Nat.repr (holes.length - 1)).length := by
    rw [Nat.length_repr_le_iff Nat.length_repr_pos]
    have hlast := (Nat.length_repr_le_iff (n := holes.length - 1) Nat.length_repr_pos).1 le_rfl
    omega
  rw [heq, List.length_append, length_padded hwidth]

/-- What keeps placeholders apart from each other and from the interpolations they stand for. -/
structure Separable (ps : List Placeholder) : Prop where
  /-- A mark starts with a letter that it does not hold anywhere else. -/
  mark_eq : ∀ p ∈ ps, ∃ s, p.mark = 'G' :: s ∧ 'G' ∉ s
  mark_length : ∀ p ∈ ps, ∀ q ∈ ps, p.mark.length = q.mark.length
  mark_nodup : (ps.map (·.mark)).Nodup
  mark_braces : ∀ p ∈ ps, '{' ∉ p.mark ∧ '}' ∉ p.mark
  hole_eq : ∀ p ∈ ps, ∃ s, p.hole = '{' :: (s ++ ['}'])
  hole_free : ∀ p ∈ ps, ∀ q ∈ ps, ¬ q.mark <:+: p.hole

/-- A mark of an extraction does not stand in the text. -/
theorem mark_not_infix_of_mem_extract {text : Text} {p : Placeholder} (h : p ∈ (extract text).2) :
    ¬ p.mark <:+: text := by
  intro hmark
  obtain ⟨k, hstem, hfree⟩ := freshStem_absent text
  obtain ⟨i, -, heq⟩ := mark_of_mem_placeholders h
  rw [heq, hstem] at hmark
  exact hfree ((List.prefix_append _ _).isInfix.trans hmark)

/-- The hole of a placeholder is an interpolation of the text. -/
theorem exists_part_of_mem_extract {text : Text} {p : Placeholder} (h : p ∈ (extract text).2) :
    ∃ part ∈ (Template.ofText text).parts, part.2 = p.hole := by
  have hhole : p.hole ∈ (extract text).2.map (·.hole) := List.mem_map_of_mem h
  rw [extract, map_hole_placeholders] at hhole
  exact List.mem_map.1 hhole

/-- The first letter of a mark stands nowhere else in it. -/
theorem exists_mark_eq_of_mem_extract {text : Text} {p : Placeholder} (h : p ∈ (extract text).2) :
    ∃ s, p.mark = 'G' :: s ∧ 'G' ∉ s := by
  obtain ⟨k, hstem, -⟩ := freshStem_absent text
  obtain ⟨s, hs, hG⟩ := stem_eq_cons k
  obtain ⟨i, -, heq⟩ := mark_of_mem_placeholders h
  refine ⟨s ++ padded _ i, by rw [heq, hstem, hs, List.cons_append], ?_⟩
  intro hmem
  rcases List.mem_append.1 hmem with hmem | hmem
  · exact hG hmem
  · exact absurd (isDigit_of_mem_padded hmem) (by decide)

/-- A mark is made of letters, digits and underscores. -/
theorem isMarkChar_of_mem_mark {text : Text} {p : Placeholder} (h : p ∈ (extract text).2)
    {c : Char} (hc : c ∈ p.mark) : isMarkChar c = true := by
  obtain ⟨k, hstem, -⟩ := freshStem_absent text
  obtain ⟨i, -, heq⟩ := mark_of_mem_placeholders h
  rw [heq, hstem] at hc
  rcases List.mem_append.1 hc with hc | hc
  · exact isMarkChar_of_mem_stem hc
  · exact isMarkChar_of_isDigit (isDigit_of_mem_padded hc)

/-- **The placeholders of an extraction are separable.** -/
theorem separable_extract (text : Text) : Separable (extract text).2 where
  mark_eq := by
    intro p hp
    exact exists_mark_eq_of_mem_extract hp
  mark_length := by
    intro p hp q hq
    rw [length_mark_of_mem_placeholders hp, length_mark_of_mem_placeholders hq]
  mark_nodup := nodup_mark_placeholders _ _
  mark_braces := by
    intro p hp
    constructor
    · intro hmem
      exact absurd (isMarkChar_of_mem_mark hp hmem) (by decide)
    · intro hmem
      exact absurd (isMarkChar_of_mem_mark hp hmem) (by decide)
  hole_eq := by
    intro p hp
    obtain ⟨part, hpart, heq⟩ := exists_part_of_mem_extract hp
    rw [← heq]
    exact Template.exists_hole_eq hpart
  hole_free := by
    intro p hp q hq hin
    obtain ⟨part, hpart, heq⟩ := exists_part_of_mem_extract hp
    have hhole : p.hole <:+: text := by
      rw [← heq, ← Template.text_ofText text]
      exact (List.suffix_append _ _).isInfix.trans (Template.infix_text_of_mem hpart)
    exact mark_not_infix_of_mem_extract hq (hin.trans hhole)

end EmbeddedSql.Interpolation
