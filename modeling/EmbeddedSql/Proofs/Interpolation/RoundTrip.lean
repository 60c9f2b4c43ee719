/-
**Restoring interpolations loses nothing.**

Restoration exchanges the placeholders one after another, each where it stands first.  The text it
works on is whatever a formatter made of the extracted text, so a placeholder may be gone, may
stand there twice, and may have any neighbours.  What carries the proofs is that two placeholders
never overlap and that nothing an interpolation brings along can complete a placeholder: for
separable placeholders one exchange takes away one occurrence of its own mark and leaves the number
of all other marks alone (`Interpolation.Separable.tally_replaceFirst`).  Hence the sequence of
exchanges is the same as one pass from left to right that exchanges every mark where it stands.

Main definitions:

* `Interpolation.substitute` — every mark exchanged for its interpolation, in one pass.

Main results:

* `Interpolation.Separable.tally_restore` — restoration takes away one occurrence of every mark;
* `Interpolation.Separable.restore_eq_substitute` — when every mark stands there at most once,
  restoration is the substitution;
* `Interpolation.verify_eq_ok_iff` — what the verification of a restored text looks at;
* `Interpolation.extract_restore_lossless` — **extraction followed by restoration is lossless** and
  passes the verification;
* `Interpolation.verify_restore_iff` — **the verification accepts exactly the texts in which every
  mark stands once and no brace came or went**.
-/

import EmbeddedSql.Proofs.Interpolation.Placeholder
import EmbeddedSql.Proofs.Text.Occurrence
import Mathlib.Data.List.Find

set_option relaxedAutoImplicit false
set_option autoImplicit false

namespace EmbeddedSql.Interpolation

open Text

/-! ### Substitution in one pass -/

/-- Every mark from some place on exchanged for its interpolation; `skip` characters of a mark are
still to be passed over. -/
def substituteFrom (ps : List Placeholder) : (skip : Nat) → Text → Text
  | _, [] => []
  | skip + 1, _ :: t => substituteFrom ps skip t
  | 0, c :: t =>
    match ps.find? (·.mark.isPrefixOf (c :: t)) with
    | some p => p.hole ++ substituteFrom ps (p.mark.length - 1) t
    | none => c :: substituteFrom ps 0 t

/-- Every mark in a text exchanged for its interpolation, in place and in one pass. -/
def substitute (ps : List Placeholder) (t : Text) : Text :=
  substituteFrom ps 0 t

@[simp] theorem substitute_nil (ps : List Placeholder) : substitute ps [] = [] := rfl

theorem substituteFrom_length_append (ps : List Placeholder) (s v : Text) :
    substituteFrom ps s.length (s ++ v) = substitute ps v := by
  induction s with
  | nil => rfl
  | cons c s ih => simpa [substituteFrom] using ih

theorem substituteFrom_zero_of_find_eq_none {ps : List Placeholder} {c : Char} {t : Text}
    (h : ps.find? (·.mark.isPrefixOf (c :: t)) = none) :
    substituteFrom ps 0 (c :: t) = c :: substitute ps t := by
  simp [substituteFrom, substitute, h]

theorem substituteFrom_zero_of_find_eq_some {ps : List Placeholder} {c : Char} {t : Text}
    {p : Placeholder} (h : ps.find? (·.mark.isPrefixOf (c :: t)) = some p) :
    substituteFrom ps 0 (c :: t) = p.hole ++ substituteFrom ps (p.mark.length - 1) t := by
  simp [substituteFrom, h]

/-- A text without marks stays as it is. -/
theorem substitute_of_absent {ps : List Placeholder} {t : Text}
    (h : ∀ p ∈ ps, ¬ p.mark <:+: t) : substitute ps t = t := by
  induction t with
  | nil => rfl
  | cons c t ih =>
      have hnone : ps.find? (·.mark.isPrefixOf (c :: t)) = none := by
        rw [List.find?_eq_none]
        intro p hp hpre
        exact h p hp (List.isPrefixOf_iff_prefix.1 hpre).isInfix
      have hrest : ∀ p ∈ ps, ¬ p.mark <:+: t := fun p hp hin =>
        h p hp (hin.trans (List.suffix_cons c t).isInfix)
      rw [substitute, substituteFrom_zero_of_find_eq_none hnone, ih hrest]

/-- The pass does its work on both sides of a seam over which no mark reaches. -/
theorem substituteFrom_append_cons {ps : List Placeholder} {b : Char}
    (hb : ∀ p ∈ ps, b ∉ p.mark.tail) (u v : Text) (skip : Nat) (hskip : skip ≤ u.length) :
    substituteFrom ps skip (u ++ b :: v) = substituteFrom ps skip u ++ substitute ps (b :: v) := by
  induction u generalizing skip with
  | nil =>
      obtain rfl : skip = 0 := by simpa using hskip
      simp [substituteFrom, substitute]
  | cons c u ih =>
      cases skip with
      | succ skip =>
          simp only [List.cons_append, substituteFrom]
          exact ih skip (by simpa using hskip)
      | zero =>
          -- whether a mark stands here does not depend on what is behind the seam
          have hfind : ps.find? (·.mark.isPrefixOf (c :: (u ++ b :: v))) =
              ps.find? (·.mark.isPrefixOf (c :: u)) := by
            refine List.find?_congr fun p hp => ?_
            rw [Bool.eq_iff_iff, List.isPrefixOf_iff_prefix, List.isPrefixOf_iff_prefix]
            exact prefix_append_cons_iff (hb p hp)
          rw [List.cons_append]
          cases hp : ps.find? (·.mark.isPrefixOf (c :: u)) with
          | none =>
              rw [substituteFrom_zero_of_find_eq_none (hfind.trans hp),
                substituteFrom_zero_of_find_eq_none hp, substitute, ih 0 (Nat.zero_le _)]
              rfl
          | some p =>
              have hlen : p.mark.length ≤ (c :: u).length :=
                (List.isPrefixOf_iff_prefix.1 (by simpa using List.find?_some hp)).length_le
              rw [substituteFrom_zero_of_find_eq_some (hfind.trans hp),
                substituteFrom_zero_of_find_eq_some hp, ih _ (by simp at hlen; omega),
                List.append_assoc]

theorem substitute_append_cons {ps : List Placeholder} {b : Char}
    (hb : ∀ p ∈ ps, b ∉ p.mark.tail) (u v : Text) :
    substitute ps (u ++ b :: v) = substitute ps u ++ substitute ps (b :: v) :=
  substituteFrom_append_cons hb u v 0 (Nat.zero_le _)

/-! ### One exchange -/

namespace Separable

variable {ps : List Placeholder} (hs : Separable ps)

include hs

theorem mark_ne_nil {p : Placeholder} (hp : p ∈ ps) : p.mark ≠ [] := by
  obtain ⟨s, h, -⟩ := hs.mark_eq p hp
  simp [h]

theorem not_mem_tail {p : Placeholder} (hp : p ∈ ps) : 'G' ∉ p.mark.tail := by
  obtain ⟨s, h, hG⟩ := hs.mark_eq p hp
  simpa [h] using hG

theorem eq_of_mark_eq {p q : Placeholder} (hp : p ∈ ps) (hq : q ∈ ps) (h : p.mark = q.mark) :
    p = q :=
  List.inj_on_of_nodup_map hs.mark_nodup hp hq h

/-- No mark starts another one. -/
theorem eq_of_mark_starts {p q : Placeholder} {v : Text} (hp : p ∈ ps) (hq : q ∈ ps)
    (h : q.mark <+: p.mark ++ v) : q = p := by
  have hpre : q.mark <+: p.mark :=
    List.prefix_of_prefix_length_le h (List.prefix_append _ _) (hs.mark_length q hq p hp).le
  exact hs.eq_of_mark_eq hq hp (hpre.eq_of_length (hs.mark_length q hq p hp))

theorem not_mem_mark {p : Placeholder} {b : Char} (hp : p ∈ ps) (hb : b = '{' ∨ b = '}') :
    b ∉ p.mark := by
  rcases hb with rfl | rfl
  · exact (hs.mark_braces p hp).1
  · exact (hs.mark_braces p hp).2

theorem substitute_mark_append {p : Placeholder} (hp : p ∈ ps) (v : Text) :
    substitute ps (p.mark ++ v) = p.hole ++ substitute ps v := by
  obtain ⟨s, hmark, -⟩ := hs.mark_eq p hp
  -- the search takes the first mark that stands here, and no other one can
  have hfind : ps.find? (·.mark.isPrefixOf ('G' :: (s ++ v))) = some p := by
    cases hq : ps.find? (·.mark.isPrefixOf ('G' :: (s ++ v))) with
    | none =>
        rw [List.find?_eq_none] at hq
        exact absurd (by simp [hmark]) (hq p hp)
    | some q =>
        have hpre : q.mark <+: p.mark ++ v := by
          simpa [hmark] using List.find?_some hq
        rw [hs.eq_of_mark_starts hp (List.mem_of_find?_eq_some hq) hpre]
  rw [substitute, hmark, List.cons_append, substituteFrom_zero_of_find_eq_some hfind, hmark]
  rw [List.length_cons, Nat.add_sub_cancel, substituteFrom_length_append]

theorem substitute_append_mark {p : Placeholder} (hp : p ∈ ps) (u v : Text) :
    substitute ps (u ++ p.mark ++ v) = substitute ps u ++ p.hole ++ substitute ps v := by
  obtain ⟨s, hmark, -⟩ := hs.mark_eq p hp
  rw [List.append_assoc, List.append_assoc, ← hs.substitute_mark_append hp, hmark]
  exact substitute_append_cons (fun q hq => hs.not_mem_tail hq) u (s ++ v)

theorem substitute_brace_cons {b : Char} (hb : b = '{' ∨ b = '}') (v : Text) :
    substitute ps (b :: v) = b :: substitute ps v := by
  refine substituteFrom_zero_of_find_eq_none ?_
  rw [List.find?_eq_none]
  intro p hp hpre
  obtain ⟨s, hmark, -⟩ := hs.mark_eq p hp
  have hG : 'G' = b := by
    rw [hmark, List.isPrefixOf_iff_prefix, List.cons_prefix_cons] at hpre
    exact hpre.1
  exact hs.not_mem_mark hp hb (by simp [hmark, ← hG])

theorem substitute_append_hole {p : Placeholder} (hp : p ∈ ps) (u v : Text) :
    substitute ps (u ++ p.hole ++ v) = substitute ps u ++ p.hole ++ substitute ps v := by
  obtain ⟨s, hhole⟩ := hs.hole_eq p hp
  have hseam : ∀ {b : Char}, b = '{' ∨ b = '}' → ∀ q ∈ ps, b ∉ q.mark.tail := fun hb q hq h =>
    hs.not_mem_mark hq hb (List.mem_of_mem_tail h)
  -- the interpolation without its last brace holds no mark either
  have hbody : substitute ps ('{' :: s) = '{' :: s := by
    refine substitute_of_absent fun q hq hin => hs.hole_free p hp q hq (hin.trans ?_)
    rw [hhole, ← List.cons_append]
    exact (List.prefix_append _ _).isInfix
  have hsplit : u ++ p.hole ++ v = u ++ '{' :: (s ++ '}' :: v) := by simp [hhole]
  rw [hsplit, substitute_append_cons (hseam (Or.inl rfl)), ← List.cons_append,
    substitute_append_cons (hseam (Or.inr rfl)), hbody,
    hs.substitute_brace_cons (Or.inr rfl), hhole]
  simp

/-- Exchanging one mark is part of exchanging all of them. -/
theorem substitute_replaceFirst {p : Placeholder} (hp : p ∈ ps) (t : Text) :
    substitute ps (replaceFirst p.mark p.hole t) = substitute ps t := by
  by_cases h : p.mark <:+: t
  · obtain ⟨u, v, rfl, hr⟩ := exists_replaceFirst p.hole h
    rw [hr, hs.substitute_append_hole hp, hs.substitute_append_mark hp]
  · rw [replaceFirst_of_absent h]

theorem tally_append_mark {p q : Placeholder} (hp : p ∈ ps) (hq : q ∈ ps) (u v : Text) :
    tally q.mark (u ++ p.mark ++ v) =
      tally q.mark u + (if q = p then 1 else 0) + tally q.mark v := by
  obtain ⟨s, hmark, hG⟩ := hs.mark_eq p hp
  obtain ⟨r, hmark', -⟩ := hs.mark_eq q hq
  have hfront : q.mark <+: 'G' :: (s ++ v) ↔ q = p := by
    rw [← List.cons_append, ← hmark]
    constructor
    · exact hs.eq_of_mark_starts hp hq
    · rintro rfl
      exact List.prefix_append _ _
  rw [List.append_assoc, hmark, List.cons_append,
    tally_append_cons (hs.mark_ne_nil hq) (hs.not_mem_tail hq), tally_cons,
    tally_append_of_forall_ne hmark' hG]
  simp only [hfront]
  omega

theorem tally_append_hole {p q : Placeholder} (hp : p ∈ ps) (hq : q ∈ ps) (u v : Text) :
    tally q.mark (u ++ p.hole ++ v) = tally q.mark u + tally q.mark v := by
  obtain ⟨s, hhole⟩ := hs.hole_eq p hp
  have hbody : tally q.mark s = 0 := by
    rw [tally_eq_zero_iff]
    intro hin
    refine hs.hole_free p hp q hq (hin.trans ⟨['{'], ['}'], ?_⟩)
    simp [hhole]
  have hsplit : u ++ p.hole ++ v = u ++ '{' :: (s ++ '}' :: v) := by simp [hhole]
  rw [hsplit,
    tally_append_cons_of_not_mem (hs.mark_ne_nil hq) (hs.not_mem_mark hq (Or.inl rfl)),
    tally_append_cons_of_not_mem (hs.mark_ne_nil hq) (hs.not_mem_mark hq (Or.inr rfl)), hbody]
  omega

/-- **One exchange takes away one occurrence of its own mark** and leaves the other marks alone. -/
theorem tally_replaceFirst {p q : Placeholder} (hp : p ∈ ps) (hq : q ∈ ps) (t : Text) :
    tally q.mark (replaceFirst p.mark p.hole t) = tally q.mark t - (if q = p then 1 else 0) := by
  by_cases h : p.mark <:+: t
  · obtain ⟨u, v, rfl, hr⟩ := exists_replaceFirst p.hole h
    rw [hr, hs.tally_append_hole hp hq, hs.tally_append_mark hp hq]
    omega
  · rw [replaceFirst_of_absent h]
    split
    · next heq =>
        subst heq
        rw [(tally_eq_zero_iff _ _).2 h]
    · rfl

/-- One exchange brings in the braces of the interpolation. -/
theorem count_replaceFirst {p : Placeholder} (hp : p ∈ ps) {t : Text} (h : p.mark <:+: t) {b : Char}
    (hb : b = '{' ∨ b = '}') :
    (replaceFirst p.mark p.hole t).count b = t.count b + p.hole.count b := by
  obtain ⟨u, v, rfl, hr⟩ := exists_replaceFirst p.hole h
  have hzero : p.mark.count b = 0 := List.count_eq_zero.2 (hs.not_mem_mark hp hb)
  rw [hr]
  simp only [List.count_append, hzero]
  omega

end Separable

/-! ### All exchanges -/

@[simp] theorem restore_nil (t : Text) : restore t [] = t := rfl

theorem restore_cons (t : Text) (p : Placeholder) (qs : List Placeholder) :
    restore t (p :: qs) = restore (replaceFirst p.mark p.hole t) qs := rfl

namespace Separable

variable {ps : List Placeholder} (hs : Separable ps)

include hs

theorem substitute_restore (t : Text) {qs : List Placeholder} (hqs : qs ⊆ ps) :
    substitute ps (restore t qs) = substitute ps t := by
  induction qs generalizing t with
  | nil => rfl
  | cons p qs ih =>
      obtain ⟨hp, hqs⟩ := List.cons_subset.1 hqs
      rw [restore_cons, ih _ hqs, hs.substitute_replaceFirst hp]

/-- Restoration takes away one occurrence of every mark. -/
theorem tally_restore (t : Text) {qs : List Placeholder} (hqs : qs ⊆ ps) (hnodup : qs.Nodup)
    {q : Placeholder} (hq : q ∈ ps) :
    tally q.mark (restore t qs) = tally q.mark t - (if q ∈ qs then 1 else 0) := by
  induction qs generalizing t with
  | nil => simp
  | cons p qs ih =>
      obtain ⟨hp, hqs⟩ := List.cons_subset.1 hqs
      obtain ⟨hnew, hnodup⟩ := List.nodup_cons.1 hnodup
      rw [restore_cons, ih _ hqs hnodup, hs.tally_replaceFirst hp hq]
      by_cases heq : q = p
      · subst heq
        simp [hnew]
      · simp [heq]

theorem nodup : ps.Nodup :=
  List.Nodup.of_map _ hs.mark_nodup

theorem tally_restore_self (t : Text) {q : Placeholder} (hq : q ∈ ps) :
    tally q.mark (restore t ps) = tally q.mark t - 1 := by
  simp [hs.tally_restore t (List.Subset.refl ps) hs.nodup hq, hq]

/-- When no mark stands there twice, restoration exchanges every mark where it stands. -/
theorem restore_eq_substitute {t : Text} (h : ∀ p ∈ ps, tally p.mark t ≤ 1) :
    restore t ps = substitute ps t := by
  -- the substitution gives the same before and after, and finds nothing to do after
  rw [← hs.substitute_restore t (List.Subset.refl ps)]
  refine (substitute_of_absent fun p hp => ?_).symm
  rw [← tally_eq_zero_iff, hs.tally_restore_self t hp]
  have := h p hp
  omega

/-- Restoration brings in the braces of the interpolations. -/
theorem count_restore {t : Text} {qs : List Placeholder} (hqs : qs ⊆ ps) (hnodup : qs.Nodup)
    (h : ∀ q ∈ qs, 0 < tally q.mark t) {b : Char} (hb : b = '{' ∨ b = '}') :
    (restore t qs).count b = t.count b + (qs.flatMap (·.hole)).count b := by
  induction qs generalizing t with
  | nil => simp
  | cons p qs ih =>
      obtain ⟨hp, hqs⟩ := List.cons_subset.1 hqs
      obtain ⟨hnew, hnodup⟩ := List.nodup_cons.1 hnodup
      -- the exchange of `p` leaves the marks that are still to come
      have hkept : ∀ q ∈ qs, 0 < tally q.mark (replaceFirst p.mark p.hole t) := by
        intro q hq
        have hne : q ≠ p := fun heq => hnew (heq ▸ hq)
        simpa [hs.tally_replaceFirst hp (hqs hq), hne] using h q (List.mem_cons_of_mem p hq)
      have hin : p.mark <:+: t := (tally_pos_iff _ _).1 (h p List.mem_cons_self)
      rw [restore_cons, ih hqs hnodup hkept, hs.count_replaceFirst hp hin hb, List.flatMap_cons,
        List.count_append, Nat.add_assoc]

end Separable

/-! ### Verification -/

theorem verifyMarks_eq_ok_iff (transformed restored : Text) (ps : List Placeholder) :
    verifyMarks transformed restored ps = .ok () ↔
      ∀ p ∈ ps, p.mark <:+: transformed ∧ ¬ p.mark <:+: restored := by
  induction ps with
  | nil => simp [verifyMarks]
  | cons p ps ih =>
      rw [List.forall_mem_cons, ← ih, ← occurs_iff, ← occurs_iff, verifyMarks]
      by_cases h₁ : occurs p.mark transformed = true
      · by_cases h₂ : occurs p.mark restored = true <;> simp [h₁, h₂]
      · simp [h₁]

theorem verifyBrace_eq_ok_iff (text restored : Text) (b : Char) :
    verifyBrace text restored b = .ok () ↔ text.count b = restored.count b := by
  simp only [verifyBrace]
  split <;> simp_all

/-- What the verification of a restored text looks at. -/
theorem verify_eq_ok_iff (text transformed restored : Text) (ps : List Placeholder) :
    verify text transformed restored ps = .ok () ↔
      (∀ p ∈ ps, p.mark <:+: transformed ∧ ¬ p.mark <:+: restored) ∧
        text.count '{' = restored.count '{' ∧ text.count '}' = restored.count '}' := by
  rw [← verifyMarks_eq_ok_iff, ← verifyBrace_eq_ok_iff, ← verifyBrace_eq_ok_iff]
  simp only [verify, bind, Except.bind]
  cases verifyMarks transformed restored ps with
  | error e => simp
  | ok u =>
      cases verifyBrace text restored '{' with
      | error e => simp
      | ok u => simp

/-- The marks pass when every one stands in the transformed text exactly once. -/
theorem Separable.marks_pass_iff {ps : List Placeholder} (hs : Separable ps) (t : Text) :
    (∀ p ∈ ps, p.mark <:+: t ∧ ¬ p.mark <:+: restore t ps) ↔ ∀ p ∈ ps, tally p.mark t = 1 := by
  refine forall₂_congr fun p hp => ?_
  rw [← tally_pos_iff, ← tally_eq_zero_iff, hs.tally_restore_self t hp]
  omega

/-! ### Filled templates -/

namespace Template

variable {ps : List Placeholder} (hs : Separable ps)

include hs

/-- A template filled with marks, none of which stands in a gap, becomes its own text again. -/
theorem substitute_fill {parts : List (Text × Text)} {rest : Text} {qs : List Placeholder}
    (hqs : qs ⊆ ps) (hholes : parts.map Prod.snd = qs.map (·.hole))
    (hgaps : ∀ part ∈ parts, ∀ p ∈ ps, ¬ p.mark <:+: part.1)
    (hrest : ∀ p ∈ ps, ¬ p.mark <:+: rest) :
    substitute ps (fill ⟨parts, rest⟩ (qs.map (·.mark))) = text ⟨parts, rest⟩ := by
  induction parts generalizing qs with
  | nil => simpa [fill, text] using substitute_of_absent hrest
  | cons part parts ih =>
      cases qs with
      | nil => simp at hholes
      | cons q qs =>
          obtain ⟨hq, hqs⟩ := List.cons_subset.1 hqs
          obtain ⟨hgap, hgaps⟩ := List.forall_mem_cons.1 hgaps
          simp only [List.map_cons, List.cons.injEq] at hholes
          rw [List.map_cons, fill_cons, hs.substitute_append_mark hq,
            ih hqs hholes.2 hgaps, substitute_of_absent hgap, text_cons, hholes.1]

/-- Every mark stands in a filled template as often as it was used. -/
theorem tally_fill {parts : List (Text × Text)} {rest : Text} {qs : List Placeholder}
    (hqs : qs ⊆ ps) (hlen : parts.length = qs.length)
    (hgaps : ∀ part ∈ parts, ∀ p ∈ ps, ¬ p.mark <:+: part.1)
    (hrest : ∀ p ∈ ps, ¬ p.mark <:+: rest) {p : Placeholder} (hp : p ∈ ps) :
    tally p.mark (fill ⟨parts, rest⟩ (qs.map (·.mark))) = qs.count p := by
  induction parts generalizing qs with
  | nil =>
      obtain rfl : qs = [] := List.length_eq_zero_iff.1 hlen.symm
      simpa [fill] using (tally_eq_zero_iff _ _).2 (hrest p hp)
  | cons part parts ih =>
      cases qs with
      | nil => simp at hlen
      | cons q qs =>
          obtain ⟨hq, hqs⟩ := List.cons_subset.1 hqs
          obtain ⟨hgap, hgaps⟩ := List.forall_mem_cons.1 hgaps
          rw [List.map_cons, fill_cons, hs.tally_append_mark hq hp,
            (tally_eq_zero_iff _ _).2 (hgap p hp), ih hqs (by simpa using hlen) hgaps,
            List.count_cons]
          by_cases h : q = p
          · simp [h, Nat.add_comm]
          · have h' : p ≠ q := fun heq => h heq.symm
            simp [h, h']

/-- What a template filled with marks lacks of its own braces. -/
theorem count_text {parts : List (Text × Text)} {rest : Text} {qs : List Placeholder}
    (hqs : qs ⊆ ps) (hholes : parts.map Prod.snd = qs.map (·.hole)) {b : Char}
    (hb : b = '{' ∨ b = '}') :
    (text ⟨parts, rest⟩).count b =
      (fill ⟨parts, rest⟩ (qs.map (·.mark))).count b + (qs.flatMap (·.hole)).count b := by
  induction parts generalizing qs with
  | nil =>
      obtain rfl : qs = [] := by simpa using hholes.symm
      simp [text, fill]
  | cons part parts ih =>
      cases qs with
      | nil => simp at hholes
      | cons q qs =>
          obtain ⟨hq, hqs⟩ := List.cons_subset.1 hqs
          simp only [List.map_cons, List.cons.injEq] at hholes
          have hzero : q.mark.count b = 0 := List.count_eq_zero.2 (hs.not_mem_mark hq hb)
          rw [text_cons, List.map_cons, fill_cons, List.flatMap_cons, ← hholes.1]
          simp only [List.count_append, ih hqs hholes.2, hzero]
          omega

end Template

/-! ### Extraction -/

theorem extract_fst (text : Text) :
    (extract text).1 = (Template.ofText text).fill ((extract text).2.map (·.mark)) := rfl

theorem map_hole_extract (text : Text) :
    (extract text).2.map (·.hole) = (Template.ofText text).holes :=
  map_hole_placeholders _ _

/-- No mark stands in a gap of the text. -/
theorem mark_not_infix_gap {text : Text} {part : Text × Text}
    (hpart : part ∈ (Template.ofText text).parts) {p : Placeholder} (hp : p ∈ (extract text).2) :
    ¬ p.mark <:+: part.1 := by
  intro hin
  refine mark_not_infix_of_mem_extract hp (hin.trans ?_)
  have hpart := Template.infix_text_of_mem hpart
  rw [Template.text_ofText] at hpart
  exact (List.prefix_append _ _).isInfix.trans hpart

theorem mark_not_infix_rest {text : Text} {p : Placeholder} (hp : p ∈ (extract text).2) :
    ¬ p.mark <:+: (Template.ofText text).rest := by
  intro hin
  refine mark_not_infix_of_mem_extract hp (hin.trans ?_)
  conv => rhs; rw [← Template.text_ofText text]
  exact (List.suffix_append _ _).isInfix

theorem tally_mark_extract {text : Text} {p : Placeholder} (hp : p ∈ (extract text).2) :
    tally p.mark (extract text).1 = 1 := by
  have hs := separable_extract text
  have hlen : (Template.ofText text).parts.length = (extract text).2.length := by
    have := congrArg List.length (map_hole_extract text)
    simpa [Template.holes] using this.symm
  rw [extract_fst, Template.tally_fill hs (List.Subset.refl _) hlen
    (fun _ hpart _ hq => mark_not_infix_gap hpart hq) (fun _ hq => mark_not_infix_rest hq) hp]
  exact List.count_eq_one_of_mem hs.nodup hp

theorem substitute_extract (text : Text) : substitute (extract text).2 (extract text).1 = text := by
  rw [extract_fst, Template.substitute_fill (separable_extract text) (List.Subset.refl _)
    (map_hole_extract text).symm (fun _ hpart _ hq => mark_not_infix_gap hpart hq)
    (fun _ hq => mark_not_infix_rest hq)]
  exact Template.text_ofText text

/-- The braces of a text are those of the extracted text and those of the interpolations. -/
theorem count_extract (text : Text) {b : Char} (hb : b = '{' ∨ b = '}') :
    text.count b =
      (extract text).1.count b + ((extract text).2.flatMap (·.hole)).count b := by
  rw [extract_fst, ← Template.count_text (separable_extract text) (List.Subset.refl _)
    (map_hole_extract text).symm hb]
  exact congrArg (List.count b) (Template.text_ofText text).symm

/-- Verification of a restored text in terms of the transformed one. -/
theorem verify_restore_eq_ok_iff (text t : Text) :
    verify text t (restore t (extract text).2) (extract text).2 = .ok () ↔
      (∀ p ∈ (extract text).2, tally p.mark t = 1) ∧
        t.count '{' = (extract text).1.count '{' ∧ t.count '}' = (extract text).1.count '}' := by
  have hs := separable_extract text
  rw [verify_eq_ok_iff, hs.marks_pass_iff]
  refine and_congr_right fun hone => ?_
  -- the text and the restored text both have the braces of the interpolations on top
  have hbrace : ∀ {b : Char}, b = '{' ∨ b = '}' →
      (text.count b = (restore t (extract text).2).count b ↔
        t.count b = (extract text).1.count b) := by
    intro b hb
    rw [count_extract text hb, hs.count_restore (List.Subset.refl _) hs.nodup
      (fun q hq => by rw [hone q hq]; exact Nat.one_pos) hb]
    omega
  rw [hbrace (Or.inl rfl), hbrace (Or.inr rfl)]

/-- **Extraction followed by restoration is lossless**: the text comes back, every placeholder
stands in the extracted text exactly once, and the verification accepts the result. -/
theorem extract_restore_lossless (text : Text) :
    restore (extract text).1 (extract text).2 = text ∧
      (∀ p ∈ (extract text).2, tally p.mark (extract text).1 = 1) ∧
      verify text (extract text).1 (restore (extract text).1 (extract text).2) (extract text).2 =
        .ok () := by
  have hone : ∀ p ∈ (extract text).2, tally p.mark (extract text).1 = 1 := fun p hp =>
    tally_mark_extract hp
  refine ⟨?_, hone, ?_⟩
  · rw [(separable_extract text).restore_eq_substitute fun p hp => (hone p hp).le]
    exact substitute_extract text
  · exact (verify_restore_eq_ok_iff text (extract text).1).2 ⟨hone, rfl, rfl⟩

/-- **The verification accepts a transformed text exactly when every placeholder stands in it once
and it has as many braces as the extracted text.**  Then restoration puts the interpolations of the
original text, as they were written, where their placeholders stand. -/
theorem verify_restore_iff (text t : Text) :
    (verify text t (restore t (extract text).2) (extract text).2 = .ok () ↔
      (∀ p ∈ (extract text).2, tally p.mark t = 1) ∧
        t.count '{' = (extract text).1.count '{' ∧ t.count '}' = (extract text).1.count '}') ∧
    (verify text t (restore t (extract text).2) (extract text).2 = .ok () →
      restore t (extract text).2 = substitute (extract text).2 t ∧
        (extract text).2.map (·.hole) = (Template.ofText text).holes) := by
  refine ⟨verify_restore_eq_ok_iff text t, fun hok => ⟨?_, map_hole_extract text⟩⟩
  have hone := ((verify_restore_eq_ok_iff text t).1 hok).1
  exact (separable_extract text).restore_eq_substitute fun p hp => (hone p hp).le

end EmbeddedSql.Interpolation
