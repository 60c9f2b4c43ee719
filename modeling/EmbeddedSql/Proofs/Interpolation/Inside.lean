/-
**Where an interpolation is open.**

Whether an offset lies inside an interpolation is decided by the text before it, although the
scanner may look at the character behind: it does not matter what follows.  The spans of a text are
decided at the other end: an interpolation counts as soon as it is closed, and one that never closes
does not count at all.  This module shows that the two describe the same interpolations.  An offset
is inside exactly if it lies between the ends of a span, or behind the brace of the interpolation
that is still open at the end of the text.

Main definition:

* `Interpolation.pending` — the text of the interpolation that never closes.

Main results:

* `Interpolation.unclosed?_eq_some_iff` — the pass over the text finds the interpolation that is
  still open;
* `Interpolation.pairwise_spans` — spans are in order and apart;
* `Interpolation.inside_iff_span_or_unclosed` — **the offsets inside an interpolation** are those of
  the spans and those of the interpolation that never closes.
-/

import EmbeddedSql.Proofs.Interpolation.Spans
import Mathlib.Data.Nat.Find

set_option relaxedAutoImplicit false
set_option autoImplicit false

namespace EmbeddedSql.Interpolation

/-! ### The interpolation that never closes -/

theorem unclosedFrom_eq_some_iff {m : Mode} {s : Text} {start : Nat}
    (h : (m.run s).isHole = true → OpenAt m s start) (t : Text) (u : Nat) :
    unclosedFrom (m.run s) start s.length t = some u ↔ OpenAt m (s ++ t) u := by
  induction t generalizing s start with
  | nil =>
      rw [unclosedFrom, List.append_nil]
      split
      · next hopen =>
          rw [Option.some.injEq]
          constructor
          · rintro rfl
            exact h hopen
          · intro hu
            exact (h hopen).unique hu
      · next hclosed =>
          constructor
          · intro hnone
            cases hnone
          · intro hu
            exact absurd hu.isHole hclosed
  | cons c t ih =>
      have happend : s ++ c :: t = s ++ [c] ++ t := by simp
      have hlength : s.length + 1 = (s ++ [c]).length := by simp
      rw [unclosedFrom, ← Mode.run_snoc, happend, hlength]
      refine ih ?_
      intro hnext
      rw [Mode.run_snoc] at hnext
      split
      · next hopen => exact (h hopen).snoc hnext
      · next hclosed => exact openAt_snoc (Bool.eq_false_iff.2 hclosed) hnext

/-- The pass over a text finds the interpolation that is still open. -/
theorem unclosed?_eq_some_iff {t : Text} {u : Nat} : unclosed? t = some u ↔ OpenAt .sql t u := by
  have hstart : (Mode.sql.run []).isHole = true → OpenAt .sql [] 0 := by
    intro hopen
    cases hopen
  exact unclosedFrom_eq_some_iff hstart t u

/-- The interpolation that is still open at the end of a text, from its brace on; nothing if there
is none. -/
def pending (t : Text) : Text :=
  match unclosed? t with
  | none => []
  | some u => t.drop u

/-- A text ends in an open interpolation. -/
def EndsOpen (m : Mode) (t w : Text) : Prop :=
  ∃ u, OpenAt m t u ∧ t.drop u = w

/-- Texts that end in the same open interpolations have the same one pending. -/
theorem pending_eq_of_endsOpen {s t : Text} (h : ∀ w, EndsOpen .sql s w ↔ EndsOpen .sql t w) :
    pending s = pending t := by
  unfold pending
  cases hs : unclosed? s with
  | some u =>
      obtain ⟨u', hopen, hdrop⟩ := (h _).1 ⟨u, unclosed?_eq_some_iff.1 hs, rfl⟩
      rw [unclosed?_eq_some_iff.2 hopen]
      exact hdrop.symm
  | none =>
      cases ht : unclosed? t with
      | none => rfl
      | some u =>
          obtain ⟨u', hopen, -⟩ := (h _).2 ⟨u, unclosed?_eq_some_iff.1 ht, rfl⟩
          rw [unclosed?_eq_some_iff.2 hopen] at hs
          cases hs

/-! ### Spans in order -/

theorem le_of_mem_spansFrom {start : Nat} {parts : List (Text × Text)} {s : Nat × Nat}
    (h : s ∈ Template.spansFrom start parts) : start ≤ s.1 := by
  induction parts generalizing start with
  | nil => simp [Template.spansFrom] at h
  | cons part parts ih =>
      rw [Template.spansFrom] at h
      rcases List.mem_cons.1 h with rfl | h
      · exact Nat.le_add_right _ _
      · have hle := ih h
        omega

theorem pairwise_spansFrom (start : Nat) (parts : List (Text × Text)) :
    (Template.spansFrom start parts).Pairwise fun a b => a.2 ≤ b.1 := by
  induction parts generalizing start with
  | nil => exact List.Pairwise.nil
  | cons part parts ih =>
      rw [Template.spansFrom]
      refine List.Pairwise.cons ?_ (ih _)
      intro s hs
      exact le_of_mem_spansFrom hs

/-- Spans are in order and do not overlap. -/
theorem pairwise_spans (t : Text) : (spans t).Pairwise fun a b => a.2 ≤ b.1 := by
  rw [spans_eq]
  exact pairwise_spansFrom 0 _

/-- Before a hole, a brace opens it. -/
theorem HoleAt.opens {m : Mode} {t : Text} {lo hi : Nat} (h : HoleAt m t lo hi) :
    ((m.run (t.take lo)).step '{').isHole = true := by
  have hopen := h.within (lo + 1) (Nat.lt_succ_self lo) h.lt
  rwa [run_take_succ m h.brace] at hopen

/-- A hole ends with a brace. -/
theorem HoleAt.closing_brace {m : Mode} {t : Text} {lo hi : Nat} (h : HoleAt m t lo hi) :
    t[hi - 1]? = some '}' := by
  have hlt := h.lt
  have hle := h.le
  obtain ⟨k, rfl⟩ : ∃ k, hi = k + 1 := ⟨hi - 1, by omega⟩
  have hget := List.getElem?_eq_getElem (show k < t.length by omega)
  have hopen := h.within k (by omega) (by omega)
  have hbehind := h.behind
  rw [run_take_succ m hget] at hbehind
  rw [Nat.add_sub_cancel, hget, Mode.eq_of_step_closes hopen hbehind]

/-! ### Offsets inside -/

/-- An interpolation that is open at an offset was opened before it and stayed open since. -/
theorem exists_opening {m : Mode} (hm : m.isHole = false) {t : Text} {o : Nat}
    (h : (m.run (t.take o)).isHole = true) :
    ∃ lo < o, (m.run (t.take lo)).isHole = false ∧
      ∀ k, lo < k → k ≤ o → (m.run (t.take k)).isHole = true := by
  induction o with
  | zero =>
      rw [List.take_zero, Mode.run_nil, hm] at h
      cases h
  | succ o ih =>
      cases ho : (m.run (t.take o)).isHole with
      | false =>
          refine ⟨o, Nat.lt_succ_self o, ho, ?_⟩
          intro k hlo hk
          obtain rfl : k = o + 1 := by omega
          exact h
      | true =>
          obtain ⟨lo, hlt, hbefore, hwithin⟩ := ih ho
          refine ⟨lo, by omega, hbefore, ?_⟩
          intro k hlo hk
          rcases Nat.eq_or_lt_of_le hk with rfl | hk
          · exact h
          · exact hwithin k hlo (by omega)

/-- An interpolation that is open at an offset is a hole around it, or never closes. -/
theorem exists_holeAt_or_openAt {m : Mode} (hm : m.isHole = false) {t : Text} {o : Nat}
    (ho : o ≤ t.length) (h : (m.run (t.take o)).isHole = true) :
    (∃ lo hi, HoleAt m t lo hi ∧ lo < o ∧ o < hi) ∨ ∃ lo, OpenAt m t lo ∧ lo < o := by
  obtain ⟨lo, hlo, hbefore, hwithin⟩ := exists_opening hm h
  by_cases hclosed : ∃ hi, o < hi ∧ hi ≤ t.length ∧ (m.run (t.take hi)).isHole = false
  · -- the first offset behind `o` at which nothing is open ends the hole
    classical
    obtain ⟨hlt, hle, hbehind⟩ := Nat.find_spec hclosed
    refine Or.inl ⟨lo, Nat.find hclosed, ⟨by omega, hle, hbefore, hbehind, ?_⟩, hlo, hlt⟩
    intro k hk hhi
    by_cases hko : k ≤ o
    · exact hwithin k hk hko
    · have hmin := Nat.find_min hclosed hhi
      rw [← Bool.not_eq_false]
      intro hfalse
      exact hmin ⟨by omega, by omega, hfalse⟩
  · refine Or.inr ⟨lo, ⟨by omega, hbefore, ?_⟩, hlo⟩
    intro k hk hlen
    by_cases hko : k ≤ o
    · exact hwithin k hk hko
    · rw [← Bool.not_eq_false]
      intro hfalse
      exact hclosed ⟨k, by omega, hlen, hfalse⟩

/-- **The offsets inside an interpolation** are those between the ends of a span, and those behind
the brace of the interpolation that never closes.  The spans are in order and apart, each runs from
an opening brace to a closing one, and what follows an offset does not matter. -/
theorem inside_iff_span_or_unclosed (text : Text) (o : Nat) (ho : o ≤ text.length) :
    (inside text o = true ↔
      (∃ s ∈ spans text, s.1 < o ∧ o < s.2) ∨ ∃ u, unclosed? text = some u ∧ u < o) ∧
    ((spans text).Pairwise fun a b => a.2 ≤ b.1) ∧
    (∀ s ∈ spans text, s.1 + 1 < s.2 ∧ s.2 ≤ text.length ∧
      text[s.1]? = some '{' ∧ text[s.2 - 1]? = some '}') ∧
    ∀ z, inside (text.take o ++ z) o = inside text o := by
  refine ⟨⟨?_, ?_⟩, pairwise_spans text, ?_, ?_⟩
  · intro hinside
    rw [inside_eq] at hinside
    rcases exists_holeAt_or_openAt rfl ho hinside with ⟨lo, hi, hhole, hlo, hhi⟩ | ⟨u, hopen, hu⟩
    · exact Or.inl ⟨(lo, hi), mem_spans_iff.2 hhole, hlo, hhi⟩
    · exact Or.inr ⟨u, unclosed?_eq_some_iff.2 hopen, hu⟩
  · rw [inside_eq]
    rintro (⟨s, hs, hlo, hhi⟩ | ⟨u, hopen, hu⟩)
    · exact (mem_spans_iff.1 hs).within o hlo hhi
    · exact (unclosed?_eq_some_iff.1 hopen).within o hu ho
  · intro s hs
    have hhole : HoleAt .sql text s.1 s.2 := mem_spans_iff.1 hs
    exact ⟨hhole.lt, hhole.le, hhole.brace, hhole.closing_brace⟩
  · -- the scanner may look at the first character of `z`, the automaton does not
    intro z
    have htake : (text.take o ++ z).take o = text.take o := by
      rw [List.take_append_of_le_length (by simp [ho]), List.take_take, Nat.min_self]
    rw [inside_eq, inside_eq, htake]

/-- The braces in the comment open and close nothing, and neither does the one in the string.  Cut
between the quotes of a doubled quote, the text seems to end its string there; the interpolation is
open all the same. -/
theorem inside_between_doubled_quotes :
    let text := "\x7ba\x7d -- \x7bb\x7d\n\x7bf('\x7d''".toList
    17 ≤ text.length ∧ spans text = [(0, 3)] ∧ unclosed? text = some 11 ∧
      inside text 17 = true := by
  intro text
  have hle : 17 ≤ text.length := by decide +kernel
  have hspans : spans text = [(0, 3)] := by decide +kernel
  have hopen : unclosed? text = some 11 := by decide +kernel
  obtain ⟨hiff, -⟩ := inside_iff_span_or_unclosed text 17 hle
  exact ⟨hle, hspans, hopen, hiff.2 (Or.inr ⟨11, hopen, by decide⟩)⟩

end EmbeddedSql.Interpolation
