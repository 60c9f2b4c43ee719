/-
**How often a pattern stands in a text.**

`Text.occurs` answers whether a pattern stands in a text, `Text.replaceFirst` exchanges the leftmost
place where it does.  This module counts the places.  The count of a text that is put together from
two pieces is the sum of the counts of the pieces unless an occurrence reaches over the seam, and
an occurrence that does so holds the first character behind the seam somewhere after its own first
character.  So one look at the characters of the pattern is enough to add counts.

Main definitions:

* `Text.tally` — the number of offsets at which a pattern stands.

Main results:

* `Text.tally_pos_iff` — a pattern that stands somewhere is counted;
* `Text.tally_append_cons` — **no occurrence reaches over a seam** when the character behind the
  seam is not among the later characters of the pattern;
* `Text.exists_replaceFirst` — where the leftmost occurrence is exchanged.
-/

import EmbeddedSql.Text.Basic

set_option relaxedAutoImplicit false
set_option autoImplicit false

namespace EmbeddedSql.Text

/-! ### Counting -/

/-- The number of offsets at which a pattern stands. -/
def tally (pattern : Text) : Text → Nat
  | [] => if pattern = [] then 1 else 0
  | c :: t => (if pattern <+: c :: t then 1 else 0) + tally pattern t

@[simp] theorem tally_nil {pattern : Text} (h : pattern ≠ []) : tally pattern [] = 0 := by
  simp [tally, h]

theorem tally_cons (pattern : Text) (c : Char) (t : Text) :
    tally pattern (c :: t) = (if pattern <+: c :: t then 1 else 0) + tally pattern t := rfl

/-- A pattern is counted exactly when it stands somewhere. -/
theorem tally_pos_iff (pattern t : Text) : 0 < tally pattern t ↔ pattern <:+: t := by
  induction t with
  | nil => by_cases h : pattern = [] <;> simp [tally, h]
  | cons c t ih =>
      rw [tally_cons, List.infix_cons_iff, ← ih]
      by_cases h : pattern <+: c :: t
      · simp only [h, if_true, true_or, iff_true]
        omega
      · simp [h]

theorem tally_eq_zero_iff (pattern t : Text) : tally pattern t = 0 ↔ ¬ pattern <:+: t := by
  rw [← tally_pos_iff]
  omega

/-! ### Seams -/

/-- A start of `u ++ b :: v` that does not hold `b` behind its own first character is a start of
`u`, unless `u` is empty. -/
theorem prefix_append_cons_iff {pattern u v : Text} {b c : Char} (hb : b ∉ pattern.tail) :
    pattern <+: c :: (u ++ b :: v) ↔ pattern <+: c :: u := by
  constructor
  · intro h
    rw [← List.cons_append] at h
    rcases List.prefix_or_prefix_of_prefix h (List.prefix_append (c :: u) (b :: v)) with hp | hp
    · exact hp
    · -- the pattern goes on behind `c :: u`, so it goes on with `b` or ends there
      obtain ⟨w, rfl⟩ := hp
      rw [List.prefix_append_right_inj] at h
      cases w with
      | nil => simp
      | cons d w =>
          rw [List.cons_prefix_cons] at h
          simp [h.1] at hb
  · intro h
    exact h.trans (List.prefix_append (c :: u) (b :: v))

/-- **No occurrence reaches over a seam** when the character behind the seam is not among the later
characters of the pattern. -/
theorem tally_append_cons {pattern : Text} {b : Char} (hne : pattern ≠ []) (hb : b ∉ pattern.tail)
    (u v : Text) : tally pattern (u ++ b :: v) = tally pattern u + tally pattern (b :: v) := by
  induction u with
  | nil => simp [hne]
  | cons c u ih =>
      rw [List.cons_append, tally_cons, tally_cons, ih]
      simp only [prefix_append_cons_iff hb]
      omega

/-- Characters with which the pattern does not start do not count. -/
theorem tally_append_of_forall_ne {pattern s : Text} {a : Char} {p : Text} (hp : pattern = a :: p)
    (hs : a ∉ s) (v : Text) : tally pattern (s ++ v) = tally pattern v := by
  induction s with
  | nil => rfl
  | cons c s ih =>
      have hc : a ≠ c := fun h => hs (by simp [h])
      have hrest : a ∉ s := fun h => hs (List.mem_cons_of_mem c h)
      rw [List.cons_append, tally_cons, ih hrest]
      simp [hp, List.cons_prefix_cons, hc]

/-- A character that the pattern does not hold separates the text. -/
theorem tally_append_cons_of_not_mem {pattern : Text} {b : Char} (hne : pattern ≠ [])
    (hb : b ∉ pattern) (u v : Text) :
    tally pattern (u ++ b :: v) = tally pattern u + tally pattern v := by
  obtain ⟨a, p, hp⟩ := List.exists_cons_of_ne_nil hne
  have hab : a ∉ [b] := by
    intro h
    rw [List.mem_singleton] at h
    simp [hp, h] at hb
  rw [tally_append_cons hne (fun h => hb (List.mem_of_mem_tail h)), ← List.singleton_append,
    tally_append_of_forall_ne hp hab v]

/-! ### The leftmost occurrence -/

theorem replaceFirst_cons_of_not_here {pattern new t : Text} {c : Char}
    (h : ¬ pattern <+: c :: t) :
    replaceFirst pattern new (c :: t) = c :: replaceFirst pattern new t := by
  simp [replaceFirst, h]

/-- Without an occurrence nothing is exchanged. -/
theorem replaceFirst_of_absent {pattern new t : Text} (h : ¬ pattern <:+: t) :
    replaceFirst pattern new t = t := by
  induction t with
  | nil =>
      have hne : pattern ≠ [] := fun hp => h (by simp [hp])
      simp [replaceFirst, hne]
  | cons c t ih =>
      rw [List.infix_cons_iff, not_or] at h
      rw [replaceFirst_cons_of_not_here h.1, ih h.2]

/-- The leftmost occurrence is taken out and the new text put in its place. -/
theorem exists_replaceFirst {pattern t : Text} (new : Text) (h : pattern <:+: t) :
    ∃ u v, t = u ++ pattern ++ v ∧ replaceFirst pattern new t = u ++ new ++ v := by
  induction t with
  | nil =>
      obtain rfl : pattern = [] := by simpa using h
      exact ⟨[], [], rfl, by simp [replaceFirst]⟩
  | cons c t ih =>
      by_cases hp : pattern <+: c :: t
      · obtain ⟨v, hv⟩ := hp
        refine ⟨[], v, by simp [hv], ?_⟩
        rw [← hv]
        cases pattern with
        | nil => cases v <;> simp [replaceFirst]
        | cons d pattern => simp [replaceFirst]
      · rw [List.infix_cons_iff] at h
        obtain ⟨u, v, ht, hr⟩ := ih (h.resolve_left hp)
        refine ⟨c :: u, v, by simp [ht], ?_⟩
        rw [replaceFirst_cons_of_not_here hp, hr]
        simp

end EmbeddedSql.Text
