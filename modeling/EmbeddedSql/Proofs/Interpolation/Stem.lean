/-
**The search for a free stem.**

The common start of all placeholders is looked for by trial: one candidate after another, until one
does not stand in the text.  Nothing in the search itself says that it ends.  It does because the
candidates that are passed over stand in the text at different offsets, and a text has only so many.
The search is described here as a relation that knows no bound, with one constructor for each
outcome of a trial.  That the bounded search of `Interpolation.freshStem` goes the same way, to the
end, is then a theorem.

Main definitions:

* `Interpolation.Search` — a search from one candidate on, with the number of its trials and the
  candidate it ends at.

Main results:

* `Interpolation.Search.unique` — a search can go only one way;
* `Interpolation.search_of_first` — it ends at the first free candidate;
* `Interpolation.stem_search_ends` — **the search for a stem ends**, after at most one trial more
  than the text has characters.
-/

import EmbeddedSql.Proofs.Interpolation.Placeholder

set_option relaxedAutoImplicit false
set_option autoImplicit false

namespace EmbeddedSql.Interpolation

variable {text : Text} {k trials found : Nat}

/-- A search that looks at the `k`-th candidate first, makes so many trials and ends at the
candidate `found`. -/
inductive Search (text : Text) : (k trials found : Nat) → Prop
  /-- The candidate is free. -/
  | free {k : Nat} (h : ¬ stem k <:+: text) : Search text k 1 k
  /-- The candidate stands in the text, and the next one is tried. -/
  | taken {k trials found : Nat} (h : stem k <:+: text) (rest : Search text (k + 1) trials found) :
      Search text k (trials + 1) found

/-- A search can go only one way. -/
theorem Search.unique (h : Search text k trials found) {trials' found' : Nat}
    (h' : Search text k trials' found') : trials' = trials ∧ found' = found := by
  induction h generalizing trials' with
  | free hfree =>
      cases h' with
      | free => exact ⟨rfl, rfl⟩
      | taken htaken _ => exact absurd htaken hfree
  | taken htaken _ ih =>
      cases h' with
      | free hfree => exact absurd htaken hfree
      | taken _ rest =>
          obtain ⟨htrials, hfound⟩ := ih rest
          exact ⟨by rw [htrials], hfound⟩

/-- A search ends at the first free candidate. -/
theorem search_of_first (hfree : ¬ stem found <:+: text) (hle : k ≤ found)
    (hpassed : ∀ j, k ≤ j → j < found → stem j <:+: text) :
    Search text k (found + 1 - k) found := by
  -- the induction goes from the free candidate back to the one where the search starts
  induction hle using Nat.decreasingInduction with
  | self =>
      rw [Nat.add_sub_cancel_left]
      exact Search.free hfree
  | of_succ j hj ih =>
      have hrest := ih fun j' hlo hhi => hpassed j' (Nat.le_of_succ_le hlo) hhi
      have hcount : found + 1 - j = found + 1 - (j + 1) + 1 := by omega
      rw [hcount]
      exact Search.taken (hpassed j (Nat.le_refl j) hj) hrest

/-- **The search for a stem ends**, for every text, after at most one trial more than the text has
characters.  It can end nowhere else than at the stem.  This is the first candidate that does not
stand in the text: the plain one, or one with a number greater than zero. -/
theorem stem_search_ends (text : Text) :
    ∃ k,
      (Search text 0 (k + 1) k ∧ k + 1 ≤ text.length + 1 ∧
        ∀ trials found, Search text 0 trials found → trials = k + 1 ∧ found = k) ∧
      (freshStem text = stem k ∧ ¬ stem k <:+: text ∧ ∀ j < k, stem j <:+: text) ∧
      (k = 0 ∧ freshStem text = "GLUE_INTERPOLATION_".toList ∨
        1 ≤ k ∧ freshStem text =
          "GLUE".toList ++ (Nat.repr k).toList ++ "_INTERPOLATION_".toList) := by
  obtain ⟨k, hle, hstem, hfree, hpassed⟩ := exists_freshStem_eq text
  have hsearch : Search text 0 (k + 1) k :=
    search_of_first hfree (Nat.zero_le k) fun j _ hj => hpassed j hj
  refine ⟨k, ⟨hsearch, Nat.succ_le_succ hle, fun _ _ => hsearch.unique⟩,
    ⟨hstem, hfree, hpassed⟩, ?_⟩
  cases k with
  | zero => exact Or.inl ⟨rfl, hstem⟩
  | succ k => exact Or.inr ⟨Nat.succ_pos k, hstem⟩

/-- A text that holds the plain candidate and the first numbered one, the latter inside of a longer
word. -/
example :
    freshStem "\x7bGLUE_INTERPOLATION_0\x7d xGLUE1_INTERPOLATION_".toList =
      "GLUE2_INTERPOLATION_".toList := by
  decide +kernel

end EmbeddedSql.Interpolation
