/-
**The table of offsets lines both texts up.**

Tokens, errors and the cursor are moved between the raw and the decoded text with the table of
offsets, and prefixes are cut at its entries.  This is sound only if a cut at an entry cuts no
escape and makes none: what stands before it must decode to the decoded characters before it, and
what stands behind it to those behind.  A cut anywhere else is a cut in the middle of an escape, and
there a bare backslash is left over.

Main definitions:

* `Escape.Alignment` — what makes a table of offsets exact.

Main results:

* `Escape.units_take_cut` — a cut in the middle of an escape;
* `Escape.alignment_offsets` — **the table of offsets is exact**.
-/

import EmbeddedSql.Proofs.Escape.Offsets

set_option relaxedAutoImplicit false
set_option autoImplicit false

namespace EmbeddedSql.Escape

/-! ### The entries -/

/-- A decoded character takes one raw character or two. -/
theorem width_of_mem_units {raw : Text} {u : Char × Nat} (h : u ∈ units raw) :
    u.2 = 1 ∨ u.2 = 2 := by
  fun_induction units raw with
  | case1 => cases h
  | case2 c =>
      obtain rfl := List.mem_singleton.1 h
      exact Or.inl rfl
  | case3 d rest e hmeaning ih =>
      rcases List.mem_cons.1 h with rfl | h
      · exact Or.inr rfl
      · exact ih h
  | case4 d rest hmeaning ih =>
      rcases List.mem_cons.1 h with rfl | h
      · exact Or.inl rfl
      · exact ih h
  | case5 c d rest hc ih =>
      rcases List.mem_cons.1 h with rfl | h
      · exact Or.inl rfl
      · exact ih h

theorem le_of_mem_offsetsFrom {start o : Nat} {us : List (Char × Nat)}
    (h : o ∈ offsetsFrom start us) : start ≤ o := by
  induction us generalizing start with
  | nil =>
      obtain rfl := List.mem_singleton.1 h
      exact Nat.le_refl _
  | cons u us ih =>
      rcases List.mem_cons.1 h with rfl | h
      · exact Nat.le_refl _
      · have hle := ih h
        omega

theorem pairwise_offsetsFrom (start : Nat) {us : List (Char × Nat)} (h : ∀ u ∈ us, 0 < u.2) :
    (offsetsFrom start us).Pairwise (· < ·) := by
  induction us generalizing start with
  | nil => exact List.pairwise_singleton _ _
  | cons u us ih =>
      obtain ⟨hu, hus⟩ := List.forall_mem_cons.1 h
      refine List.Pairwise.cons ?_ (ih _ hus)
      intro o ho
      have hle := le_of_mem_offsetsFrom ho
      omega

/-- An entry of the table is the width of the decoded characters before it. -/
theorem getElem?_offsets_eq_some_iff {raw : Text} {i o : Nat} :
    (offsets raw)[i]? = some o ↔ i ≤ (units raw).length ∧ o = width ((units raw).take i) := by
  by_cases hi : i ≤ (units raw).length
  · rw [offsets, getElem?_offsetsFrom 0 hi, Nat.zero_add, Option.some.injEq]
    exact ⟨fun h => ⟨hi, h.symm⟩, fun h => h.2.symm⟩
  · have hnone : (offsets raw)[i]? = none := by
      rw [List.getElem?_eq_none_iff, offsets, length_offsetsFrom]
      omega
    rw [hnone]
    constructor
    · intro h
      cases h
    · intro h
      exact absurd h.1 hi

/-- Two entries that follow each other lie around one decoded character. -/
theorem exists_unit_between {raw : Text} {i lo hi : Nat} (hlo : (offsets raw)[i]? = some lo)
    (hhi : (offsets raw)[i + 1]? = some hi) :
    ∃ u, (units raw)[i]? = some u ∧ hi = lo + u.2 := by
  obtain ⟨-, rfl⟩ := getElem?_offsets_eq_some_iff.1 hlo
  obtain ⟨hle, rfl⟩ := getElem?_offsets_eq_some_iff.1 hhi
  have hget := List.getElem?_eq_getElem (show i < (units raw).length by omega)
  refine ⟨_, hget, ?_⟩
  rw [List.take_add_one, hget, width_append]
  rfl

/-! ### Cuts -/

/-- A cut in the middle of an escape leaves its backslash over.  The characters before the escape
are read as before: a backslash among them that hid nothing hides nothing now, for if it could hide
a backslash it would have hidden the one of the escape. -/
theorem units_take_cut {raw : Text} {i : Nat} {e : Char} (h : (units raw)[i]? = some (e, 2)) :
    units (raw.take (width ((units raw).take i) + 1)) = (units raw).take i ++ [('\\', 1)] := by
  fun_induction units raw generalizing i with
  | case1 => cases h
  | case2 c =>
      cases i with
      | zero => cases h
      | succ i => cases h
  | case3 d rest e' hmeaning ih =>
      cases i with
      | zero => rfl
      | succ i =>
          have hrest := ih (List.getElem?_cons_succ ▸ h)
          rw [List.take_succ_cons (i := i), width_cons, Nat.add_right_comm, List.take_succ_cons,
            List.take_succ_cons, units_escape hmeaning, hrest, List.cons_append]
  | case4 d rest hmeaning ih =>
      cases i with
      | zero => cases h
      | succ i =>
          have hrest := ih (List.getElem?_cons_succ ▸ h)
          rw [List.take_succ_cons] at hrest
          rw [List.take_succ_cons (i := i), width_cons, Nat.add_right_comm, List.take_succ_cons,
            List.take_succ_cons, units_plain_escape hmeaning, hrest, List.cons_append]
  | case5 c d rest hc ih =>
      cases i with
      | zero => cases h
      | succ i =>
          have hrest := ih (List.getElem?_cons_succ ▸ h)
          rw [List.take_succ_cons (i := i), width_cons, Nat.add_right_comm, List.take_succ_cons,
            units_cons hc, hrest, List.cons_append]

/-! ### The table -/

/-- A table of offsets lines up a raw and a decoded text. -/
structure Alignment (raw decoded : Text) (table : List Nat) : Prop where
  /-- There is an entry for every decoded character, and one for the end. -/
  length_eq : table.length = decoded.length + 1
  first : table.head? = some 0
  last : table.getLast? = some raw.length
  increasing : table.Pairwise (· < ·)
  step : ∀ i lo hi, table[i]? = some lo → table[i + 1]? = some hi → hi = lo + 1 ∨ hi = lo + 2
  /-- What stands before an entry decodes to the characters before it. -/
  before : ∀ i o, table[i]? = some o → decode (raw.take o) = decoded.take i
  /-- What stands behind an entry decodes to the characters behind it. -/
  behind : ∀ i o, table[i]? = some o → decode (raw.drop o) = decoded.drop i
  /-- A cut between two entries leaves one backslash over. -/
  between : ∀ i lo hi k, table[i]? = some lo → table[i + 1]? = some hi → lo < k → k < hi →
    decode (raw.take k) = decoded.take i ++ ['\\']

/-- **The table of offsets is exact.** -/
theorem alignment_offsets (raw : Text) : Alignment raw (decode raw) (offsets raw) where
  length_eq := length_offsets raw
  first := by
    rw [List.head?_eq_getElem?, getElem?_offsets_eq_some_iff]
    exact ⟨Nat.zero_le _, rfl⟩
  last := by
    have hall : width ((units raw).take (units raw).length) = raw.length := by
      rw [List.take_length]
      exact sum_units raw
    rw [List.getLast?_eq_getElem?, offsets, length_offsetsFrom, Nat.add_sub_cancel, ← offsets,
      getElem?_offsets_eq_some_iff]
    exact ⟨Nat.le_refl _, hall.symm⟩
  increasing := by
    refine pairwise_offsetsFrom 0 ?_
    intro u hu
    rcases width_of_mem_units hu with hwidth | hwidth <;> omega
  step := by
    intro i lo hi hlo hhi
    obtain ⟨u, hu, rfl⟩ := exists_unit_between hlo hhi
    rcases width_of_mem_units (List.mem_of_getElem? hu) with hwidth | hwidth
    · exact Or.inl (by rw [hwidth])
    · exact Or.inr (by rw [hwidth])
  before := by
    intro i o ho
    obtain ⟨-, rfl⟩ := getElem?_offsets_eq_some_iff.1 ho
    rw [decode, units_take, List.map_take]
    rfl
  behind := by
    intro i o ho
    obtain ⟨-, rfl⟩ := getElem?_offsets_eq_some_iff.1 ho
    rw [decode, units_drop, List.map_drop]
    rfl
  between := by
    intro i lo hi k hlo hhi hk hk'
    obtain ⟨⟨e, n⟩, hu, rfl⟩ := exists_unit_between hlo hhi
    obtain ⟨-, rfl⟩ := getElem?_offsets_eq_some_iff.1 hlo
    -- there is room for a cut in an escape only
    have hn : n = 2 := by
      rcases width_of_mem_units (List.mem_of_getElem? hu) with hwidth | hwidth
      · simp only at hwidth hk'
        omega
      · exact hwidth
    obtain rfl : k = width ((units raw).take i) + 1 := by
      simp only at hk'
      omega
    rw [decode, units_take_cut (hn ▸ hu), List.map_append, List.map_take]
    rfl

/-- An escape takes two characters; a backslash that hides nothing takes one.  A cut in the middle
of the escape leaves its backslash. -/
example : offsets "a\\n\\d".toList = [0, 1, 3, 4, 5] ∧
    decode ("a\\n\\d".toList.take 2) = "a\\".toList := by decide

end EmbeddedSql.Escape
