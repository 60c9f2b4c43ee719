/-
**Decoded characters in the raw text.**

A decoded character takes one or two raw characters, so offsets of the decoded text have to be
looked up before they say anything about the raw one.  Cutting the raw text where decoded characters
start cuts no escape in two.

Main definitions:

* `Escape.width` — how many raw characters some units take;
* `Escape.offsetAt` — where a decoded character starts in the raw text;
* `Escape.extent` — the raw text of a stretch of the decoded one.

Main results:

* `Escape.offsetAt_eq` — the table of offsets holds sums of widths;
* `Escape.units_take`, `Escape.units_drop` — cuts between decoded characters;
* `Escape.decode_extent` — **the raw text of a stretch decodes to the stretch**.
-/

import EmbeddedSql.Proofs.Escape.Encoding

set_option relaxedAutoImplicit false
set_option autoImplicit false

namespace EmbeddedSql.Escape

/-! ### Widths -/

/-- How many raw characters some units take. -/
def width (us : List (Char × Nat)) : Nat :=
  us.foldr (fun u n => u.2 + n) 0

@[simp] theorem width_nil : width [] = 0 := rfl

theorem width_cons (c : Char) (n : Nat) (us : List (Char × Nat)) :
    width ((c, n) :: us) = width us + n :=
  Nat.add_comm _ _

theorem width_append (us vs : List (Char × Nat)) : width (us ++ vs) = width us + width vs := by
  induction us with
  | nil => simp
  | cons u us ih =>
      rw [List.cons_append, width_cons, width_cons, ih]
      omega

theorem width_take_le {i j : Nat} (h : i ≤ j) (us : List (Char × Nat)) :
    width (us.take i) ≤ width (us.take j) := by
  obtain ⟨k, rfl⟩ := Nat.exists_eq_add_of_le h
  rw [List.take_add, width_append]
  exact Nat.le_add_right _ _

theorem getElem?_offsetsFrom (start : Nat) {us : List (Char × Nat)} {i : Nat} (h : i ≤ us.length) :
    (offsetsFrom start us)[i]? = some (start + width (us.take i)) := by
  induction us generalizing start i with
  | nil =>
      obtain rfl : i = 0 := by simpa using h
      rfl
  | cons u us ih =>
      cases i with
      | zero => rfl
      | succ i =>
          have hi : i ≤ us.length := by simpa using h
          rw [offsetsFrom, List.getElem?_cons_succ, ih _ hi, List.take_succ_cons, width_cons,
            Nat.add_assoc, Nat.add_comm u.2]

/-- Where a decoded character starts in the raw text; behind the last one the raw text ends. -/
def offsetAt (raw : Text) (i : Nat) : Nat :=
  (offsets raw).toArray.getD i raw.length

theorem offsetAt_eq_getD (raw : Text) (i : Nat) :
    offsetAt raw i = ((offsets raw)[i]?).getD raw.length := by
  simp [offsetAt, Array.getD_eq_getD_getElem?]

/-- The table of offsets holds sums of widths. -/
theorem offsetAt_eq (raw : Text) (i : Nat) : offsetAt raw i = width ((units raw).take i) := by
  rw [offsetAt_eq_getD]
  by_cases hi : i ≤ (units raw).length
  · rw [offsets, getElem?_offsetsFrom 0 hi, Nat.zero_add]
    rfl
  · have hnone : (offsets raw)[i]? = none := by
      rw [List.getElem?_eq_none_iff, offsets, length_offsetsFrom]
      omega
    rw [hnone, List.take_of_length_le (by omega)]
    exact (sum_units raw).symm

theorem offsetAt_le {i j : Nat} (h : i ≤ j) (raw : Text) : offsetAt raw i ≤ offsetAt raw j := by
  rw [offsetAt_eq, offsetAt_eq]
  exact width_take_le h (units raw)

theorem offsetAt_le_length (raw : Text) (i : Nat) : offsetAt raw i ≤ raw.length := by
  have hall : width ((units raw).take (max i (units raw).length)) = raw.length := by
    rw [List.take_of_length_le (Nat.le_max_right _ _)]
    exact sum_units raw
  rw [offsetAt_eq, ← hall]
  exact width_take_le (Nat.le_max_left _ _) (units raw)

/-! ### Cuts between decoded characters -/

theorem units_plain_escape {d : Char} (h : meaning? d = none) (t : Text) :
    units ('\\' :: d :: t) = ('\\', 1) :: units (d :: t) := by
  simp [units, h]

theorem units_take (raw : Text) (i : Nat) :
    units (raw.take (width ((units raw).take i))) = (units raw).take i := by
  fun_induction units raw generalizing i with
  | case1 => simp [units]
  | case2 c =>
      cases i with
      | zero => simp [units]
      | succ i => simp [units, width]
  | case3 d rest e hmeaning ih =>
      cases i with
      | zero => simp [units]
      | succ i =>
          rw [List.take_succ_cons, width_cons, List.take_succ_cons,
            List.take_succ_cons, units_escape hmeaning, ih]
  | case4 d rest hmeaning ih =>
      cases i with
      | zero => simp [units]
      | succ i =>
          have hrest := ih i
          rw [List.take_succ_cons, width_cons, List.take_succ_cons]
          generalize width ((units (d :: rest)).take i) = n at hrest ⊢
          -- the character behind the backslash comes along, or nothing does
          cases n with
          | zero => rw [← hrest, List.take_zero, units, units]
          | succ n => rw [List.take_succ_cons, units_plain_escape hmeaning, ← hrest,
              List.take_succ_cons]
  | case5 c d rest hc ih =>
      cases i with
      | zero => simp [units]
      | succ i =>
          rw [List.take_succ_cons, width_cons, List.take_succ_cons, units_cons hc, ih]

theorem units_drop (raw : Text) (i : Nat) :
    units (raw.drop (width ((units raw).take i))) = (units raw).drop i := by
  fun_induction units raw generalizing i with
  | case1 => simp [units]
  | case2 c =>
      cases i with
      | zero => simp [units]
      | succ i => simp [units, width]
  | case3 d rest e hmeaning ih =>
      cases i with
      | zero => simp [units, hmeaning]
      | succ i =>
          rw [List.take_succ_cons, width_cons, List.drop_succ_cons,
            List.drop_succ_cons, List.drop_succ_cons, ih]
  | case4 d rest hmeaning ih =>
      cases i with
      | zero => simp [units, hmeaning]
      | succ i =>
          rw [List.take_succ_cons, width_cons, List.drop_succ_cons,
            List.drop_succ_cons, ih]
  | case5 c d rest hc ih =>
      cases i with
      | zero => simp [units, hc]
      | succ i =>
          rw [List.take_succ_cons, width_cons, List.drop_succ_cons,
            List.drop_succ_cons, ih]

/-- Blanks decode to themselves. -/
theorem decode_of_blank {raw : Text} (h : Text.isAllBlank raw = true) : decode raw = raw := by
  induction raw with
  | nil => rfl
  | cons c raw ih =>
      obtain ⟨hc, hraw⟩ : Text.isBlank c = true ∧ Text.isAllBlank raw = true := by
        simpa [Text.isAllBlank] using h
      have hslash : c ≠ '\\' := by
        rintro rfl
        exact absurd hc (by decide)
      rw [decode, units_cons hslash, List.map_cons]
      exact congrArg (c :: ·) (ih hraw)

/-- The raw text of the decoded characters at offsets `lo`, …, `hi - 1`. -/
def extent (raw : Text) (lo hi : Nat) : Text :=
  raw.slice (offsetAt raw lo) (offsetAt raw hi)

/-- **The raw text of a stretch decodes to the stretch.** -/
theorem decode_extent (raw : Text) {lo hi : Nat} (h : lo ≤ hi) :
    decode (extent raw lo hi) = (decode raw).slice lo hi := by
  obtain ⟨n, rfl⟩ := Nat.exists_eq_add_of_le h
  have hwidth : width ((units raw).take (lo + n)) - width ((units raw).take lo) =
      width ((units (raw.drop (width ((units raw).take lo)))).take n) := by
    rw [List.take_add, width_append, Nat.add_sub_cancel_left, units_drop]
  rw [extent, Text.slice, offsetAt_eq, offsetAt_eq, hwidth, decode, units_take, units_drop,
    Text.slice, Nat.add_sub_cancel_left, decode, List.map_take, List.map_drop]

/-! ### Texts that are cut between escapes -/

/-- A character that is nothing special behind a backslash starts a unit of its own. -/
theorem units_append {c : Char} (hc : meaning? c = none) (s t : Text) :
    units (s ++ c :: t) = units s ++ units (c :: t) := by
  fun_induction units s with
  | case1 => rfl
  | case2 d =>
      by_cases hd : d = '\\'
      · rw [hd, List.singleton_append, units_plain_escape hc]
        rfl
      · rw [List.singleton_append, units_cons hd]
        rfl
  | case3 d rest e hmeaning ih =>
      rw [List.cons_append, List.cons_append, units_escape hmeaning, ih, List.cons_append]
  | case4 d rest hmeaning ih =>
      rw [List.cons_append, List.cons_append, units_plain_escape hmeaning, ← List.cons_append, ih,
        List.cons_append]
  | case5 d e rest hd ih =>
      rw [List.cons_append, units_cons hd, ih, List.cons_append]

section Cut

variable {s t : Text} (h : units (s ++ t) = units s ++ units t)

include h

theorem decode_append : decode (s ++ t) = decode s ++ decode t := by
  rw [decode, h, List.map_append]
  rfl

theorem offsetAt_append_left {i : Nat} (hi : i ≤ (decode s).length) :
    offsetAt (s ++ t) i = offsetAt s i := by
  rw [decode, List.length_map] at hi
  rw [offsetAt_eq, offsetAt_eq, h, List.take_append_of_le_length hi]

theorem offsetAt_append_right (i : Nat) :
    offsetAt (s ++ t) ((decode s).length + i) = s.length + offsetAt t i := by
  have hlength : width (units s) = s.length := sum_units s
  rw [offsetAt_eq, offsetAt_eq, h, decode, List.length_map, List.take_length_add_append,
    width_append, hlength]

theorem extent_append_left {lo hi : Nat} (hle : lo ≤ hi) (hhi : hi ≤ (decode s).length) :
    extent (s ++ t) lo hi = extent s lo hi := by
  have hlo := offsetAt_le hle s
  have hend := offsetAt_le_length s hi
  rw [extent, extent, offsetAt_append_left h hhi, offsetAt_append_left h (by omega), Text.slice,
    Text.slice, List.drop_append_of_le_length (by omega), List.take_append_of_le_length]
  rw [List.length_drop]
  omega

theorem extent_append_right (lo hi : Nat) :
    extent (s ++ t) ((decode s).length + lo) ((decode s).length + hi) = extent t lo hi := by
  rw [extent, extent, offsetAt_append_right h, offsetAt_append_right h, Text.slice, Text.slice,
    List.drop_length_add_append, Nat.add_sub_add_left]

end Cut

end EmbeddedSql.Escape
