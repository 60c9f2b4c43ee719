/-
**The content of a region in the document.**

What is known about a region are places in its decoded text: where a token starts, or an error.  The
table of raw offsets and a walk from the start of the region take such a place to an offset of the
document, which is inside the region and has there what is written for the decoded text.

Main results:

* `Region.Covered.extent_starts` — what is written for a stretch of the decoded text is part of the
  document;
* `Region.Covered.contains_positionOf` — offsets between the ends of a region lie in its range;
* `Region.Covered.advanceIn_offsetAt` — **the walk from the start of a region leads to its decoded
  characters**.
-/

import EmbeddedSql.Proofs.Escape.Offsets
import EmbeddedSql.Proofs.Region.Survey

set_option relaxedAutoImplicit false
set_option autoImplicit false

namespace EmbeddedSql.Region.Covered

variable {doc : Document} {l : Literal} {r : Region} (hr : Covered doc l r)

include hr

theorem length_raw : doc.offsetOf r.range.start + r.raw.length = doc.offsetOf r.range.stop := by
  have hstart := hr.start_le
  have hstop := hr.lt_length
  rw [hr.start_eq, hr.stop_eq, hr.raw_eq, Text.length_slice]
  omega

/-- The raw text of a stretch of a region is part of the document. -/
theorem extent_starts (lo hi : Nat) : Escape.extent r.raw lo hi <+:
    doc.text.drop (doc.offsetOf r.range.start + Escape.offsetAt r.raw lo) := by
  rw [Escape.extent, Text.slice, ← List.drop_drop]
  refine (List.take_prefix _ _).trans ?_
  have hraw : r.raw <+: doc.text.drop (doc.offsetOf r.range.start) := by
    rw [hr.raw_eq, hr.start_eq]
    exact List.take_prefix _ _
  obtain ⟨rest, hrest⟩ := hraw
  rw [← hrest, List.drop_append]
  exact List.prefix_append _ _

theorem offsetAt_le_stop (i : Nat) :
    doc.offsetOf r.range.start + Escape.offsetAt r.raw i ≤ doc.offsetOf r.range.stop := by
  have hlength := hr.length_raw
  have hle := Escape.offsetAt_le_length r.raw i
  omega

theorem stop_lt_length : doc.offsetOf r.range.stop < doc.text.length := by
  rw [hr.stop_eq]
  exact hr.lt_length

/-- What stands between the ends of a region lies in its range. -/
theorem contains_positionOf {i : Nat} (hlo : doc.offsetOf r.range.start ≤ i)
    (hhi : i ≤ doc.offsetOf r.range.stop) : r.range.contains (doc.positionOf i) = true := by
  have hlength := hr.stop_lt_length
  rw [hr.start_eq] at hlo
  rw [hr.stop_eq] at hhi hlength
  rw [Range.contains, hr.range_eq, Bool.and_eq_true]
  exact ⟨doc.positionOf_le hlo (by omega), doc.positionOf_le hhi (by omega)⟩

/-- The walk from the start of a region leads to its decoded characters. -/
theorem advanceIn_offsetAt (i : Nat) :
    Document.advanceIn doc.lines r.range.start (Escape.offsetAt r.raw i) =
      doc.positionOf (doc.offsetOf r.range.start + Escape.offsetAt r.raw i) := by
  have hle := hr.offsetAt_le_stop i
  have hlt := hr.stop_lt_length
  have hstart : r.range.start = doc.positionOf (doc.offsetOf r.range.start) := by
    rw [hr.start_eq, hr.range_eq]
    rfl
  conv => lhs; rw [hstart]
  exact doc.advanceIn_positionOf (by omega)

end EmbeddedSql.Region.Covered
