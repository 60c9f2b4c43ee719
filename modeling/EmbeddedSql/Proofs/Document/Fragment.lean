/-
**Going forward inside a fragment.**

An offset inside a fragment is turned into a position by going forward from the position where the
fragment starts, line by line, and not by way of the offsets of the whole text.  As long as the
start is a position of the document both ways lead to the same place.  A start that is older than
the text is put right by the first step over the end of its line: it stands for as many characters
as it says behind the start of its line.  Without a step to take nothing puts it right, and it is
returned as it came.

Main results:

* `Document.advance_of_line`, `Document.advance_of_nonpos`, `Document.advance_of_lineCount_le` —
  the three ways to go forward, and `Document.advance_eq` by the start;
* `Document.advance_agrees` — **the walk through a fragment is that through the text**;
* `Document.has_advance_iff` — **the positions that going forward returns**, from any start.
-/

import EmbeddedSql.Proofs.Document.Correspondence

set_option relaxedAutoImplicit false
set_option autoImplicit false

namespace EmbeddedSql

namespace Document

open Text

variable {d : Document} {p : Position}

/-! ### The ways to go forward -/

theorem advanceLines_toNat (line character : Nat) (remaining : Int) (ls : List Text) :
    advanceLines line character remaining ls =
      advanceLines line character (remaining.toNat : Int) ls := by
  rcases Int.le_total 0 remaining with hle | hle
  · rw [Int.toNat_of_nonneg hle]
  · cases ls with
    | nil => rfl
    | cons l ls => simp [advanceLines, hle, Int.toNat_of_nonpos hle]

/-- From a line of the document: a character behind the end of the line counts from its start. -/
theorem advance_of_line (hp : p.line < d.lineCount) {n : Int}
    (h : 0 < n ∨ p.character ≤ (d.lineAt p.line).length) :
    d.advance p n = d.positionAt (d.offsetOf ⟨p.line, 0⟩ + p.character + max n 0) := by
  have hl := getElem?_lines hp
  have hstep : 0 < n.toNat ∨ p.character ≤ (d.lineAt p.line).length := by omega
  have hoffset : ((d.offsetOf ⟨p.line, 0⟩ : Int) + p.character + max n 0).toNat =
      (linesBefore d.lines p.line).length + (p.character + n.toNat) := by
    rw [offsetOf_of_line hl]
    omega
  rw [positionAt, hoffset, ← d.advanceIn_of_line hl hstep, advance, advanceIn, advanceLines_toNat]
  rfl

/-- Without a step to take. -/
theorem advance_of_nonpos (hp : p.line < d.lineCount) {n : Int} (hn : n ≤ 0) :
    d.advance p n = p := by
  have hdrop : d.lines.drop p.line ≠ [] := by
    rw [Ne, List.drop_eq_nil_iff, Nat.not_le]
    exact hp
  obtain ⟨l, ls, hls⟩ := List.exists_cons_of_ne_nil hdrop
  simp [advance, advanceIn, hls, advanceLines, hn]

/-- From behind the last line. -/
theorem advance_of_lineCount_le (hp : d.lineCount ≤ p.line) (n : Int) :
    d.advance p n = endOfLines d.lines := by
  rw [advance, advanceIn, List.drop_eq_nil_of_le hp]
  rfl

/-! ### Fragments of the document -/

/-- **The walk through a fragment is that through the text**: going forward from a position of the
document leads to the position of the sum of the offsets, and the way back gives the offset inside
the fragment, cut to what is left of the text. -/
theorem advance_agrees (hp : d.Has p) (n : Int) :
    d.advance p n = d.positionAt (d.offsetOf p + max n 0) ∧
      (d.distance p (d.advance p n) : Int) =
        min (max n 0) ((d.text.length : Int) - d.offsetOf p) := by
  have hsum : d.offsetOf p = d.offsetOf ⟨p.line, 0⟩ + p.character := by
    have hl := getElem?_lines hp.line
    have hstart := offsetOf_of_line hl 0
    have hoffset : d.offsetOf p = _ := offsetOf_of_line hl p.character
    rw [Nat.min_eq_left hp.character] at hoffset
    omega
  have hadvance : d.advance p n = d.positionAt (d.offsetOf p + max n 0) := by
    rw [advance_of_line hp.line (Or.inr hp.character), hsum, Int.natCast_add]
  refine ⟨hadvance, ?_⟩
  have hback := d.offsetOf_positionAt (d.offsetOf p + max n 0)
  have hle := offsetOf_le_length (d := d) p
  rw [distance, hadvance]
  omega

/-- The fragment starts in the first line and reaches over an empty one to the end of the text. -/
theorem advance_agrees_over_empty_line :
    let d : Document := ⟨"", "ab\n\ncd".toList, 0⟩
    let p : Position := ⟨0, 1⟩
    d.Has p ∧ d.advance p 2 = d.positionAt 3 ∧ d.advance p 2 = ⟨1, 0⟩ ∧
      d.advance p 9 = ⟨2, 2⟩ ∧ d.distance p (d.advance p 9) = 5 := by
  intro d p
  have hp : d.Has p := by decide
  have hoffset : d.offsetOf p = 1 := by decide +kernel
  have hlength : d.text.length = 6 := by decide
  obtain ⟨hwithin, -⟩ := advance_agrees hp 2
  obtain ⟨-, hbeyond⟩ := advance_agrees hp 9
  rw [hoffset] at hwithin hbeyond
  rw [hlength] at hbeyond
  exact ⟨hp, hwithin, by decide +kernel, by decide +kernel, by omega⟩

/-! ### Starts that are older than the text -/

/-- The ways to go forward, by the start. -/
theorem advance_eq (d : Document) (p : Position) (n : Int) :
    d.advance p n =
      if d.lineCount ≤ p.line then d.positionAt d.text.length
      else if 0 < n then d.positionAt (d.offsetOf ⟨p.line, 0⟩ + p.character + n)
      else p := by
  have hend : d.positionAt d.text.length = endOfLines d.lines := d.positionOf_length
  split
  · next hbeyond => rw [advance_of_lineCount_le hbeyond, hend]
  · next hline =>
      have hline : p.line < d.lineCount := Nat.not_le.1 hline
      split
      · next hpos =>
          rw [advance_of_line hline (Or.inl hpos), Int.max_eq_left (Int.le_of_lt hpos)]
      · next hnonpos => exact advance_of_nonpos hline (Int.not_lt.1 hnonpos)

/-- **The positions that going forward returns**, from any start: a position of the document, unless
there is no step to take from behind the end of an existing line; then it is the start, as it
came. -/
theorem has_advance_iff (d : Document) (p : Position) (n : Int) :
    (d.Has (d.advance p n) ↔ 0 < n ∨ d.lineCount ≤ p.line ∨ d.Has p) ∧
      d.advance p n =
        if d.lineCount ≤ p.line then d.positionAt d.text.length
        else if 0 < n then d.positionAt (d.offsetOf ⟨p.line, 0⟩ + p.character + n)
        else p := by
  refine ⟨?_, d.advance_eq p n⟩
  rw [advance_eq]
  split
  · next hbeyond => exact iff_of_true (d.has_positionOf _) (Or.inr (Or.inl hbeyond))
  · next hline =>
      split
      · next hpos => exact iff_of_true (d.has_positionOf _) (Or.inl hpos)
      · next hnonpos => simp [hnonpos, hline]

/-- The line of the start is shorter now.  One step leads to the end of the text, no step leaves the
start where it is. -/
theorem has_advance_unless_stale :
    let d : Document := ⟨"", "ab\ncd".toList, 0⟩
    ¬ d.Has (d.advance ⟨0, 5⟩ 0) ∧ d.advance ⟨0, 5⟩ 0 = ⟨0, 5⟩ ∧
      d.Has (d.advance ⟨0, 5⟩ 1) ∧ d.advance ⟨0, 5⟩ 1 = ⟨1, 2⟩ := by
  intro d
  have hstale := (has_advance_iff d ⟨0, 5⟩ 0).1
  have hstep := (has_advance_iff d ⟨0, 5⟩ 1).1
  exact ⟨fun h => absurd (hstale.1 h) (by decide), by decide +kernel, hstep.2 (by decide),
    by decide +kernel⟩

end Document

end EmbeddedSql
