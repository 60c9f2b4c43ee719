/-
**Scans of a window of a text.**

The searches around a cursor do not scan the whole text.  They start at some line above and stop at
the cursor, and go by what they find there.  A scan that starts in code cannot go astray: it sees
the literals of the whole text that start in its window.  Where it stops, it may leave the last one
unfinished, inside an escape as well as in front of a closing quote.

Main definitions:

* `Literal.recorded` — what a scan that stops at an offset records of a literal.

Main results:

* `Literal.scan_window` — **a window shows what the whole text has there**;
* `Literal.scan_eq_filter_scan` — the start of a window only leaves literals out;
* `Literal.getLast?_scan` — the last literal that a scan into a literal has seen.
-/

import EmbeddedSql.Proofs.Literal.Splice

set_option relaxedAutoImplicit false
set_option autoImplicit false

namespace EmbeddedSql.Literal

variable {m : Marks} {text : Text} {first stop : Nat}

/-! ### The end of a window -/

/-- What a scan that stops at an offset records of a literal that starts before: one that is closed
before the stop as it is, any other as unclosed, up to the stop or the end of the text. -/
def recorded (text : Text) (stop : Nat) (l : Literal) : Literal :=
  if l.closed && l.stop < stop then l else { l with stop := min stop text.length, closed := false }

theorem recorded_eq_cutAt {l : Literal} (hl : l ∈ scanAll m text) (stop : Nat) :
    recorded text stop l = l.cutAt stop := by
  have hwithin := (scanned_scanAll m text).within hl
  rw [Nat.zero_add] at hwithin
  unfold recorded cutAt
  split
  · rfl
  · next hcut =>
      -- the end of the text only counts for a literal that is not closed at all
      have hstop : min stop text.length = min l.stop stop := by
        cases hclosed : l.closed with
        | true =>
            have hlt := hwithin.stop_lt hclosed
            have hle : ¬ l.stop < stop := by simpa [hclosed] using hcut
            omega
        | false => rw [hwithin.stop_eq hclosed, Nat.min_comm]
      rw [hstop]

/-- All literals before the last one of a list are closed where the last one starts. -/
theorem Scanned.closed_of_mem_dropLast {i : Nat} {t : Text} {ls kept : List Literal}
    (h : Scanned m i t ls) (hkept : kept.Sublist ls) (hstart : ∀ l ∈ kept, l.start < stop)
    {l : Literal} (hl : l ∈ kept.dropLast) : l.closed = true ∧ l.stop < stop := by
  have hne : kept ≠ [] := by
    rintro rfl
    simp at hl
  have hpair := h.pairwise.sublist hkept
  rw [← List.dropLast_append_getLast hne, List.pairwise_append] at hpair
  obtain ⟨-, -, hlast⟩ := hpair
  obtain ⟨hclosed, hlt⟩ := hlast l hl (kept.getLast hne) List.mem_cons_self
  have hlate := hstart (kept.getLast hne) (List.getLast_mem hne)
  exact ⟨hclosed, Nat.lt_trans hlt hlate⟩

/-- **A window shows what the whole text has there.**  A scan that starts where no literal runs over
finds the literals of the whole text that start in the window, as they are if they are closed before
its end.  Only the last one may not be. -/
theorem scan_window (hout : Outside (scanAll m text) first) (hle : first ≤ stop) :
    let kept := (scanAll m text).filter fun l => first ≤ l.start && l.start < stop
    scan m text first stop = kept.map (recorded text stop) ∧
      ∀ l ∈ kept.dropLast, l.closed = true ∧ l.stop < stop ∧ recorded text stop l = l := by
  intro kept
  have hkept : kept =
      ((scanAll m text).filter (first ≤ ·.start)).filter (·.start < stop) := by
    rw [List.filter_filter]
    exact List.filter_congr fun l _ => Bool.and_comm _ _
  refine ⟨?_, fun l hl => ?_⟩
  · rw [scan_eq_filter hout hle, hkept]
    refine List.map_congr_left fun l hl => (recorded_eq_cutAt (m := m) ?_ stop).symm
    exact List.mem_of_mem_filter (List.mem_of_mem_filter hl)
  · have hstart : ∀ x ∈ kept, x.start < stop := by
      intro x hx
      obtain ⟨-, hx⟩ := List.mem_filter.1 hx
      simp only [Bool.and_eq_true, decide_eq_true_eq] at hx
      exact hx.2
    obtain ⟨hclosed, hlt⟩ := (scanned_scanAll m text).closed_of_mem_dropLast
      List.filter_sublist hstart hl
    exact ⟨hclosed, hlt, by simp [recorded, hclosed, hlt]⟩

/-- A window from the second line on that stops between a backslash and the quote it hides: the
string on the first line is left out, and the last one is unclosed. -/
theorem scan_window_in_escape :
    let text := "f('a')\n# it's\ng(\"b\", 'c\\'d')".toList
    Outside (scanAll Marks.r text) 7 ∧
      scanAll Marks.r text = [⟨.string, 2, 4, '\'', true⟩, ⟨.comment, 7, 13, '#', true⟩,
        ⟨.string, 16, 18, '"', true⟩, ⟨.string, 21, 26, '\'', true⟩] ∧
      scan Marks.r text 7 24 =
        [⟨.comment, 7, 13, '#', true⟩, ⟨.string, 16, 18, '"', true⟩,
          ⟨.string, 21, 24, '\'', false⟩] := by
  intro text
  have hout : Outside (scanAll Marks.r text) 7 := by decide +kernel
  have hall : scanAll Marks.r text = [⟨.string, 2, 4, '\'', true⟩, ⟨.comment, 7, 13, '#', true⟩,
      ⟨.string, 16, 18, '"', true⟩, ⟨.string, 21, 26, '\'', true⟩] := by decide +kernel
  obtain ⟨hscan, -⟩ := scan_window hout (show 7 ≤ 24 by decide)
  refine ⟨hout, hall, ?_⟩
  rw [hscan, hall]
  decide +kernel

/-! ### The start of a window -/

/-- The start of a window only leaves literals out. -/
theorem scan_eq_filter_scan (hout : Outside (scanAll m text) first) (hle : first ≤ stop) :
    scan m text first stop = (scan m text 0 stop).filter (first ≤ ·.start) := by
  have hcut : (fun l : Literal => decide (first ≤ l.start)) ∘ cutAt stop =
      fun l => decide (first ≤ l.start) := by
    funext l
    simp
  rw [scan_eq_filter hout hle, scan_eq_cut, List.filter_map, hcut, List.filter_filter,
    List.filter_filter]
  exact congrArg _ (List.filter_congr fun l _ => Bool.and_comm _ _)

/-- The last literal that a scan has seen which stops inside of it or right behind it. -/
theorem getLast?_scan (hout : Outside (scanAll m text) first) {l : Literal}
    (hl : l ∈ scanAll m text) (hfirst : first ≤ l.start) (hlo : l.start < stop)
    (hhi : stop ≤ l.stop + 1) : (scan m text first stop).getLast? = some (l.cutAt stop) := by
  rw [scan_eq_filter_scan hout (by omega), scan_concat hl hlo hhi, List.filter_append,
    List.filter_cons_of_pos (by simpa using hfirst), List.filter_nil, List.getLast?_concat]

end EmbeddedSql.Literal
