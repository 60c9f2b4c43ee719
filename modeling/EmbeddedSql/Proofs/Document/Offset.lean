/-
**Offsets and positions of a document.**

`Document.positionOf` walks along the text and counts lines and characters, `Document.offsetOf`
walks until it has seen as many.  Neither starts from scratch in its recursion, so the walk is
first brought into a form that does: a walk from any position is the walk from the origin, moved
(`Document.walk_eq`).

Main results:

* `Document.offsetOf_positionOf` — **an offset of the text survives the way there and back**;
* `Document.positionOf_injective` — different offsets have different positions;
* `Document.offsetOf_le`, `Document.offsetOf_clamp` — offsets are ordered like positions;
* `Document.line_positionOf_lt` — the line of a position exists;
* `Document.newline_before_line` — a line starts behind a newline.
-/

import EmbeddedSql.Document

set_option relaxedAutoImplicit false
set_option autoImplicit false

namespace EmbeddedSql

theorem Position.le_iff {p q : Position} :
    p.le q = true ↔ p.line < q.line ∨ p.line = q.line ∧ p.character ≤ q.character := by
  rw [le, compare, Ordering.isLE_then_iff_or, Nat.compare_eq_lt, Nat.compare_eq_eq,
    Nat.isLE_compare]

theorem Position.le_of_not_le {p q : Position} (h : ¬ p.le q = true) : q.le p = true := by
  rw [le_iff] at h ⊢
  omega

namespace Document

/-! ### The walk from the origin -/

/-- A position seen from another one: characters add up on the first line only. -/
def moveTo (origin p : Position) : Position :=
  ⟨origin.line + p.line, if p.line = 0 then origin.character + p.character else p.character⟩

/-- A walk from any position is the walk from the origin, moved. -/
theorem walk_eq (p : Position) (t : Text) (n : Nat) :
    walk p t n = moveTo p (walk ⟨0, 0⟩ t n) := by
  induction t generalizing p n with
  | nil => simp [walk, moveTo]
  | cons c t ih =>
      cases n with
      | zero => simp [walk, moveTo]
      | succ n =>
          by_cases hc : c = '\n'
          · simp only [walk, hc, if_true]
            rw [ih ⟨p.line + 1, 0⟩, ih ⟨0 + 1, 0⟩]
            simp [moveTo]
            omega
          · simp only [walk, hc, if_false]
            rw [ih ⟨p.line, p.character + 1⟩, ih ⟨0, 0 + 1⟩]
            by_cases hl : (walk ⟨0, 0⟩ t n).line = 0
            · simp [moveTo, hl]
              omega
            · simp [moveTo, hl]

/-- A walk does not leave the text. -/
theorem walk_of_length_le (p : Position) {t : Text} {n : Nat} (h : t.length ≤ n) :
    walk p t n = walk p t t.length := by
  induction t generalizing p n with
  | nil => rfl
  | cons c t ih =>
      obtain ⟨n, rfl⟩ : ∃ k, n = k + 1 := ⟨n - 1, by simp at h; omega⟩
      have h : t.length ≤ n := by simpa using h
      rw [List.length_cons, walk, walk, ih _ h, ih _ h]

theorem charsBefore_walk {t : Text} {n : Nat} (hn : n ≤ t.length) :
    charsBefore t (walk ⟨0, 0⟩ t n).line (walk ⟨0, 0⟩ t n).character = n := by
  induction t generalizing n with
  | nil =>
      obtain rfl : n = 0 := by simpa using hn
      simp [charsBefore]
  | cons c t ih =>
      cases n with
      | zero => simp [walk, charsBefore]
      | succ n =>
          have hn : n ≤ t.length := by simpa using hn
          by_cases hc : c = '\n'
          · simp only [walk, hc, if_true]
            rw [walk_eq]
            have hline : 0 + 1 + (walk ⟨0, 0⟩ t n).line = (walk ⟨0, 0⟩ t n).line + 1 := by omega
            simp [moveTo, hline, charsBefore, ih hn]
          · simp only [walk, hc, if_false]
            rw [walk_eq]
            cases hl : (walk ⟨0, 0⟩ t n).line with
            | zero =>
                -- still on the first line: one character more
                have hrec := ih hn
                rw [hl] at hrec
                simp [moveTo, hl, charsBefore, hc, hrec]
            | succ k =>
                have hrec := ih hn
                rw [hl] at hrec
                simp [moveTo, hl, charsBefore, hc, hrec]

/-- **An offset of the text survives the way there and back.** -/
theorem offsetOf_positionOf (d : Document) {offset : Nat} (h : offset ≤ d.text.length) :
    d.offsetOf (d.positionOf offset) = offset :=
  charsBefore_walk h

/-- Different offsets of the text have different positions. -/
theorem positionOf_injective (d : Document) {a b : Nat} (ha : a ≤ d.text.length)
    (hb : b ≤ d.text.length) (h : d.positionOf a = d.positionOf b) : a = b := by
  rw [← d.offsetOf_positionOf ha, h, d.offsetOf_positionOf hb]

/-! ### Order -/

theorem charsBefore_le (t : Text) {line line' k k' : Nat}
    (h : line < line' ∨ line = line' ∧ k ≤ k') : charsBefore t line k ≤ charsBefore t line' k' := by
  induction t generalizing line line' k k' with
  | nil => simp [charsBefore]
  | cons c t ih =>
      cases line with
      | zero =>
          by_cases hstop : c = '\n' ∨ k = 0
          · simp [charsBefore, hstop]
          · obtain ⟨hc, hk⟩ := not_or.1 hstop
            cases line' with
            | zero =>
                have hk' : k' ≠ 0 := by omega
                have hrec : charsBefore t 0 (k - 1) ≤ charsBefore t 0 (k' - 1) := ih (by omega)
                simpa [charsBefore, hc, hk, hk'] using hrec
            | succ n =>
                have hrec : charsBefore t 0 (k - 1) ≤ charsBefore t (n + 1) k' := ih (by omega)
                simpa [charsBefore, hc, hk] using hrec
      | succ m =>
          cases line' with
          | zero => omega
          | succ n =>
              by_cases hc : c = '\n'
              · have hrec : charsBefore t m k ≤ charsBefore t n k' := ih (by omega)
                simpa [charsBefore, hc] using hrec
              · have hrec : charsBefore t (m + 1) k ≤ charsBefore t (n + 1) k' := ih (by omega)
                simpa [charsBefore, hc] using hrec

/-- Offsets are ordered like positions. -/
theorem offsetOf_le (d : Document) {p q : Position} (h : p.le q = true) :
    d.offsetOf p ≤ d.offsetOf q :=
  charsBefore_le d.text (Position.le_iff.1 h)

/-- The offset of the first of two positions. -/
theorem offsetOf_clamp (d : Document) (p q : Position) :
    d.offsetOf (if p.le q then p else q) = min (d.offsetOf p) (d.offsetOf q) := by
  split
  · next h => exact (Nat.min_eq_left (d.offsetOf_le h)).symm
  · next h => exact (Nat.min_eq_right (d.offsetOf_le (Position.le_of_not_le h))).symm

/-! ### Lines -/

/-- There is one line more than there are newlines. -/
theorem length_lines (t : Text) : (Text.lines t).length = t.count '\n' + 1 := by
  induction t with
  | nil => rfl
  | cons c t ih =>
      rw [Text.lines_cons]
      by_cases hc : c = '\n'
      · simp [Text.consLine, hc, ih]
      · cases hl : Text.lines t with
        | nil => exact absurd hl (Text.lines_ne_nil t)
        | cons l ls =>
            rw [hl] at ih
            simpa [Text.consLine, hc, List.count_cons_of_ne hc] using ih

theorem line_walk_le (t : Text) (n : Nat) : (walk ⟨0, 0⟩ t n).line ≤ t.count '\n' := by
  induction t generalizing n with
  | nil => simp [walk]
  | cons c t ih =>
      cases n with
      | zero => simp [walk]
      | succ n =>
          have hrec := ih n
          by_cases hc : c = '\n'
          · simp only [walk, hc, if_true, List.count_cons_self]
            rw [walk_eq]
            simp only [moveTo]
            omega
          · simp only [walk, hc, if_false, List.count_cons_of_ne hc]
            rw [walk_eq]
            simp only [moveTo]
            omega

/-- The line of a position exists. -/
theorem line_positionOf_lt (d : Document) (offset : Nat) :
    (d.positionOf offset).line < d.lineCount := by
  have hline := line_walk_le d.text offset
  rw [lineCount, lines, length_lines, positionOf]
  omega

/-- A line that is not the first one starts behind a newline. -/
theorem newline_before_line {t : Text} {line : Nat} (hpos : 0 < line)
    (hline : line ≤ t.count '\n') :
    ∃ k, charsBefore t line 0 = k + 1 ∧ t[k]? = some '\n' := by
  induction t generalizing line with
  | nil => simp at hline; omega
  | cons c t ih =>
      obtain ⟨n, rfl⟩ : ∃ n, line = n + 1 := ⟨line - 1, by omega⟩
      by_cases hc : c = '\n'
      · subst hc
        rw [List.count_cons_self] at hline
        cases n with
        | zero => exact ⟨0, by cases t <;> simp [charsBefore], rfl⟩
        | succ n =>
            obtain ⟨k, hk, hget⟩ := ih (Nat.succ_pos n) (by omega)
            exact ⟨k + 1, by simp [charsBefore, hk], hget⟩
      · rw [List.count_cons_of_ne hc] at hline
        obtain ⟨k, hk, hget⟩ := ih hpos hline
        exact ⟨k + 1, by simp [charsBefore, hc, hk], hget⟩

@[simp] theorem offsetOf_origin (d : Document) : d.offsetOf ⟨0, 0⟩ = 0 := by
  rw [offsetOf]
  cases d.text <;> simp [charsBefore]

end Document

end EmbeddedSql
