/-
**What indentation does to a text.**

Indentation works on lines, tokens do not.  So it is first brought into a form that follows the
characters: behind a newline the margin comes in, or what is blank up to the next newline goes out.

Main definitions:

* `Text.Visible` — the first line of a text shows something;
* `Text.EndsVisibly` — a text does not end in a blank;
* `Formatting.Indented` — a text and its indentation, one character or one newline at a time.

Main results:

* `Formatting.indented_iff` — **the relation is indentation**;
* `Formatting.indent_append` — two texts in a row are indented one by one, if the first one ends in
  a visible character;
* `Formatting.indent_eq_self_iff` — such a text changes exactly if it has more than one line.
-/

import EmbeddedSql.Formatting
import EmbeddedSql.Proofs.Document.Lines

set_option relaxedAutoImplicit false
set_option autoImplicit false

namespace EmbeddedSql

/-! ### First lines -/

namespace Text

theorem lines_newline_cons (t : Text) : lines ('\n' :: t) = [] :: lines t := by
  simp [lines_cons, consLine]

theorem lines_cons_of_ne {c : Char} (hc : c ≠ '\n') {t l : Text} {ls : List Text}
    (h : lines t = l :: ls) : lines (c :: t) = (c :: l) :: ls := by
  simp [lines_cons, consLine, hc, h]

theorem lines_append_of_not_mem {u t l : Text} {ls : List Text} (hu : '\n' ∉ u)
    (h : lines t = l :: ls) : lines (u ++ t) = (u ++ l) :: ls := by
  induction u with
  | nil => exact h
  | cons c u ih =>
      obtain ⟨hc, hu⟩ : '\n' ≠ c ∧ '\n' ∉ u := by simpa using hu
      exact lines_cons_of_ne (Ne.symm hc) (ih hu)

theorem joinLines_cons_eq_append (l : Text) (ls : List Text) :
    joinLines (l :: ls) = l ++ joinLines ([] :: ls) := by
  by_cases hls : ls = []
  · simp [hls, joinLines_singleton]
  · rw [joinLines_cons hls, joinLines_cons hls, List.nil_append]

/-- The first line of a text shows something. -/
def Visible (t : Text) : Prop :=
  ∃ u c s, t = u ++ c :: s ∧ '\n' ∉ u ∧ isBlank c = false

theorem Visible.append {t : Text} (h : Visible t) (t' : Text) : Visible (t ++ t') := by
  obtain ⟨u, c, s, rfl, hu, hc⟩ := h
  exact ⟨u, c, s ++ t', by simp, hu, hc⟩

theorem isBlank_newline : isBlank '\n' = true := by decide

theorem ne_newline_of_isBlank {c : Char} (hc : isBlank c = false) : c ≠ '\n' := by
  rintro rfl
  exact absurd hc (by decide)

/-- What a text starts with: something visible, or blanks up to the end of its first line. -/
theorem visible_or_blank (t : Text) : Visible t ∨
    ∃ u s, t = u ++ s ∧ isAllBlank u = true ∧ '\n' ∉ u ∧ (s = [] ∨ ∃ rest, s = '\n' :: rest) := by
  induction t with
  | nil => exact Or.inr ⟨[], [], rfl, rfl, by simp, Or.inl rfl⟩
  | cons c t ih =>
      cases hblank : isBlank c with
      | false => exact Or.inl ⟨[], c, t, rfl, by simp, hblank⟩
      | true =>
          by_cases hc : c = '\n'
          · exact Or.inr ⟨[], c :: t, rfl, rfl, by simp, Or.inr ⟨t, by rw [hc]⟩⟩
          · rcases ih with ⟨u, d, s, rfl, hu, hd⟩ | ⟨u, s, rfl, hall, hu, hs⟩
            · exact Or.inl ⟨c :: u, d, s, rfl, by simp [Ne.symm hc, hu], hd⟩
            · refine Or.inr ⟨c :: u, s, rfl, ?_, by simp [Ne.symm hc, hu], hs⟩
              simpa [isAllBlank, hblank] using hall

/-- A text does not end in a blank. -/
def EndsVisibly (t : Text) : Prop :=
  ∀ c, t.getLast? = some c → isBlank c = false

namespace EndsVisibly

variable {s t : Text} {c : Char}

theorem of_cons (h : EndsVisibly (c :: t)) : EndsVisibly t := by
  intro d hd
  refine h d ?_
  rw [List.getLast?_cons, hd, Option.getD_some]

theorem of_append (h : EndsVisibly (s ++ t)) : EndsVisibly t := by
  intro d hd
  refine h d ?_
  rw [List.getLast?_append, hd, Option.some_or]

theorem append (h : EndsVisibly t) (hne : t ≠ []) : EndsVisibly (s ++ t) := by
  intro d hd
  rw [List.getLast?_append, List.getLast?_eq_some_getLast hne, Option.some_or] at hd
  exact h d (hd ▸ List.getLast?_eq_some_getLast hne)

theorem of_last (h : t.getLast? = some c) (hc : isBlank c = false) : EndsVisibly t := by
  intro d hd
  obtain rfl := Option.some.inj (h.symm.trans hd)
  exact hc

/-- A blank line is not the end: its last character, if only the newline before it, is a blank. -/
theorem not_blank_line (h : EndsVisibly ('\n' :: t)) : isAllBlank t = false := by
  cases hall : isAllBlank t with
  | false => rfl
  | true =>
      have hne : '\n' :: t ≠ [] := by simp
      have hvisible := h _ (List.getLast?_eq_some_getLast hne)
      have hblank : isBlank (('\n' :: t).getLast hne) = true := by
        rcases List.mem_cons.1 (List.getLast_mem hne) with heq | hmem
        · rw [heq]
          exact isBlank_newline
        · exact List.all_eq_true.1 hall _ hmem
      rw [hvisible] at hblank
      exact absurd hblank (by simp)

end EndsVisibly

theorem Visible.isAllBlank_firstLine {t l : Text} {ls : List Text} (h : Visible t)
    (hlines : lines t = l :: ls) : isAllBlank l = false := by
  obtain ⟨u, c, s, rfl, hu, hc⟩ := h
  obtain ⟨l', ls', hrest⟩ := List.exists_cons_of_ne_nil (lines_ne_nil s)
  have hboth := lines_append_of_not_mem hu (lines_cons_of_ne (ne_newline_of_isBlank hc) hrest)
  obtain ⟨rfl, -⟩ := List.cons.inj (hlines.symm.trans hboth)
  simp [isAllBlank, hc]

end Text

namespace Formatting

open Text

/-! ### Indentation, one character at a time -/

variable {margin : Text}

theorem indent_of_lines {t l : Text} {ls : List Text} (h : lines t = l :: ls) :
    indent margin t = joinLines (l :: ls.map (indentLine margin)) := by
  unfold indent
  rw [h]
  cases ls with
  | nil =>
      have hjoin := joinLines_lines t
      rw [h] at hjoin
      exact hjoin.symm
  | cons l' ls => rfl

@[simp] theorem indent_nil : indent margin [] = [] := rfl

theorem indent_cons {c : Char} (hc : c ≠ '\n') (t : Text) :
    indent margin (c :: t) = c :: indent margin t := by
  obtain ⟨l, ls, hlines⟩ := List.exists_cons_of_ne_nil (lines_ne_nil t)
  rw [indent_of_lines hlines, indent_of_lines (lines_cons_of_ne hc hlines),
    joinLines_cons_eq_append, joinLines_cons_eq_append l]
  rfl

/-- Behind a newline the margin comes in. -/
theorem indent_newline_of_visible {t : Text} (h : Visible t) :
    indent margin ('\n' :: t) = '\n' :: (margin ++ indent margin t) := by
  obtain ⟨l, ls, hlines⟩ := List.exists_cons_of_ne_nil (lines_ne_nil t)
  have hnewline : lines ('\n' :: t) = [] :: l :: ls := by rw [lines_newline_cons, hlines]
  rw [indent_of_lines hlines, indent_of_lines hnewline, List.map_cons, joinLines_cons (by simp),
    indentLine, h.isAllBlank_firstLine hlines, joinLines_cons_eq_append,
    joinLines_cons_eq_append l]
  simp

/-- A blank line becomes empty. -/
theorem indent_newline_of_blank {u t : Text} (hall : isAllBlank u = true) (hu : '\n' ∉ u)
    (ht : t = [] ∨ ∃ rest, t = '\n' :: rest) :
    indent margin ('\n' :: (u ++ t)) = '\n' :: indent margin t := by
  obtain ⟨ls, hlines⟩ : ∃ ls, lines t = [] :: ls := by
    rcases ht with rfl | ⟨rest, rfl⟩
    · exact ⟨[], rfl⟩
    · exact ⟨lines rest, lines_newline_cons rest⟩
  have hnewline : lines ('\n' :: (u ++ t)) = [] :: u :: ls := by
    rw [lines_newline_cons, lines_append_of_not_mem hu hlines, List.append_nil]
  rw [indent_of_lines hlines, indent_of_lines hnewline, List.map_cons, joinLines_cons (by simp),
    indentLine, hall]
  rfl

/-- A text and its indentation. -/
inductive Indented (margin : Text) : Text → Text → Prop
  | nil : Indented margin [] []
  | keep {c : Char} {t t' : Text} (hc : c ≠ '\n') (h : Indented margin t t') :
      Indented margin (c :: t) (c :: t')
  | line {t t' : Text} (hvisible : Visible t) (h : Indented margin t t') :
      Indented margin ('\n' :: t) ('\n' :: (margin ++ t'))
  | blank {u t t' : Text} (hall : isAllBlank u = true) (hu : '\n' ∉ u)
      (ht : t = [] ∨ ∃ rest, t = '\n' :: rest) (h : Indented margin t t') :
      Indented margin ('\n' :: (u ++ t)) ('\n' :: t')

theorem indented_indent (margin t : Text) : Indented margin t (indent margin t) := by
  -- a blank line is passed over as a whole, so the induction is on the length
  induction hlen : t.length using Nat.strongRecOn generalizing t with
  | _ len ih =>
      cases t with
      | nil => exact Indented.nil
      | cons c t =>
          rw [List.length_cons] at hlen
          by_cases hc : c = '\n'
          · subst hc
            rcases visible_or_blank t with hvisible | ⟨u, s, rfl, hall, hu, hs⟩
            · rw [indent_newline_of_visible hvisible]
              exact Indented.line hvisible (ih t.length (by omega) t rfl)
            · rw [indent_newline_of_blank hall hu hs]
              rw [List.length_append] at hlen
              exact Indented.blank hall hu hs (ih s.length (by omega) s rfl)
          · rw [indent_cons hc]
            exact Indented.keep hc (ih t.length (by omega) t rfl)

namespace Indented

variable {t t' : Text}

theorem eq_indent (h : Indented margin t t') : t' = indent margin t := by
  induction h with
  | nil => rfl
  | keep hc _ ih => rw [indent_cons hc, ih]
  | line hvisible _ ih => rw [indent_newline_of_visible hvisible, ih]
  | blank hall hu ht _ ih => rw [indent_newline_of_blank hall hu ht, ih]

/-- Nothing happens within a line. -/
theorem keep_all {u : Text} (hu : '\n' ∉ u) (h : Indented margin t t') :
    Indented margin (u ++ t) (u ++ t') := by
  induction u with
  | nil => exact h
  | cons c u ih =>
      obtain ⟨hc, hu⟩ : '\n' ≠ c ∧ '\n' ∉ u := by simpa using hu
      exact keep (Ne.symm hc) (ih hu)

/-- Two texts in a row are indented one by one, if the first one ends in a visible character. -/
theorem append {s s' : Text} (h : Indented margin s s')
    (hlast : EndsVisibly s) (h' : Indented margin t t') :
    Indented margin (s ++ t) (s' ++ t') := by
  induction h with
  | nil => exact h'
  | keep hc _ ih => exact keep hc (ih hlast.of_cons)
  | line hvisible _ ih =>
      have hline := line (hvisible.append t) (ih hlast.of_cons)
      simpa using hline
  | @blank u s s' hall hu hs _ ih =>
      rcases hs with rfl | ⟨rest, rfl⟩
      · rw [List.append_nil] at hlast
        simp [hlast.not_blank_line] at hall
      · have hrest := ih hlast.of_cons.of_append
        rw [List.cons_append, List.append_assoc]
        exact blank hall hu (Or.inr ⟨rest ++ t, rfl⟩) hrest

end Indented

/-- **The relation is indentation.** -/
theorem indented_iff {t t' : Text} : Indented margin t t' ↔ t' = indent margin t :=
  ⟨Indented.eq_indent, fun h => h ▸ indented_indent margin t⟩

theorem indent_append {s : Text} (hlast : EndsVisibly s) (t : Text) :
    indent margin (s ++ t) = indent margin s ++ indent margin t :=
  ((indented_indent margin s).append hlast (indented_indent margin t)).eq_indent.symm

theorem indent_of_not_mem {s : Text} (hs : '\n' ∉ s) : indent margin s = s := by
  have h : Indented margin (s ++ []) (s ++ []) := Indented.nil.keep_all hs
  rw [List.append_nil] at h
  exact h.eq_indent.symm

/-! ### Texts that do not change -/

/-- What follows the last newline is determined. -/
theorem eq_of_append_newline_eq {x y v w : Text} (hv : '\n' ∉ v) (hw : '\n' ∉ w)
    (h : x ++ '\n' :: v = y ++ '\n' :: w) : v = w := by
  have hlast : ∀ {x v : Text}, '\n' ∉ v →
      (x ++ '\n' :: v).reverse.takeWhile (· ≠ '\n') = v.reverse := by
    intro x v hv
    have hall : ∀ c ∈ v.reverse, decide (c ≠ '\n') = true := by
      intro c hc
      refine decide_eq_true ?_
      rintro rfl
      exact hv (List.mem_reverse.1 hc)
    rw [List.reverse_append, List.reverse_cons, List.append_assoc,
      List.takeWhile_append_of_pos hall]
    simp
  have hboth := congrArg (fun t => t.reverse.takeWhile (· ≠ '\n')) h
  simp only [hlast hv, hlast hw] at hboth
  exact List.reverse_inj.1 hboth

/-- The last of several lines gets the margin. -/
theorem Indented.exists_last_line {s s' : Text} (h : Indented margin s s')
    (hlast : EndsVisibly s) (hnewline : '\n' ∈ s) :
    ∃ x y v, s = x ++ '\n' :: v ∧ s' = y ++ '\n' :: (margin ++ v) ∧ '\n' ∉ v := by
  induction h with
  | nil => simp at hnewline
  | @keep c s s' hc _ ih =>
      have hmem : '\n' ∈ s := by simpa [Ne.symm hc] using hnewline
      obtain ⟨x, y, v, rfl, rfl, hv⟩ := ih hlast.of_cons hmem
      exact ⟨c :: x, c :: y, v, rfl, rfl, hv⟩
  | @line s s' _ h ih =>
      by_cases hmem : '\n' ∈ s
      · obtain ⟨x, y, v, rfl, rfl, hv⟩ := ih hlast.of_cons hmem
        exact ⟨'\n' :: x, '\n' :: (margin ++ y), v, rfl, by simp, hv⟩
      · refine ⟨[], [], s, rfl, ?_, hmem⟩
        rw [h.eq_indent, indent_of_not_mem hmem]
        rfl
  | @blank u s s' hall hu hs _ ih =>
      rcases hs with rfl | ⟨rest, rfl⟩
      · rw [List.append_nil] at hlast
        simp [hlast.not_blank_line] at hall
      · obtain ⟨x, y, v, heq, rfl, hv⟩ := ih hlast.of_cons.of_append (by simp)
        exact ⟨'\n' :: (u ++ x), '\n' :: y, v, by rw [heq]; simp, rfl, hv⟩

/-- **A text that ends in a visible character changes exactly if it has more than one line.** -/
theorem indent_eq_self_iff (hmargin : margin ≠ []) (hplain : '\n' ∉ margin) {s : Text}
    (hlast : EndsVisibly s) :
    indent margin s = s ↔ '\n' ∉ s := by
  refine ⟨fun heq hmem => ?_, indent_of_not_mem⟩
  obtain ⟨x, y, v, hx, hy, hv⟩ := (indented_indent margin s).exists_last_line hlast hmem
  rw [heq, hx] at hy
  have hsame := eq_of_append_newline_eq hv (by simp [hv, hplain]) hy
  exact hmargin (by simpa using hsame)

end Formatting

end EmbeddedSql
