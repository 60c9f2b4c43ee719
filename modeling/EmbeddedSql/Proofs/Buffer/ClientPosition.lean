/-
**Positions of the detection in the client, and back.**

A client counts columns in UTF-16 units of lines that keep their breaks.  A place in such a line
survives the way to the client and back (`Buffer.LineAt.toCore_toClient`), and every place of the
text is one, except the empty line behind a last newline: the detection has it, the client has not.
The client is sent its position, but on the way back a line behind the last one is taken for the end
of the last one with its break, and for the detection that line ends in front of the break.

Main results:

* `Document.at_end_iff` — the places in an empty line behind the last newline;
* `Buffer.Ended.length_add_one` — the client has no such line;
* `Buffer.toCore_toClient_behind_newline` — what becomes of the place in it;
* `Buffer.offsetOf_client_position` — **the offset of a position that was sent to the client and
  came back**.
-/

import EmbeddedSql.Proofs.Buffer.Lines
import EmbeddedSql.Proofs.Document.Correspondence

set_option relaxedAutoImplicit false
set_option autoImplicit false

namespace EmbeddedSql

open Text

/-! ### The end of the text -/

namespace Document

variable {d : Document} {i k : Nat} {l : Text}

theorem getLast?_linesBefore {ls : List Text} (hl : ls[i]? = some l) :
    (linesBefore ls (i + 1)).getLast? = some '\n' := by
  rw [linesBefore_succ hl]
  simp

/-- A text ends with a newline when its last line is empty and not the only one. -/
theorem getLast?_text_iff (hl : d.lines[i]? = some l) (hlast : d.lines.length ≤ i + 1) :
    d.text.getLast? = some '\n' ↔ l = [] ∧ 0 < i := by
  have hplain : '\n' ∉ l := newline_not_mem_of_mem_lines (List.mem_of_getElem? hl)
  rw [← d.linesBefore_append_last hl hlast]
  by_cases hnil : l = []
  · rw [hnil, List.append_nil]
    cases i with
    | zero => simp
    | succ j =>
        obtain ⟨hlt, -⟩ := List.getElem?_eq_some_iff.1 hl
        have hbefore := getElem?_lines (d := d) (Nat.lt_of_succ_lt hlt)
        simp [getLast?_linesBefore hbefore]
  · have hne : l.getLast hnil ≠ '\n' := fun heq => hplain (heq ▸ List.getLast_mem hnil)
    rw [List.getLast?_append, List.getLast?_eq_some_getLast hnil, Option.some_or]
    exact iff_of_false (fun heq => hne (Option.some.inj heq)) fun h => hnil h.1

/-- The place at the end of a text that ends with a newline is the one in an empty last line. -/
theorem at_end_iff (hl : d.lines[i]? = some l) (hk : k ≤ l.length) :
    (linesBefore d.lines i).length + k = d.text.length ∧ d.text.getLast? = some '\n' ↔
      d.lines.length ≤ i + 1 ∧ l = [] ∧ 0 < i := by
  constructor
  · rintro ⟨hplace, hnewline⟩
    have hlast : d.lines.length ≤ i + 1 := by
      -- a later line would start behind the end of this one
      refine Nat.not_lt.1 fun hlater => ?_
      have hstart := offsetOf_of_line (getElem?_lines (d := d) hlater) 0
      have hle := offsetOf_le_length (d := d) ⟨i + 1, 0⟩
      have hlt : _ < (linesBefore d.lines (i + 1)).length :=
        length_linesBefore_lt hl (Nat.lt_succ_self i)
      omega
    exact ⟨hlast, (getLast?_text_iff hl hlast).1 hnewline⟩
  · rintro ⟨hlast, hempty⟩
    have htext := congrArg List.length (d.linesBefore_append_last hl hlast)
    rw [hempty.1, List.append_nil] at htext
    rw [hempty.1, List.length_nil] at hk
    exact ⟨by omega, (getLast?_text_iff hl hlast).2 hempty⟩

end Document

/-! ### The way to the client and back -/

namespace Buffer

/-- The client has no empty last line. -/
theorem Ended.length_add_one {ls cs : List Text} (h : Ended ls cs)
    (hlast : ls.getLast? = some []) : cs.length + 1 = ls.length := by
  induction h with
  | empty => rfl
  | last hne => simp [hne] at hlast
  | @cons l ending ls cs hend h ih =>
      have hne : ls ≠ [] := by
        rintro rfl
        cases h
      rw [List.getLast?_cons, List.getLast?_eq_some_getLast hne] at hlast
      have hlast : ls.getLast? = some [] := by
        rw [List.getLast?_eq_some_getLast hne]
        simpa using hlast
      rw [List.length_cons, List.length_cons, ih hlast]

variable {b : Buffer} {i : Nat}

theorem length_lines_of_empty_last (h : plainBreaks b.source = true)
    (hempty : b.document.lines[i]? = some []) (hlast : b.document.lines.length ≤ i + 1) :
    b.lines.length = i := by
  obtain ⟨hlt, -⟩ := List.getElem?_eq_some_iff.1 hempty
  have hi : b.document.lines.length - 1 = i := by omega
  have hget : b.document.lines.getLast? = some [] := by
    rw [List.getLast?_eq_getElem?, hi, hempty]
  have hlength := (b.ended_lines h).length_add_one hget
  omega

/-- The place in an empty line behind the last newline comes back as the end of the line before. -/
theorem toCore_toClient_behind_newline (h : plainBreaks b.source = true)
    (hempty : b.document.lines[i + 1]? = some []) (hlast : b.document.lines.length ≤ i + 1 + 1) :
    b.document.offsetOf (b.toCore (b.toClient ⟨i + 1, 0⟩)) + 1 =
      (linesBefore b.document.lines (i + 1)).length := by
  obtain ⟨hlt, -⟩ := List.getElem?_eq_some_iff.1 hempty
  have hclient : b.lines.length = i + 1 := length_lines_of_empty_last h hempty hlast
  -- the line before is the last one of the client
  have hl := Document.getElem?_lines (d := b.document) (Nat.lt_of_succ_lt hlt)
  obtain ⟨ending, hline⟩ := b.exists_lineAt_of_line h hl (Or.inl hlt)
  have hend : b.lines.getLast? = some (b.document.lineAt i ++ ending) := by
    rw [List.getLast?_eq_getElem?, hclient]
    exact hline.client
  have hto : b.toClient ⟨i + 1, 0⟩ = ⟨i + 1, 0⟩ := by
    simp [toClient, toClientIn, hclient]
  have hback : b.toCore ⟨i + 1, 0⟩ = ⟨i, Text.units (b.document.lineAt i ++ ending)⟩ := by
    simp [toCore, toCoreIn, hend, hclient]
  have hunits := length_le_units (b.document.lineAt i ++ ending)
  rw [List.length_append] at hunits
  rw [hto, hback, Document.offsetOf_of_line hl, linesBefore_succ hl, Nat.min_eq_right (by omega)]
  simp [Nat.add_assoc]

/-- **The offset of a position that was sent to the client and came back.**  It is the offset the
position had, at every place of a text whose lines are broken by newlines only, alone or behind a
carriage return, but for one: at the end of a text that ends with a newline it is that of the
newline. -/
theorem offsetOf_client_position (b : Buffer) (h : plainBreaks b.source = true) {offset : Nat}
    (hoffset : offset ≤ b.document.text.length) :
    b.document.offsetOf (b.toCore (b.toClient (b.document.positionOf offset))) =
      if offset = b.document.text.length ∧ b.document.text.getLast? = some '\n' then offset - 1
      else offset := by
  obtain ⟨l, hl, hk, hplace⟩ := b.document.exists_line_positionOf hoffset
  have hback := b.document.offsetOf_positionOf hoffset
  have hend := Document.at_end_iff hl hk
  rw [← hplace] at hend
  generalize b.document.positionOf offset = p at *
  by_cases hin : p.line + 1 < b.document.lines.length ∨ l ≠ []
  · obtain ⟨ending, hline⟩ := b.exists_lineAt_of_line h hl hin
    have hnot : ¬ (b.document.lines.length ≤ p.line + 1 ∧ l = [] ∧ 0 < p.line) := by
      rintro ⟨hlast, hnil, -⟩
      exact hin.elim (Nat.not_lt.2 hlast) fun hne => hne hnil
    have hreturn : b.toCore (b.toClient p) = p := hline.toCore_toClient hk
    rw [if_neg fun hcond => hnot (hend.1 hcond), hreturn, hback]
  · obtain ⟨hlast, hnil⟩ := not_or.1 hin
    have hlast := Nat.not_lt.1 hlast
    obtain rfl : l = [] := Classical.not_not.1 hnil
    obtain ⟨line, character⟩ := p
    obtain rfl : character = 0 := by simpa using hk
    cases line with
    | zero =>
        -- nothing in the source: the client has no line at all
        have hsource : b.lines = [] :=
          List.eq_nil_of_length_eq_zero (length_lines_of_empty_last h hl hlast)
        have hreturn : b.toCore (b.toClient ⟨0, 0⟩) = ⟨0, 0⟩ := by
          simp [toClient, toClientIn, toCore, toCoreIn, hsource]
        rw [if_neg fun hcond => Nat.lt_irrefl 0 (hend.1 hcond).2.2, hreturn, hback]
    | succ i =>
        have hbefore := toCore_toClient_behind_newline h hl hlast
        rw [if_pos (hend.2 ⟨hlast, rfl, Nat.succ_pos i⟩)]
        simp only [Nat.add_zero] at hplace
        omega

/-- A character of two units in the first line, and a newline at the end.  The end of the first line
comes back; the empty line behind the second does not. -/
theorem offsetOf_client_position_behind_newline :
    let b : Buffer := ⟨"", "x😀y\nz\n".toList, none, none⟩
    plainBreaks b.source = true ∧ b.document.text.length = 6 ∧
      b.toClient (b.document.positionOf 3) = ⟨0, 4⟩ ∧
      b.document.offsetOf (b.toCore (b.toClient (b.document.positionOf 3))) = 3 ∧
      b.toClient (b.document.positionOf 6) = ⟨2, 0⟩ ∧
      b.document.offsetOf (b.toCore (b.toClient (b.document.positionOf 6))) = 5 := by
  intro b
  have h : plainBreaks b.source = true := by decide +kernel
  have hlength : b.document.text.length = 6 := by decide +kernel
  have hthree : 3 ≤ b.document.text.length := by
    rw [hlength]
    decide
  have hline := offsetOf_client_position b h hthree
  have hend := offsetOf_client_position b h (Nat.le_of_eq hlength.symm)
  rw [hlength] at hline hend
  have hnewline : b.document.text.getLast? = some '\n' := by decide +kernel
  rw [if_neg (by decide)] at hline
  rw [if_pos ⟨rfl, hnewline⟩] at hend
  exact ⟨h, hlength, by decide +kernel, hline, by decide +kernel, hend⟩

end Buffer

end EmbeddedSql
