/-
**The lines of the client and those of the detection.**

As long as a source has no line breaks but newlines, alone or behind a carriage return, client and
detection see the same lines; the client keeps the breaks, and has no line behind the last break.
Every offset of the detection's text is then a place in the client's source, and an edit between two
such places changes the detection's text between the two offsets.

Main definitions:

* `Buffer.plainBreaks` — sources without other line breaks;
* `Buffer.Ended` — the lines of the detection next to those of the client;
* `Buffer.LineAt` — a line with its break, and what is known about the source before it.

Main results:

* `Buffer.ended_splitLines` — **client and detection see the same lines**;
* `Buffer.exists_lineAt_of_line` — a line of the detection is one of the client, unless it is empty
  and the last one;
* `Buffer.exists_lineAt` — every offset of the text is a place in a line of the client;
* `Buffer.LineAt.toCore_toClient` — a place survives the way to the client and back;
* `Buffer.document_change` — **an edit of the client** between two offsets of the text.
-/

import EmbeddedSql.Buffer
import EmbeddedSql.Proofs.Document.Lines

set_option relaxedAutoImplicit false
set_option autoImplicit false

namespace EmbeddedSql

/-! ### Newlines -/

namespace Text

theorem unifyNewlines_cons {c : Char} {t : Text} (h : c = '\r' → t.head? ≠ some '\n') :
    unifyNewlines (c :: t) = c :: unifyNewlines t := by
  rw [unifyNewlines.eq_def]
  split
  · next heq =>
      obtain ⟨rfl, rfl⟩ := List.cons.inj heq
      exact absurd rfl (h rfl)
  · next heq =>
      obtain ⟨rfl, rfl⟩ := List.cons.inj heq
      rfl
  · next heq => simp at heq

/-- A text without carriage returns stays as it is. -/
theorem unifyNewlines_of_not_mem {t : Text} (h : '\r' ∉ t) : unifyNewlines t = t := by
  induction t with
  | nil => rfl
  | cons c t ih =>
      obtain ⟨hc, ht⟩ : '\r' ≠ c ∧ '\r' ∉ t := by simpa using h
      rw [unifyNewlines_cons fun heq => absurd heq.symm hc, ih ht]

/-- Newlines are unified on both sides of a seam, unless the seam parts a carriage return from what
follows. -/
theorem unifyNewlines_append {s : Text} (h : s.getLast? ≠ some '\r') (t : Text) :
    unifyNewlines (s ++ t) = unifyNewlines s ++ unifyNewlines t := by
  fun_induction unifyNewlines s with
  | case1 rest ih =>
      rw [List.cons_append, List.cons_append, unifyNewlines, ih, List.cons_append]
      intro hlast
      exact h (by simp [List.getLast?_cons, hlast])
  | case2 c rest hno ih =>
      have hrest : rest.getLast? ≠ some '\r' := by
        intro hlast
        exact h (by simp [List.getLast?_cons, hlast])
      have hseam : c = '\r' → (rest ++ t).head? ≠ some '\n' := by
        rintro rfl hhead
        cases rest with
        | nil => simp at h
        | cons d rest =>
            obtain rfl : d = '\n' := by simpa using hhead
            exact hno rest rfl rfl
      rw [List.cons_append, unifyNewlines_cons hseam, ih hrest, List.cons_append]
  | case3 => rfl

/-! ### UTF-16 units -/

theorem charUnits_pos (c : Char) : 0 < charUnits c := by
  unfold charUnits
  split <;> omega

theorem length_le_units (t : Text) : t.length ≤ units t := by
  induction t with
  | nil => simp
  | cons c t ih =>
      have hpos := charUnits_pos c
      rw [units_cons, List.length_cons]
      omega

theorem units_mono {s t : Text} (h : s <+: t) : units s ≤ units t := by
  obtain ⟨v, rfl⟩ := h
  rw [units_append]
  exact Nat.le_add_right _ _

/-- The units of the first characters are covered by these characters. -/
theorem charsCovering_units_take {t : Text} {k : Nat} (hk : k ≤ t.length) :
    charsCovering (units (t.take k)) t = k := by
  induction t generalizing k with
  | nil =>
      obtain rfl : k = 0 := by simpa using hk
      simp [charsCovering]
  | cons c t ih =>
      cases k with
      | zero => simp [charsCovering]
      | succ k =>
          have hpos := charUnits_pos c
          obtain ⟨n, hn⟩ : ∃ n, charUnits c + units (t.take k) = n + 1 :=
            ⟨charUnits c + units (t.take k) - 1, by omega⟩
          have hrest : n + 1 - charUnits c = units (t.take k) := by omega
          rw [List.take_succ_cons, units_cons, hn, charsCovering, hrest, ih (by simpa using hk)]

end Text

namespace Buffer

open Text

/-! ### Lines with their breaks -/

/-- Sources in which lines are broken by newlines only, alone or behind a carriage return. -/
def plainBreaks : Text → Bool
  | '\r' :: '\n' :: rest => plainBreaks rest
  | c :: rest => (c == '\n' || !isBreak c) && plainBreaks rest
  | [] => true

theorem plainBreaks_cons {c : Char} {t : Text} (hno : ∀ rest, c = '\r' → t = '\n' :: rest → False) :
    plainBreaks (c :: t) = ((c == '\n' || !isBreak c) && plainBreaks t) := by
  rw [plainBreaks.eq_def]
  split
  · next heq =>
      obtain ⟨rfl, rfl⟩ := List.cons.inj heq
      exact (hno _ rfl rfl).elim
  · next heq =>
      obtain ⟨rfl, rfl⟩ := List.cons.inj heq
      rfl
  · next heq => simp at heq

/-- The lines of the detection next to those of the client.  The last one is missing if it is
empty. -/
inductive Ended : List Text → List Text → Prop
  | empty : Ended [[]] []
  | last {l : Text} (hne : l ≠ []) : Ended [l] [l]
  | cons {l ending : Text} {ls cs : List Text} (hend : ending = ['\n'] ∨ ending = ['\r', '\n'])
      (h : Ended ls cs) : Ended (l :: ls) ((l ++ ending) :: cs)

theorem ended_splitLines {acc source l : Text} {ls : List Text}
    (h : plainBreaks source = true) (hlines : Text.lines (unifyNewlines source) = l :: ls) :
    Ended ((acc.reverse ++ l) :: ls) (splitLines acc source) := by
  fun_induction splitLines acc source generalizing l ls with
  | case1 acc hnil =>
      obtain ⟨rfl, rfl⟩ : [] = l ∧ [] = ls := by simpa [unifyNewlines] using hlines
      obtain rfl : acc = [] := by simpa using hnil
      exact Ended.empty
  | case2 acc hne =>
      obtain ⟨rfl, rfl⟩ : [] = l ∧ [] = ls := by simpa [unifyNewlines] using hlines
      rw [List.append_nil]
      exact Ended.last (by simpa using hne)
  | case3 acc rest ih =>
      obtain ⟨l', ls', hrest⟩ := List.exists_cons_of_ne_nil (lines_ne_nil (unifyNewlines rest))
      have hl : [] = l ∧ l' :: ls' = ls := by
        simpa [unifyNewlines, lines_cons, consLine, hrest] using hlines
      obtain ⟨rfl, rfl⟩ := hl
      have hended := Ended.cons (l := acc.reverse) (Or.inr rfl) (ih h hrest)
      simpa using hended
  | case4 acc c rest hno hbreak ih =>
      have hc : c = '\n' ∧ plainBreaks rest = true := by
        simpa [plainBreaks_cons hno, hbreak] using h
      obtain ⟨rfl, h⟩ := hc
      obtain ⟨l', ls', hrest⟩ := List.exists_cons_of_ne_nil (lines_ne_nil (unifyNewlines rest))
      have hl : [] = l ∧ l' :: ls' = ls := by
        simpa [unifyNewlines, lines_cons, consLine, hrest] using hlines
      obtain ⟨rfl, rfl⟩ := hl
      have hended := Ended.cons (l := acc.reverse) (Or.inl rfl) (ih h hrest)
      simpa using hended
  | case5 acc c rest hno hbreak ih =>
      have h : plainBreaks rest = true := by
        rw [plainBreaks_cons hno, Bool.and_eq_true] at h
        exact h.2
      have hc : c ≠ '\r' ∧ c ≠ '\n' := by
        constructor <;> rintro rfl <;> simp [isBreak] at hbreak
      obtain ⟨l', ls', hrest⟩ := List.exists_cons_of_ne_nil (lines_ne_nil (unifyNewlines rest))
      have hl : c :: l' = l ∧ ls' = ls := by
        rw [unifyNewlines_cons fun heq => absurd heq hc.1, lines_cons, hrest] at hlines
        simpa [consLine, hc.2] using hlines
      obtain ⟨rfl, rfl⟩ := hl
      have hended := ih h hrest
      simpa using hended

/-- No carriage return of such a source is left in the text of the detection. -/
theorem return_not_mem_of_plainBreaks {source : Text} (h : plainBreaks source = true) :
    '\r' ∉ unifyNewlines source := by
  fun_induction plainBreaks source with
  | case1 rest ih => simpa [unifyNewlines] using ih h
  | case2 c rest hno ih =>
      rw [Bool.and_eq_true] at h
      have hc : c ≠ '\r' := by
        rintro rfl
        simp [isBreak] at h
      rw [unifyNewlines_cons fun heq => absurd heq hc]
      simpa [Ne.symm hc] using ih h.2
  | case3 => simp [unifyNewlines]

namespace Ended

variable {ls cs : List Text} {i : Nat}

/-- A line of the detection is one of the client, unless it is empty and the last one. -/
theorem exists_line (h : Ended ls cs) {l : Text} (hl : ls[i]? = some l)
    (hin : i + 1 < ls.length ∨ l ≠ []) : ∃ ending, cs[i]? = some (l ++ ending) := by
  induction h generalizing i with
  | empty =>
      cases i with
      | zero => simp_all
      | succ i => simp at hl
  | last hne =>
      cases i with
      | zero => exact ⟨[], by simpa using hl⟩
      | succ i => simp at hl
  | @cons l' ending ls cs hend h ih =>
      cases i with
      | zero =>
          obtain rfl : l' = l := by simpa using hl
          exact ⟨ending, by simp⟩
      | succ i => simpa using ih (by simpa using hl) (by simpa using hin)

/-- The client's lines before a line are those of the detection. -/
theorem flatten_take (h : Ended ls cs) (hls : ∀ l ∈ ls, '\r' ∉ l) (hi : i < ls.length) :
    unifyNewlines (cs.take i).flatten = linesBefore ls i ∧
      (cs.take i).flatten.getLast? ≠ some '\r' := by
  induction h generalizing i with
  | empty =>
      obtain rfl : i = 0 := by simpa using hi
      simp [unifyNewlines]
  | last =>
      obtain rfl : i = 0 := by simpa using hi
      simp [unifyNewlines]
  | @cons l ending ls cs hend h ih =>
      cases i with
      | zero => simp [unifyNewlines]
      | succ i =>
          obtain ⟨hl, hls⟩ := List.forall_mem_cons.1 hls
          obtain ⟨hunify, hlast⟩ := ih hls (by simpa using hi)
          have hline : (l ++ ending).getLast? = some '\n' := by
            rcases hend with rfl | rfl <;> simp
          have hseam : l.getLast? ≠ some '\r' := fun heq => hl (List.mem_of_getLast? heq)
          have hending : unifyNewlines ending = ['\n'] := by
            rcases hend with rfl | rfl <;> rfl
          rw [List.take_succ_cons, List.flatten_cons, linesBefore_cons_succ]
          constructor
          · rw [unifyNewlines_append (by simp [hline]), unifyNewlines_append hseam,
              unifyNewlines_of_not_mem hl, hending, hunify]
            simp
          · rw [List.getLast?_append, hline]
            cases hrest : (cs.take i).flatten.getLast? <;> simp_all

end Ended

/-- A line with its break, and what is known about the source before it. -/
structure LineAt (b : Buffer) (i : Nat) (l ending : Text) : Prop where
  client : b.lines[i]? = some (l ++ ending)
  core : b.document.lines[i]? = some l
  plain : '\r' ∉ l
  before : unifyNewlines (b.lines.take i).flatten = linesBefore b.document.lines i
  seam : (b.lines.take i).flatten.getLast? ≠ some '\r'

/-- Client and detection see the same lines, but for an empty last one. -/
theorem ended_lines (b : Buffer) (h : plainBreaks b.source = true) :
    Ended b.document.lines b.lines := by
  obtain ⟨first, rest, hlines⟩ := List.exists_cons_of_ne_nil (lines_ne_nil (unifyNewlines b.source))
  have hended : Ended ((([] : Text).reverse ++ first) :: rest) b.lines :=
    ended_splitLines h hlines
  rwa [List.reverse_nil, List.nil_append, ← hlines] at hended

/-- A line of the detection is one of the client, unless it is empty and the last one. -/
theorem exists_lineAt_of_line (b : Buffer) (h : plainBreaks b.source = true) {i : Nat} {l : Text}
    (hl : b.document.lines[i]? = some l) (hin : i + 1 < b.document.lines.length ∨ l ≠ []) :
    ∃ ending, b.LineAt i l ending := by
  obtain ⟨hi, -⟩ := List.getElem?_eq_some_iff.1 hl
  have hreturn : ∀ x ∈ b.document.lines, '\r' ∉ x := by
    intro x hx hmem
    obtain ⟨n, hn⟩ := List.getElem?_of_mem hx
    obtain ⟨tail, hjoin, -⟩ := exists_joinLines_eq hn
    have htext : b.document.text = joinLines b.document.lines := (joinLines_lines _).symm
    refine return_not_mem_of_plainBreaks h (?_ : '\r' ∈ b.document.text)
    rw [htext, hjoin]
    simp [hmem]
  obtain ⟨ending, hclient⟩ := (b.ended_lines h).exists_line hl hin
  obtain ⟨hbefore, hseam⟩ := (b.ended_lines h).flatten_take hreturn hi
  exact ⟨ending, hclient, hl, hreturn l (List.mem_of_getElem? hl), hbefore, hseam⟩

/-- Every offset of the text is a place in a line of the client. -/
theorem exists_lineAt (b : Buffer) (h : plainBreaks b.source = true) {offset : Nat}
    (hoffset : offset < b.document.text.length) :
    ∃ l ending, b.LineAt (b.document.positionOf offset).line l ending ∧
      (b.document.positionOf offset).character ≤ l.length ∧
      offset = (linesBefore b.document.lines (b.document.positionOf offset).line).length +
        (b.document.positionOf offset).character := by
  obtain ⟨l, hl, hk, hplace⟩ := b.document.exists_line_positionOf (Nat.le_of_lt hoffset)
  have hin := b.document.lt_length_or_ne_nil hl (hplace ▸ hoffset)
  obtain ⟨ending, hline⟩ := b.exists_lineAt_of_line h hl hin
  exact ⟨l, ending, hline, hk, hplace⟩

/-! ### Places of the client -/

namespace LineAt

variable {b : Buffer} {i k : Nat} {l ending : Text} (h : b.LineAt i l ending) (hk : k ≤ l.length)

include h

theorem unifyNewlines_line : unifyNewlines (l ++ ending) = l ++ unifyNewlines ending := by
  have hseam : l.getLast? ≠ some '\r' := fun heq => h.plain (List.mem_of_getLast? heq)
  rw [unifyNewlines_append hseam, unifyNewlines_of_not_mem h.plain]

include hk

theorem toClient_eq : b.toClient ⟨i, k⟩ = ⟨i, Text.units (l.take k)⟩ := by
  simp [toClient, toClientIn, h.client, List.take_append_of_le_length hk]

/-- A place survives the way to the client and back. -/
theorem toCore_toClient : b.toCore (b.toClient ⟨i, k⟩) = ⟨i, k⟩ := by
  have hle : k ≤ (unifyNewlines (l ++ ending)).length := by
    rw [h.unifyNewlines_line, List.length_append]
    omega
  have htake : l.take k = (unifyNewlines (l ++ ending)).take k := by
    rw [h.unifyNewlines_line, List.take_append_of_le_length hk]
  have hunits : ¬ Text.units (unifyNewlines (l ++ ending)) < Text.units (l.take k) := by
    rw [htake]
    exact Nat.not_lt.2 (units_mono (List.take_prefix k _))
  rw [h.toClient_eq hk]
  simp only [toCore, toCoreIn, h.client, columnIn, hunits, if_false]
  rw [htake, charsCovering_units_take hle]

omit hk in
/-- No place parts a carriage return from its newline. -/
theorem getLast?_before_ne (k : Nat) :
    ((b.lines.take i).flatten ++ l.take k).getLast? ≠ some '\r' := by
  rw [List.getLast?_append]
  cases hlast : (l.take k).getLast? with
  | none => simpa using h.seam
  | some c =>
      have hc := List.mem_of_mem_take (List.mem_of_getLast? hlast)
      simp only [Option.some_or, ne_eq, Option.some.injEq]
      rintro rfl
      exact h.plain hc

/-- The source before a place, as the detection sees it. -/
theorem unifyNewlines_before :
    unifyNewlines ((b.lines.take i).flatten ++ l.take k) =
      b.document.text.take ((linesBefore b.document.lines i).length + k) := by
  obtain ⟨tail, htext, -⟩ := exists_joinLines_eq h.core
  have hjoin : joinLines b.document.lines = b.document.text := joinLines_lines _
  have hplain : '\r' ∉ l.take k := fun hmem => h.plain (List.mem_of_mem_take hmem)
  rw [unifyNewlines_append h.seam, h.before, unifyNewlines_of_not_mem hplain, ← hjoin, htext,
    List.take_length_add_append, List.take_append_of_le_length hk]

/-- The source behind a place, as the detection sees it. -/
theorem unifyNewlines_after :
    unifyNewlines ((l ++ ending).drop k ++ (b.lines.drop (i + 1)).flatten) =
      b.document.text.drop ((linesBefore b.document.lines i).length + k) := by
  obtain ⟨hi, hget⟩ := List.getElem?_eq_some_iff.1 h.client
  have hsource : b.source = ((b.lines.take i).flatten ++ l.take k) ++
      ((l ++ ending).drop k ++ (b.lines.drop (i + 1)).flatten) := by
    have hline : l.take k ++ (l ++ ending).drop k = l ++ ending := by
      rw [List.drop_append_of_le_length hk, ← List.append_assoc, List.take_append_drop]
    rw [List.append_assoc, ← List.append_assoc (l.take k), hline, ← hget, ← List.flatten_cons,
      ← List.drop_eq_getElem_cons hi, ← List.flatten_append, List.take_append_drop, flatten_lines]
  -- both parts of the source together are the text, and so is the first one up to the place
  have htext : b.document.text = unifyNewlines b.source := rfl
  have hboth := congrArg unifyNewlines hsource
  rw [unifyNewlines_append (h.getLast?_before_ne k), h.unifyNewlines_before hk, ← htext] at hboth
  exact (List.append_cancel_left ((List.take_append_drop _ b.document.text).trans hboth)).symm

end LineAt

/-! ### Edits -/

section Edits

variable {r : Range} {text : Text}

theorem flatten_changeLine_after {ls : List Text} {n : Nat} (h : r.stop.line < n) :
    ((ls.zipIdx n).map fun l => changeLine text r l.1 l.2).flatten = ls.flatten := by
  induction ls generalizing n with
  | nil => rfl
  | cons l ls ih =>
      have hline : changeLine text r l n = l := by simp [changeLine, h]
      simp [hline, ih (n := n + 1) (by omega)]

theorem flatten_changeLine_from {ls : List Text} {last : Text} {n j : Nat} (hn : r.start.line < n)
    (hstop : r.stop.line = n + j) (hlast : ls[j]? = some last) :
    ((ls.zipIdx n).map fun l => changeLine text r l.1 l.2).flatten =
      last.drop r.stop.character ++ (ls.drop (j + 1)).flatten := by
  induction ls generalizing n j with
  | nil => simp at hlast
  | cons l ls ih =>
      have hlo : ¬ n < r.start.line := by omega
      have hhi : ¬ r.stop.line < n := by omega
      have hne : n ≠ r.start.line := by omega
      cases j with
      | zero =>
          obtain rfl : l = last := by simpa using hlast
          have hat : n = r.stop.line := by omega
          rw [List.zipIdx_cons, List.map_cons, List.flatten_cons,
            flatten_changeLine_after (n := n + 1) (by omega)]
          simp [changeLine, hlo, hne, ← hat]
      | succ j =>
          have hbefore : n ≠ r.stop.line := by omega
          rw [List.zipIdx_cons, List.map_cons, List.flatten_cons,
            ih (n := n + 1) (j := j) (by omega) (by omega) (by simpa using hlast)]
          simp [changeLine, hlo, hhi, hne, hbefore]

/-- The lines before the range stay, and so does what stands before and behind it in its first and
last line. -/
theorem flatten_changeLine {ls : List Text} {first last : Text} {n i j : Nat}
    (hstart : r.start.line = n + i) (hstop : r.stop.line = n + j) (hij : i ≤ j)
    (hfirst : ls[i]? = some first) (hlast : ls[j]? = some last) :
    ((ls.zipIdx n).map fun l => changeLine text r l.1 l.2).flatten =
      (ls.take i).flatten ++ first.take r.start.character ++ text ++
        (last.drop r.stop.character ++ (ls.drop (j + 1)).flatten) := by
  induction ls generalizing n i j with
  | nil => simp at hfirst
  | cons l ls ih =>
      cases i with
      | zero =>
          obtain rfl : l = first := by simpa using hfirst
          have hhi : ¬ r.stop.line < n := by omega
          have hat : n = r.start.line := by omega
          cases j with
          | zero =>
              obtain rfl : l = last := by simpa using hlast
              have hat' : r.stop.line = r.start.line := by omega
              rw [List.zipIdx_cons, List.map_cons, List.flatten_cons,
                flatten_changeLine_after (n := n + 1) (by omega)]
              simp [changeLine, ← hat, hat']
          | succ j =>
              have hne : n ≠ r.stop.line := by omega
              rw [List.zipIdx_cons, List.map_cons, List.flatten_cons,
                flatten_changeLine_from (n := n + 1) (j := j) (by omega) (by omega)
                  (by simpa using hlast)]
              simp [changeLine, hhi, hne, ← hat]
      | succ i =>
          obtain ⟨j, rfl⟩ : ∃ k, j = k + 1 := ⟨j - 1, by omega⟩
          have hbefore : n < r.start.line := by omega
          rw [List.zipIdx_cons, List.map_cons, List.flatten_cons,
            ih (n := n + 1) (i := i) (j := j) (by omega) (by omega) (by omega)
              (by simpa using hfirst) (by simpa using hlast)]
          simp [changeLine, hbefore]

end Edits

/-- The source after an edit between two places. -/
theorem LineAt.changeSource_eq {b : Buffer} {i k j m : Nat} {l l' ending ending' : Text}
    (h : b.LineAt i l ending) (hk : k ≤ l.length) (h' : b.LineAt j l' ending')
    (hm : m ≤ l'.length) (hij : i ≤ j) (text : Text) :
    changeSource b.source ⟨text, some (b.rangeToClient ⟨⟨i, k⟩, ⟨j, m⟩⟩)⟩ =
      (b.lines.take i).flatten ++ l.take k ++ text ++
        ((l' ++ ending').drop m ++ (b.lines.drop (j + 1)).flatten) := by
  have hstart : toCoreIn b.lines (b.toClient ⟨i, k⟩) = ⟨i, k⟩ := h.toCore_toClient hk
  have hstop : toCoreIn b.lines (b.toClient ⟨j, m⟩) = ⟨j, m⟩ := h'.toCore_toClient hm
  have hlines : splitLines [] b.source = b.lines := rfl
  obtain ⟨hi, -⟩ := List.getElem?_eq_some_iff.1 h.client
  simp only [changeSource, rangeToClient, hlines, hstart, hstop, Nat.ne_of_lt hi, if_false]
  rw [flatten_changeLine (Nat.zero_add i).symm (Nat.zero_add j).symm hij h.client h'.client,
    List.take_append_of_le_length hk]

/-- **An edit of the client** between two offsets of the text, with a text without carriage
returns. -/
theorem document_change (b : Buffer) (h : plainBreaks b.source = true) {start stop : Nat}
    (hle : start ≤ stop) (hstop : stop < b.document.text.length) {text : Text}
    (htext : '\r' ∉ text) :
    (b.change ⟨text, some (b.rangeToClient (b.document.rangeOf start stop))⟩).document.text =
      b.document.text.take start ++ text ++ b.document.text.drop stop := by
  obtain ⟨first, ending, hfirst, hk, hplace⟩ := b.exists_lineAt h (Nat.lt_of_le_of_lt hle hstop)
  obtain ⟨last, ending', hlast, hk', hplace'⟩ := b.exists_lineAt h hstop
  have hlines := b.document.line_positionOf_le hle (Nat.le_of_lt hstop)
  have hbefore := hfirst.unifyNewlines_before hk
  have hafter := hlast.unifyNewlines_after hk'
  have hseam := hfirst.getLast?_before_ne (b.document.positionOf start).character
  have hseam' : text.getLast? ≠ some '\r' := fun heq => htext (List.mem_of_getLast? heq)
  rw [← hplace] at hbefore
  rw [← hplace'] at hafter
  have hsource := hfirst.changeSource_eq hk hlast hk' hlines text
  have hunify : unifyNewlines (changeSource b.source
      ⟨text, some (b.rangeToClient (b.document.rangeOf start stop))⟩) =
        b.document.text.take start ++ (text ++ b.document.text.drop stop) := by
    refine (congrArg unifyNewlines hsource).trans ?_
    rw [List.append_assoc, unifyNewlines_append hseam, hbefore, unifyNewlines_append hseam',
      unifyNewlines_of_not_mem htext, hafter]
  rw [List.append_assoc]
  exact hunify

end Buffer

end EmbeddedSql
