/-
**Offsets and positions correspond.**

An offset is turned into a position by walking along the text, and a position into an offset by
walking until it is reached.  Both ways are told here by the lines alone: the offset of a position
is the start of its line and then its character, cut at the end of the line, and the line of an
offset is the last one that starts at it or before it.  What is left of a position on the way to its
offset and back is the position itself when the document has it, and the end it was cut at
otherwise.

Main definitions:

* `Document.Has` — the positions of a document;
* `Document.clamp` — the position of the document in place of one that may be older than the text;
* `Document.Corresponds` — what the correspondence of offsets and positions says.

Main results:

* `Document.getElem?_lineStarts` — the starts of the lines are the offsets of their first positions;
* `Document.line_positionOf_add_one` — the line of an offset, searched among the starts;
* `Document.positionOf_offsetOf` — **a position comes back cut to the document**;
* `Document.compare_eq` — **positions of the document are ordered like their offsets**;
* `Document.offsets_correspond` — the correspondence as a whole.
-/

import EmbeddedSql.Proofs.Document.Lines

set_option relaxedAutoImplicit false
set_option autoImplicit false

namespace EmbeddedSql

namespace Document

open Text

/-! ### The positions of a document -/

/-- A position of the document: there is such a line, and it reaches as far. -/
structure Has (d : Document) (p : Position) : Prop where
  line : p.line < d.lineCount
  character : p.character ≤ (d.lineAt p.line).length

instance (d : Document) (p : Position) : Decidable (d.Has p) :=
  decidable_of_iff (p.line < d.lineCount ∧ p.character ≤ (d.lineAt p.line).length)
    ⟨fun h => ⟨h.1, h.2⟩, fun h => ⟨h.1, h.2⟩⟩

/-- The position of the document in place of one that may be older than the text: a character
beyond its line is the end of the line, a line beyond the document is the end of the text. -/
def clamp (d : Document) (p : Position) : Position :=
  if p.line < d.lineCount then ⟨p.line, min p.character (d.lineAt p.line).length⟩
  else endOfLines d.lines

variable (d : Document)

theorem lineCount_pos : 0 < d.lineCount :=
  List.length_pos_iff.2 (lines_ne_nil d.text)

variable {d}

theorem getElem?_lines {n : Nat} (h : n < d.lineCount) : d.lines[n]? = some (d.lineAt n) := by
  have hget : d.lines[n]? = some d.lines[n] := List.getElem?_eq_getElem h
  rw [lineAt, hget, Option.getD_some]

theorem lineAt_eq {n : Nat} {l : Text} (h : d.lines[n]? = some l) : d.lineAt n = l := by
  rw [lineAt, h, Option.getD_some]

theorem lt_lineCount {n : Nat} {l : Text} (h : d.lines[n]? = some l) : n < d.lineCount :=
  (List.getElem?_eq_some_iff.1 h).1

theorem has_of_line {p : Position} {l : Text} (hl : d.lines[p.line]? = some l)
    (hk : p.character ≤ l.length) : d.Has p :=
  ⟨lt_lineCount hl, by rwa [lineAt_eq hl]⟩

theorem clamp_of_has {p : Position} (h : d.Has p) : d.clamp p = p := by
  rw [clamp, if_pos h.line, Nat.min_eq_left h.character]

/-! ### Offsets by lines -/

theorem charsBefore_line {l tail : Text} (hl : '\n' ∉ l)
    (htail : tail = [] ∨ ∃ rest, tail = '\n' :: rest) (k : Nat) :
    charsBefore (l ++ tail) 0 k = min k l.length := by
  induction l generalizing k with
  | nil => rcases htail with rfl | ⟨rest, rfl⟩ <;> simp [charsBefore]
  | cons c l ih =>
      obtain ⟨hc, hl⟩ : '\n' ≠ c ∧ '\n' ∉ l := by simpa using hl
      cases k with
      | zero => simp [charsBefore]
      | succ k => simp [charsBefore, Ne.symm hc, ih hl, Nat.succ_min_succ]

theorem charsBefore_past_line {l : Text} (hl : '\n' ∉ l) (t : Text) (line k : Nat) :
    charsBefore (l ++ '\n' :: t) (line + 1) k = l.length + 1 + charsBefore t line k := by
  induction l with
  | nil => simp [charsBefore, Nat.add_comm]
  | cons c l ih =>
      obtain ⟨hc, hl⟩ : '\n' ≠ c ∧ '\n' ∉ l := by simpa using hl
      rw [List.cons_append, charsBefore, if_neg (Ne.symm hc), ih hl, List.length_cons]
      omega

theorem charsBefore_joinLines {ls : List Text} (hls : ∀ l ∈ ls, '\n' ∉ l) {i : Nat} {l : Text}
    (hl : ls[i]? = some l) (k : Nat) :
    charsBefore (joinLines ls) i k = (linesBefore ls i).length + min k l.length := by
  induction ls generalizing i with
  | nil => simp at hl
  | cons l' ls ih =>
      obtain ⟨hl', hls⟩ := List.forall_mem_cons.1 hls
      cases i with
      | zero =>
          obtain rfl : l' = l := by simpa using hl
          have hfirst : (l' :: ls)[0]? = some l' := rfl
          obtain ⟨tail, hjoin, htail⟩ := exists_joinLines_eq hfirst
          rw [hjoin, linesBefore_zero, List.nil_append, charsBefore_line hl' htail,
            List.length_nil, Nat.zero_add]
      | succ i =>
          have hl : ls[i]? = some l := by simpa using hl
          have hne : ls ≠ [] := List.ne_nil_of_mem (List.mem_of_getElem? hl)
          rw [joinLines_cons hne, charsBefore_past_line hl', ih hls hl, linesBefore_cons_succ,
            List.length_append, List.length_cons]
          omega

theorem charsBefore_of_count_lt {t : Text} {line : Nat} (h : t.count '\n' < line) (k : Nat) :
    charsBefore t line k = t.length := by
  induction t generalizing line with
  | nil => simp [charsBefore]
  | cons c t ih =>
      obtain ⟨line, rfl⟩ : ∃ n, line = n + 1 := ⟨line - 1, by omega⟩
      by_cases hc : c = '\n'
      · rw [hc, List.count_cons_self] at h
        simp [charsBefore, hc, ih (Nat.lt_of_succ_lt_succ h)]
      · rw [List.count_cons_of_ne hc] at h
        simp [charsBefore, hc, ih h]

/-- The offset of a position is the start of its line and then its character, cut at the end of the
line. -/
theorem offsetOf_of_line {i : Nat} {l : Text} (hl : d.lines[i]? = some l) (k : Nat) :
    d.offsetOf ⟨i, k⟩ = (linesBefore d.lines i).length + min k l.length := by
  have hjoin : joinLines d.lines = d.text := joinLines_lines d.text
  rw [offsetOf, ← hjoin]
  exact charsBefore_joinLines (fun _ h => newline_not_mem_of_mem_lines h) hl k

theorem offsetOf_of_lineCount_le {p : Position} (h : d.lineCount ≤ p.line) :
    d.offsetOf p = d.text.length := by
  have hcount : d.lineCount = d.text.count '\n' + 1 := length_lines d.text
  exact charsBefore_of_count_lt (by omega) _

theorem offsetOf_le_length (p : Position) : d.offsetOf p ≤ d.text.length := by
  have hbeyond : d.offsetOf ⟨p.line + d.lineCount, 0⟩ = d.text.length :=
    offsetOf_of_lineCount_le (Nat.le_add_left _ _)
  rw [← hbeyond]
  exact d.offsetOf_le (Position.le_iff.2 (Or.inl (Nat.lt_add_of_pos_right d.lineCount_pos)))

/-! ### Positions by lines -/

theorem has_positionOf (d : Document) (offset : Nat) : d.Has (d.positionOf offset) := by
  -- behind the text the walk stands still
  have hwalk : ∃ n, n ≤ d.text.length ∧ d.positionOf offset = d.positionOf n := by
    rcases Nat.le_total offset d.text.length with hle | hge
    · exact ⟨offset, hle, rfl⟩
    · exact ⟨_, Nat.le_refl _, walk_of_length_le _ hge⟩
  obtain ⟨n, hn, heq⟩ := hwalk
  obtain ⟨l, hl, hk, -⟩ := d.exists_line_positionOf hn
  rw [heq]
  exact has_of_line hl hk

/-- The position of the end of the text is the end of the last line. -/
theorem positionOf_length (d : Document) : d.positionOf d.text.length = endOfLines d.lines := by
  have hpos := d.lineCount_pos
  have hlast := getElem?_lines (d := d) (n := d.lineCount - 1) (by omega)
  have hget : d.lines.getLast? = some (d.lineAt (d.lineCount - 1)) := by
    rw [List.getLast?_eq_getElem?]
    exact hlast
  have htext := d.linesBefore_append_last hlast (Nat.le_of_eq (Nat.sub_add_cancel hpos).symm)
  have hlength := congrArg List.length htext
  rw [List.length_append] at hlength
  rw [← hlength, d.positionOf_linesBefore hlast (Nat.le_refl _), endOfLines, hget,
    Option.getD_some]
  rfl

/-- **A position comes back cut to the document** from the way to its offset. -/
theorem positionOf_offsetOf (d : Document) (p : Position) :
    d.positionOf (d.offsetOf p) = d.clamp p := by
  rcases Nat.lt_or_ge p.line d.lineCount with hlt | hge
  · have hl := getElem?_lines hlt
    have hoffset : d.offsetOf p = _ := offsetOf_of_line hl p.character
    rw [hoffset, d.positionOf_linesBefore hl (Nat.min_le_right _ _), clamp, if_pos hlt]
  · rw [offsetOf_of_lineCount_le hge, positionOf_length, clamp, if_neg (Nat.not_lt.2 hge)]

theorem positionOf_offsetOf_of_has {p : Position} (h : d.Has p) :
    d.positionOf (d.offsetOf p) = p := by
  rw [positionOf_offsetOf, clamp_of_has h]

/-! ### The starts of the lines -/

theorem getElem?_lineStartsFrom (start : Nat) (ls : List Text) (i : Nat) :
    (lineStartsFrom start ls)[i]? =
      if i < ls.length then some (start + (linesBefore ls i).length) else none := by
  induction ls generalizing start i with
  | nil => simp [lineStartsFrom]
  | cons l ls ih =>
      cases i with
      | zero => simp [lineStartsFrom]
      | succ i =>
          have hsum : start + l.length + 1 + (linesBefore ls i).length =
              start + (linesBefore (l :: ls) (i + 1)).length := by
            rw [linesBefore_cons_succ, List.length_append, List.length_cons]
            omega
          simp only [lineStartsFrom, List.getElem?_cons_succ, ih, hsum, List.length_cons,
            Nat.add_lt_add_iff_right]

/-- The starts of the lines are the offsets of their first positions. -/
theorem getElem?_lineStarts (d : Document) (i : Nat) :
    d.lineStarts[i]? = if i < d.lineCount then some (d.offsetOf ⟨i, 0⟩) else none := by
  rw [lineStarts, getElem?_lineStartsFrom, lineCount]
  split
  · next h =>
      rw [offsetOf_of_line (getElem?_lines h), Nat.zero_min, Nat.add_zero, Nat.zero_add]
  · rfl

/-- The line of an offset is the last one that does not start behind it: the lines up to it are as
many as the starts up to the offset. -/
theorem line_positionOf_add_one {offset : Nat} (h : offset ≤ d.text.length) :
    (d.positionOf offset).line + 1 = d.lineStarts.countP (· ≤ offset) := by
  obtain ⟨l, hl, hk, hplace⟩ := d.exists_line_positionOf h
  generalize d.positionOf offset = p at *
  have hstart : ∀ {i s}, d.lineStarts[i]? = some s → (linesBefore d.lines i).length = s := by
    intro i s hs
    rw [lineStarts, getElem?_lineStartsFrom] at hs
    split at hs <;> simp_all
  have hlength : p.line + 1 ≤ d.lineStarts.length := by
    have hget := d.getElem?_lineStarts p.line
    rw [if_pos (lt_lineCount hl)] at hget
    exact (List.getElem?_eq_some_iff.1 hget).1
  -- the starts up to the line are not behind the offset, the later ones are
  have hbefore : ∀ s ∈ d.lineStarts.take (p.line + 1), s ≤ offset := by
    intro s hs
    obtain ⟨i, hi⟩ := List.getElem?_of_mem hs
    rw [List.getElem?_take] at hi
    split at hi
    · next hlt =>
        rcases Nat.eq_or_lt_of_le (Nat.le_of_lt_succ hlt) with rfl | hearlier
        · rw [← hstart hi]
          omega
        · have hline : i < d.lineCount := Nat.lt_trans hearlier (lt_lineCount hl)
          have hlater := length_linesBefore_lt (getElem?_lines hline) hearlier
          rw [← hstart hi]
          omega
    · simp at hi
  have hbehind : ∀ s ∈ d.lineStarts.drop (p.line + 1), ¬ s ≤ offset := by
    intro s hs
    obtain ⟨i, hi⟩ := List.getElem?_of_mem hs
    rw [List.getElem?_drop] at hi
    have hlater := length_linesBefore_lt hl (show p.line < p.line + 1 + i by omega)
    rw [← hstart hi]
    omega
  rw [← List.take_append_drop (p.line + 1) d.lineStarts, List.countP_append,
    List.countP_eq_length.2 (by simpa using hbefore),
    List.countP_eq_zero.2 (by simpa using hbehind), List.length_take, Nat.min_eq_left hlength,
    Nat.add_zero]

/-! ### Order -/

theorem compare_positionOf {a b : Nat} (ha : a ≤ d.text.length) (hb : b ≤ d.text.length) :
    (d.positionOf a).compare (d.positionOf b) = Ord.compare a b := by
  have hlt : ∀ {a b : Nat}, a < b → b ≤ d.text.length →
      (d.positionOf a).compare (d.positionOf b) = .lt ∧
        (d.positionOf b).compare (d.positionOf a) = .gt := by
    intro a b hab hb
    rcases d.positionOf_lt hab hb with hline | ⟨hline, hcharacter⟩
    · simp [Position.compare, Nat.compare_eq_lt.2 hline, Nat.compare_eq_gt.2 hline]
    · simp [Position.compare, hline, Nat.compare_eq_lt.2 hcharacter,
        Nat.compare_eq_gt.2 hcharacter]
  rcases Nat.lt_trichotomy a b with hab | rfl | hab
  · rw [(hlt hab hb).1, Nat.compare_eq_lt.2 hab]
  · simp [Position.compare]
  · rw [(hlt hab ha).2, Nat.compare_eq_gt.2 hab]

/-- **Positions of the document are ordered like their offsets.** -/
theorem compare_eq {p q : Position} (hp : d.Has p) (hq : d.Has q) :
    p.compare q = Ord.compare (d.offsetOf p) (d.offsetOf q) := by
  have hcompare := compare_positionOf (offsetOf_le_length (d := d) p)
    (offsetOf_le_length (d := d) q)
  rwa [positionOf_offsetOf_of_has hp, positionOf_offsetOf_of_has hq] at hcompare

theorem le_iff_offsetOf_le {p q : Position} (hp : d.Has p) (hq : d.Has q) :
    p.le q = true ↔ d.offsetOf p ≤ d.offsetOf q := by
  rw [Position.le, compare_eq hp hq, Nat.isLE_compare]

/-! ### Offsets that may be older than the text -/

theorem positionAt_eq (d : Document) (offset : Int) :
    d.positionAt offset = d.positionOf (min offset.toNat d.text.length) := by
  rcases Nat.le_total offset.toNat d.text.length with hle | hge
  · rw [Nat.min_eq_left hle, positionAt]
  · rw [Nat.min_eq_right hge, positionAt]
    exact walk_of_length_le _ hge

/-- An offset comes back cut to the text from the way to its position. -/
theorem offsetOf_positionAt (d : Document) (offset : Int) :
    (d.offsetOf (d.positionAt offset) : Int) = min (max offset 0) d.text.length := by
  rw [positionAt_eq, offsetOf_positionOf _ (Nat.min_le_right _ _)]
  omega

/-- The positions of a document are not larger than its text. -/
theorem Has.le_length {p : Position} (h : d.Has p) :
    p.line ≤ d.text.length ∧ p.character ≤ d.text.length := by
  have hcount : d.lineCount = d.text.count '\n' + 1 := length_lines d.text
  have hnewlines : d.text.count '\n' ≤ d.text.length := List.count_le_length
  have hoffset := offsetOf_of_line (getElem?_lines h.line) p.character
  have hle := offsetOf_le_length (d := d) ⟨p.line, p.character⟩
  have hline := h.line
  rw [Nat.min_eq_left h.character] at hoffset
  omega

theorem ofInts_of_has (hd : d.text.length ≤ Position.bound) {p : Position} (h : d.Has p) :
    Position.ofInts p.line p.character = .ok p := by
  obtain ⟨hline, hcharacter⟩ := h.le_length
  have hadmits : ∀ {n : Nat}, n ≤ Position.bound → Position.admits n = true := by
    intro n hn
    simp [Position.admits, hn]
  simp [Position.ofInts, hadmits (Nat.le_trans hline hd), hadmits (Nat.le_trans hcharacter hd)]

/-! ### The correspondence -/

/-- Offsets and positions of a document correspond to one another. -/
structure Corresponds (d : Document) : Prop where
  /-- Every number is the offset of a position of the document. -/
  inside (offset : Int) : d.Has (d.positionAt offset)
  /-- The position can be sent to a client. -/
  sendable (offset : Int) :
    Position.ofInts (d.positionAt offset).line (d.positionAt offset).character =
      .ok (d.positionAt offset)
  /-- A number comes back cut to the text. -/
  offset_back (offset : Int) :
    (d.offsetOf (d.positionAt offset) : Int) = min (max offset 0) d.text.length
  /-- A position comes back cut to the document. -/
  position_back (p : Position) : d.positionAt (d.offsetOf p) = d.clamp p
  /-- A line starts at the offset of its first position. -/
  starts (i : Nat) :
    d.lineStarts[i]? = if i < d.lineCount then some (d.offsetOf ⟨i, 0⟩) else none
  /-- The line of an offset is the last one that does not start behind it. -/
  line (offset : Int) :
    (d.positionAt offset).line + 1 =
      d.lineStarts.countP (· ≤ d.offsetOf (d.positionAt offset))
  /-- Positions are ordered like their offsets. -/
  order {p q : Position} (hp : d.Has p) (hq : d.Has q) :
    p.compare q = Ord.compare (d.offsetOf p) (d.offsetOf q)
  /-- A range holds the positions whose offsets lie between those of its ends. -/
  range {p a b : Position} (hp : d.Has p) (ha : d.Has a) (hb : d.Has b) :
    (Range.mk a b).contains p = true ↔
      d.offsetOf a ≤ d.offsetOf p ∧ d.offsetOf p ≤ d.offsetOf b
  /-- The text of a range is what stands between the offsets of its ends. -/
  text {a b : Nat} (hab : a ≤ b) (hb : b ≤ d.text.length) :
    d.textIn ⟨d.positionAt a, d.positionAt b⟩ = d.text.slice a b

/-- **Offsets and positions correspond**, as long as the text is not longer than a position can
say. -/
theorem offsets_correspond (d : Document) (hd : d.text.length ≤ Position.bound) :
    d.Corresponds where
  inside offset := d.has_positionOf offset.toNat
  sendable offset := ofInts_of_has hd (d.has_positionOf offset.toNat)
  offset_back := d.offsetOf_positionAt
  position_back := d.positionOf_offsetOf
  starts := d.getElem?_lineStarts
  line offset := by
    have hplace : d.positionAt offset = d.positionOf (d.offsetOf (d.positionAt offset)) :=
      (positionOf_offsetOf_of_has (d.has_positionOf offset.toNat)).symm
    conv => lhs; rw [hplace]
    exact line_positionOf_add_one (offsetOf_le_length _)
  order := compare_eq
  range hp ha hb := by
    rw [Range.contains, Bool.and_eq_true, le_iff_offsetOf_le ha hp, le_iff_offsetOf_le hp hb]
  text {a b} hab hb := by
    have hstart : d.offsetOf (d.positionAt a) = a := d.offsetOf_positionOf (Nat.le_trans hab hb)
    have hstop : d.offsetOf (d.positionAt b) = b := d.offsetOf_positionOf hb
    rw [textIn, hstart, hstop]

/-- The second line is empty, and so is the last one, behind a newline. -/
theorem offsets_correspond_at_empty_line :
    let d : Document := ⟨"", "one\n\nthree\n".toList, 0⟩
    d.text.length ≤ Position.bound ∧ d.Corresponds ∧
      d.positionAt (-1) = ⟨0, 0⟩ ∧ d.positionAt 4 = ⟨1, 0⟩ ∧ d.positionAt 5 = ⟨2, 0⟩ ∧
      d.positionAt 12 = ⟨3, 0⟩ ∧ d.offsetOf ⟨1, 7⟩ = 4 ∧ d.offsetOf ⟨4, 0⟩ = 11 := by
  intro d
  have hd : d.text.length ≤ Position.bound := by decide +kernel
  exact ⟨hd, offsets_correspond d hd, by decide +kernel⟩

end Document

end EmbeddedSql
