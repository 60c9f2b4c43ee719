/-
**Offsets as places in lines.**

A document is its lines with newlines in between, and the position of an offset says which line it
is in and how far along.  Going forward from a position line by line is the same as going forward in
the text.

Main definitions:

* `Text.linesBefore` — the text before a line.

Main results:

* `Document.positionOf_linesBefore` — the position of a place in a line;
* `Document.exists_line_positionOf` — **every offset is a place in a line**, and its position says
  which;
* `Document.positionOf_lt`, `Document.positionOf_le` — positions are ordered like offsets;
* `Document.advanceIn_positionOf` — **advancing from a position is advancing in the text**;
* `Document.positionOf_line` — the position of a line of a part of the text.
-/

import EmbeddedSql.Proofs.Document.Offset

set_option relaxedAutoImplicit false
set_option autoImplicit false

namespace EmbeddedSql

/-! ### Lines of a text -/

namespace Text

theorem joinLines_singleton (l : Text) : joinLines [l] = l := by
  simp [joinLines, List.intercalate]

theorem joinLines_cons {ls : List Text} (h : ls ≠ []) (l : Text) :
    joinLines (l :: ls) = l ++ '\n' :: joinLines ls := by
  cases ls with
  | nil => exact absurd rfl h
  | cons l' ls => simp [joinLines, List.intercalate]

theorem mem_joinLines {ls : List Text} {c : Char} (hc : c ≠ '\n') :
    c ∈ joinLines ls ↔ ∃ l ∈ ls, c ∈ l := by
  induction ls with
  | nil => simp [joinLines, List.intercalate]
  | cons l ls ih =>
      by_cases hls : ls = []
      · simp [hls, joinLines_singleton]
      · simp [joinLines_cons hls, ih, hc]

theorem newline_not_mem_of_mem_lines {t l : Text} (h : l ∈ lines t) : '\n' ∉ l := by
  induction t generalizing l with
  | nil =>
      obtain rfl : l = [] := by simpa using h
      simp
  | cons c t ih =>
      rw [lines_cons] at h
      unfold consLine at h
      split at h
      · rcases List.mem_cons.1 h with rfl | h
        · simp
        · exact ih h
      · next hc =>
          split at h
          · next hnil => exact absurd hnil (lines_ne_nil t)
          · next l₀ rest hlines =>
              rw [hlines] at ih
              rcases List.mem_cons.1 h with rfl | h
              · have hl₀ := ih List.mem_cons_self
                simp [hl₀, Ne.symm hc]
              · exact ih (List.mem_cons_of_mem _ h)

/-- The text before a line, given all lines. -/
def linesBefore (ls : List Text) (i : Nat) : Text :=
  ((ls.take i).map (· ++ ['\n'])).flatten

@[simp] theorem linesBefore_zero (ls : List Text) : linesBefore ls 0 = [] := rfl

theorem linesBefore_cons_succ (l : Text) (ls : List Text) (i : Nat) :
    linesBefore (l :: ls) (i + 1) = l ++ '\n' :: linesBefore ls i := by
  simp [linesBefore]

theorem linesBefore_succ {ls : List Text} {i : Nat} {l : Text} (h : ls[i]? = some l) :
    linesBefore ls (i + 1) = linesBefore ls i ++ (l ++ ['\n']) := by
  simp [linesBefore, List.take_add_one, h]

/-- A line ends before any later one starts. -/
theorem length_linesBefore_lt {ls : List Text} {i j : Nat} {l : Text} (h : ls[i]? = some l)
    (hij : i < j) : (linesBefore ls i).length + l.length < (linesBefore ls j).length := by
  have hle : (linesBefore ls (i + 1)).length ≤ (linesBefore ls j).length := by
    obtain ⟨k, rfl⟩ := Nat.exists_eq_add_of_le (Nat.succ_le_of_lt hij)
    have hsplit : linesBefore ls (i + 1 + k) =
        linesBefore ls (i + 1) ++ linesBefore (ls.drop (i + 1)) k := by
      rw [linesBefore, List.take_add, List.map_append, List.flatten_append]
      rfl
    rw [hsplit, List.length_append]
    exact Nat.le_add_right _ _
  rw [linesBefore_succ h] at hle
  simp at hle
  omega

/-- A text is what stands before a line, and the lines from there on. -/
theorem linesBefore_append {ls : List Text} {i : Nat} (hi : i < ls.length) :
    linesBefore ls i ++ joinLines (ls.drop i) = joinLines ls := by
  induction ls generalizing i with
  | nil => simp at hi
  | cons l ls ih =>
      cases i with
      | zero => rfl
      | succ i =>
          have hi : i < ls.length := by simpa using hi
          have hne : ls ≠ [] := List.ne_nil_of_length_pos (by omega)
          rw [linesBefore_cons_succ, joinLines_cons hne, List.drop_succ_cons, ← ih hi]
          simp

/-- A line, whatever stands before it and behind it. -/
theorem exists_joinLines_eq {ls : List Text} {i : Nat} {l : Text} (h : ls[i]? = some l) :
    ∃ tail, joinLines ls = linesBefore ls i ++ (l ++ tail) ∧
      (tail = [] ∨ ∃ rest, tail = '\n' :: rest) := by
  obtain ⟨hi, hl⟩ := List.getElem?_eq_some_iff.1 h
  have hdrop : ls.drop i = l :: ls.drop (i + 1) := by rw [List.drop_eq_getElem_cons hi, hl]
  rw [← linesBefore_append hi, hdrop]
  by_cases hne : ls.drop (i + 1) = []
  · exact ⟨[], by rw [hne, joinLines_singleton, List.append_nil], Or.inl rfl⟩
  · exact ⟨_, by rw [joinLines_cons hne], Or.inr ⟨_, rfl⟩⟩

/-- A text without newlines does not reach over the end of a line. -/
theorem prefix_of_newline_not_mem {piece l tail : Text} (hpiece : '\n' ∉ piece)
    (htail : tail = [] ∨ ∃ rest, tail = '\n' :: rest) (h : piece <+: l ++ tail) :
    piece <+: l := by
  induction l generalizing piece with
  | nil =>
      cases piece with
      | nil => exact List.nil_prefix
      | cons c piece =>
          rcases htail with rfl | ⟨rest, rfl⟩
          · exact h
          · obtain ⟨rfl, -⟩ := List.cons_prefix_cons.1 h
            exact absurd List.mem_cons_self hpiece
  | cons d l ih =>
      cases piece with
      | nil => exact List.nil_prefix
      | cons c piece =>
          obtain ⟨rfl, hrest⟩ := List.cons_prefix_cons.1 h
          have hplain : '\n' ∉ piece := fun hmem => hpiece (List.mem_cons_of_mem c hmem)
          exact List.cons_prefix_cons.2 ⟨rfl, ih hplain hrest⟩

/-- Every offset is a place in a line. -/
theorem exists_place {ls : List Text} (hne : ls ≠ []) {offset : Nat}
    (h : offset ≤ (joinLines ls).length) :
    ∃ i l k, ls[i]? = some l ∧ k ≤ l.length ∧ offset = (linesBefore ls i).length + k := by
  induction ls generalizing offset with
  | nil => exact absurd rfl hne
  | cons l ls ih =>
      by_cases hfirst : offset ≤ l.length
      · exact ⟨0, l, offset, rfl, hfirst, by simp⟩
      · by_cases hls : ls = []
        · rw [hls, joinLines_singleton] at h
          omega
        · rw [joinLines_cons hls, List.length_append, List.length_cons] at h
          have hoffset : offset - (l.length + 1) ≤ (joinLines ls).length := by omega
          obtain ⟨i, l', k, hl', hk, hplace⟩ := ih hls hoffset
          refine ⟨i + 1, l', k, hl', hk, ?_⟩
          rw [linesBefore_cons_succ, List.length_append, List.length_cons]
          omega

end Text

/-! ### Positions -/

namespace Document

open Text

theorem walk_line {l : Text} (hl : '\n' ∉ l) (p : Position) (t : Text) {k : Nat}
    (hk : k ≤ l.length) : walk p (l ++ t) k = ⟨p.line, p.character + k⟩ := by
  induction l generalizing p k with
  | nil =>
      obtain rfl : k = 0 := by simpa using hk
      cases t <;> rfl
  | cons c l ih =>
      obtain ⟨hc, hl⟩ : '\n' ≠ c ∧ '\n' ∉ l := by simpa using hl
      cases k with
      | zero => rfl
      | succ k =>
          rw [List.cons_append, walk, if_neg (Ne.symm hc), ih hl _ (by simpa using hk)]
          simp only [Position.mk.injEq, true_and]
          omega

theorem walk_past_line {l : Text} (hl : '\n' ∉ l) (p : Position) (t : Text) (n : Nat) :
    walk p (l ++ '\n' :: t) (l.length + 1 + n) = walk ⟨p.line + 1, 0⟩ t n := by
  induction l generalizing p with
  | nil =>
      rw [List.length_nil, Nat.zero_add, Nat.add_comm]
      simp [walk]
  | cons c l ih =>
      obtain ⟨hc, hl⟩ : '\n' ≠ c ∧ '\n' ∉ l := by simpa using hl
      have hn : (c :: l).length + 1 + n = (l.length + 1 + n) + 1 := by simp; omega
      rw [hn, List.cons_append, walk, if_neg (Ne.symm hc), ih hl]

/-- The walk to the start of a line, and from there on. -/
theorem walk_linesBefore {ls : List Text} (hls : ∀ l ∈ ls, '\n' ∉ l) {i : Nat} (hi : i < ls.length)
    (line n : Nat) :
    walk ⟨line, 0⟩ (joinLines ls) ((linesBefore ls i).length + n) =
      walk ⟨line + i, 0⟩ (joinLines (ls.drop i)) n := by
  induction ls generalizing i line with
  | nil => simp at hi
  | cons l ls ih =>
      cases i with
      | zero => simp
      | succ i =>
          have hi : i < ls.length := by simpa using hi
          obtain ⟨hl, hls⟩ := List.forall_mem_cons.1 hls
          have hn : (linesBefore (l :: ls) (i + 1)).length + n =
              l.length + 1 + ((linesBefore ls i).length + n) := by
            rw [linesBefore_cons_succ]
            simp
            omega
          have hline : line + (i + 1) = line + 1 + i := by omega
          rw [hn, joinLines_cons (List.ne_nil_of_length_pos (by omega)), walk_past_line hl,
            ih hls hi, List.drop_succ_cons, hline]

/-- The position of a place in a line. -/
theorem positionOf_linesBefore (d : Document) {i k : Nat} {l : Text} (hl : d.lines[i]? = some l)
    (hk : k ≤ l.length) : d.positionOf ((linesBefore d.lines i).length + k) = ⟨i, k⟩ := by
  have hls : ∀ l ∈ d.lines, '\n' ∉ l := fun l hl => newline_not_mem_of_mem_lines hl
  obtain ⟨hi, hget⟩ := List.getElem?_eq_some_iff.1 hl
  have hjoin : d.text = joinLines d.lines := (joinLines_lines d.text).symm
  have hwalk := walk_linesBefore hls hi 0 k
  have hfirst : (d.lines.drop i)[0]? = some l := by simpa using hl
  obtain ⟨tail, hdrop, -⟩ := exists_joinLines_eq hfirst
  rw [positionOf, hjoin, hwalk, hdrop, linesBefore_zero, List.nil_append,
    walk_line (hls l (List.mem_of_getElem? hl)) _ _ hk]
  simp

/-- **Every offset is a place in a line**, and its position says which. -/
theorem exists_line_positionOf (d : Document) {offset : Nat} (h : offset ≤ d.text.length) :
    ∃ l, d.lines[(d.positionOf offset).line]? = some l ∧
      (d.positionOf offset).character ≤ l.length ∧
      offset = (linesBefore d.lines (d.positionOf offset).line).length +
        (d.positionOf offset).character := by
  have hjoin : joinLines d.lines = d.text := joinLines_lines d.text
  obtain ⟨i, l, k, hl, hk, hplace⟩ := exists_place (lines_ne_nil d.text) (hjoin ▸ h)
  have hposition : d.positionOf offset = ⟨i, k⟩ := hplace ▸ d.positionOf_linesBefore hl hk
  rw [hposition]
  exact ⟨l, hl, hk, hplace⟩

theorem mem_of_mem_lineAt (d : Document) {n : Nat} {c : Char} (h : c ∈ d.lineAt n) :
    c ∈ d.text := by
  unfold lineAt at h
  cases hl : d.lines[n]? with
  | none => simp [hl] at h
  | some l =>
      obtain ⟨tail, hjoin, -⟩ := exists_joinLines_eq hl
      have hlines : joinLines d.lines = d.text := joinLines_lines d.text
      rw [hl, Option.getD_some] at h
      rw [← hlines, hjoin]
      simp [h]

theorem newline_not_mem_lineAt (d : Document) (n : Nat) : '\n' ∉ d.lineAt n := by
  unfold lineAt
  cases hl : d.lines[n]? with
  | none => simp
  | some l => exact newline_not_mem_of_mem_lines (List.mem_of_getElem? hl)

/-- Only a newline ends a line. -/
theorem line_positionOf_succ (d : Document) {offset : Nat} {c : Char}
    (h : d.text[offset]? = some c) (hc : c ≠ '\n') :
    (d.positionOf (offset + 1)).line = (d.positionOf offset).line := by
  obtain ⟨hlt, -⟩ := List.getElem?_eq_some_iff.1 h
  obtain ⟨l, hl, hk, hplace⟩ := d.exists_line_positionOf (Nat.le_of_lt hlt)
  generalize d.positionOf offset = p at *
  obtain ⟨tail, hjoin, htail⟩ := exists_joinLines_eq hl
  have hlines : joinLines d.lines = d.text := joinLines_lines d.text
  have hlt : p.character < l.length := by
    refine Nat.lt_of_le_of_ne hk fun heq => hc ?_
    rw [← hlines, hjoin, hplace, List.getElem?_append_right (by omega), Nat.add_sub_cancel_left,
      heq, List.getElem?_append_right (Nat.le_refl _), Nat.sub_self] at h
    rcases htail with rfl | ⟨rest, rfl⟩
    · simp at h
    · simpa using h.symm
  rw [hplace, Nat.add_assoc, d.positionOf_linesBefore hl hlt]

/-- The text is what stands before the last line, and the last line. -/
theorem linesBefore_append_last (d : Document) {i : Nat} {l : Text} (hl : d.lines[i]? = some l)
    (hlast : d.lines.length ≤ i + 1) : linesBefore d.lines i ++ l = d.text := by
  obtain ⟨hi, hget⟩ := List.getElem?_eq_some_iff.1 hl
  have hdrop : d.lines.drop i = [l] := by
    rw [List.drop_eq_getElem_cons hi, hget, List.drop_eq_nil_of_le hlast]
  have happend := linesBefore_append hi
  rw [hdrop, joinLines_singleton] at happend
  exact happend.trans (joinLines_lines d.text)

/-- An offset before the end of the text does not stand in an empty last line. -/
theorem lt_length_or_ne_nil (d : Document) {i k : Nat} {l : Text} (hl : d.lines[i]? = some l)
    (h : (linesBefore d.lines i).length + k < d.text.length) :
    i + 1 < d.lines.length ∨ l ≠ [] := by
  refine Classical.or_iff_not_imp_left.2 ?_
  rintro hlast rfl
  have htext := d.linesBefore_append_last hl (Nat.not_lt.1 hlast)
  rw [List.append_nil] at htext
  rw [← htext] at h
  omega

/-- Positions are ordered like offsets. -/
theorem positionOf_lt (d : Document) {a b : Nat} (hab : a < b) (hb : b ≤ d.text.length) :
    (d.positionOf a).line < (d.positionOf b).line ∨
      (d.positionOf a).line = (d.positionOf b).line ∧
        (d.positionOf a).character < (d.positionOf b).character := by
  obtain ⟨la, hla, hka, hplace⟩ := d.exists_line_positionOf (show a ≤ d.text.length by omega)
  obtain ⟨lb, hlb, hkb, hplace'⟩ := d.exists_line_positionOf hb
  rcases Nat.lt_trichotomy (d.positionOf a).line (d.positionOf b).line with hlt | heq | hgt
  · exact Or.inl hlt
  · rw [heq] at hplace
    exact Or.inr ⟨heq, by omega⟩
  · have hlater := length_linesBefore_lt hlb hgt
    omega

theorem line_positionOf_le (d : Document) {a b : Nat} (hab : a ≤ b) (hb : b ≤ d.text.length) :
    (d.positionOf a).line ≤ (d.positionOf b).line := by
  rcases Nat.eq_or_lt_of_le hab with rfl | hlt
  · exact Nat.le_refl _
  · rcases d.positionOf_lt hlt hb with h | h
    · exact Nat.le_of_lt h
    · exact Nat.le_of_eq h.1

/-- The order of positions is that of offsets. -/
theorem positionOf_le (d : Document) {i j : Nat} (h : i ≤ j) (hj : j ≤ d.text.length) :
    (d.positionOf i).le (d.positionOf j) = true := by
  rw [Position.le_iff]
  rcases Nat.eq_or_lt_of_le h with rfl | hlt
  · exact Or.inr ⟨rfl, Nat.le_refl _⟩
  · rcases d.positionOf_lt hlt hj with hline | ⟨hline, hcharacter⟩
    · exact Or.inl hline
    · exact Or.inr ⟨hline, Nat.le_of_lt hcharacter⟩

/-! ### Going forward -/

theorem advanceLines_within {l : Text} (ls : List Text) {k n : Nat} (h : k + n ≤ l.length)
    (line : Nat) : advanceLines line k n (l :: ls) = some ⟨line, k + n⟩ := by
  have hle : (n : Int) ≤ (l.length : Int) - k := by omega
  rw [advanceLines]
  by_cases hzero : n = 0
  · simp [hzero]
  · simp [hle]

/-- Going forward line by line is a walk, also from behind the end of the first line unless nothing
is left to go. -/
theorem advanceLines_eq_walk {l : Text} {ls : List Text} (hls : ∀ x ∈ l :: ls, '\n' ∉ x)
    {k n : Nat} (h : 0 < n ∨ k ≤ l.length) (line : Nat) :
    advanceLines line k n (l :: ls) = some (walk ⟨line, 0⟩ (joinLines (l :: ls)) (k + n)) := by
  induction ls generalizing l k n line with
  | nil =>
      have hl : '\n' ∉ l := hls l List.mem_cons_self
      have hwalk : ∀ {m}, m ≤ l.length → walk ⟨line, 0⟩ l m = ⟨line, m⟩ := fun hm => by
        simpa using walk_line hl ⟨line, 0⟩ [] hm
      rw [joinLines_singleton]
      by_cases hfirst : k + n ≤ l.length
      · rw [hwalk hfirst, advanceLines_within [] hfirst]
      · have hpos : ¬ (n : Int) ≤ 0 := by omega
        have hle : ¬ (n : Int) ≤ (l.length : Int) - k := by omega
        rw [walk_of_length_le _ (by omega), hwalk (Nat.le_refl _), advanceLines]
        simp only [hpos, hle, if_false, List.isEmpty_nil, if_true]
  | cons l' ls ih =>
      obtain ⟨hl, hls⟩ := List.forall_mem_cons.1 hls
      rw [joinLines_cons (by simp)]
      by_cases hfirst : k + n ≤ l.length
      · rw [walk_line hl _ _ hfirst, advanceLines_within _ hfirst, Nat.zero_add]
      · -- the newline behind the line counts as a character
        have hpos : ¬ (n : Int) ≤ 0 := by omega
        have hle : ¬ (n : Int) ≤ (l.length : Int) - k := by omega
        have hrest : (n : Int) - ((l.length : Int) - k + 1) =
            ((k + n - (l.length + 1) : Nat) : Int) := by omega
        have hsum : k + n = l.length + 1 + (k + n - (l.length + 1)) := by omega
        have hrec := ih hls (n := k + n - (l.length + 1)) (Or.inr (Nat.zero_le l'.length))
          (line + 1)
        rw [advanceLines]
        simp only [hpos, hle, if_false, List.isEmpty_cons, Bool.false_eq_true, hrest]
        rw [hrec, hsum, walk_past_line hl]
        simp

/-- Advancing from a place in a line is advancing in the text. -/
theorem advanceIn_of_line (d : Document) {i k n : Nat} {l : Text} (hl : d.lines[i]? = some l)
    (h : 0 < n ∨ k ≤ l.length) :
    advanceIn d.lines ⟨i, k⟩ n = d.positionOf ((linesBefore d.lines i).length + (k + n)) := by
  obtain ⟨hi, hget⟩ := List.getElem?_eq_some_iff.1 hl
  have hls : ∀ l ∈ d.lines, '\n' ∉ l := fun l hl => newline_not_mem_of_mem_lines hl
  have hjoin : joinLines d.lines = d.text := joinLines_lines d.text
  have hdrop : d.lines.drop i = l :: d.lines.drop (i + 1) := by
    rw [List.drop_eq_getElem_cons hi, hget]
  have hwalk := walk_linesBefore hls hi 0 (k + n)
  rw [Nat.zero_add, hdrop] at hwalk
  rw [advanceIn, hdrop, advanceLines_eq_walk (fun x hx => hls x ?_) h, Option.getD_some,
    positionOf, ← hjoin, hwalk]
  exact List.mem_of_mem_drop (hdrop ▸ hx)

/-- **Advancing from a position is advancing in the text.** -/
theorem advanceIn_positionOf (d : Document) {start n : Nat} (h : start ≤ d.text.length) :
    advanceIn d.lines (d.positionOf start) n = d.positionOf (start + n) := by
  obtain ⟨l, hl, hk, hplace⟩ := d.exists_line_positionOf h
  have hadvance := d.advanceIn_of_line (n := n) hl (Or.inr hk)
  rwa [← Nat.add_assoc, ← hplace] at hadvance

/-! ### Parts of the text -/

theorem walk_append (p : Position) {s : Text} (t : Text) {n : Nat} (h : n ≤ s.length) :
    walk p (s ++ t) n = walk p s n := by
  induction s generalizing p n with
  | nil =>
      obtain rfl : n = 0 := by simpa using h
      cases t <;> rfl
  | cons c s ih =>
      cases n with
      | zero => rfl
      | succ n =>
          have h : n ≤ s.length := by simpa using h
          rw [List.cons_append, walk, walk, ih _ h, ih _ h]

/-- Documents that start with the same text have the same positions in it. -/
theorem positionOf_congr {d d' : Document} {s : Text} (h : s <+: d.text) (h' : s <+: d'.text)
    {offset : Nat} (hoffset : offset ≤ s.length) : d.positionOf offset = d'.positionOf offset := by
  obtain ⟨t, ht⟩ := h
  obtain ⟨t', ht'⟩ := h'
  rw [positionOf, positionOf, ← ht, ← ht', walk_append _ _ hoffset, walk_append _ _ hoffset]

theorem walk_append_add (p : Position) (s t : Text) (n : Nat) :
    walk p (s ++ t) (s.length + n) = walk (walk p s s.length) t n := by
  induction s generalizing p with
  | nil => rw [List.nil_append, List.length_nil, Nat.zero_add, walk]
  | cons c s ih =>
      have hlen : (c :: s).length + n = s.length + n + 1 := by simp; omega
      rw [hlen, List.length_cons, List.cons_append, walk, walk]
      split
      · exact ih _
      · exact ih _

theorem positionOf_add (d : Document) {start : Nat} (h : start ≤ d.text.length) (n : Nat) :
    d.positionOf (start + n) = moveTo (d.positionOf start) (walk ⟨0, 0⟩ (d.text.drop start) n) := by
  have hlen : (d.text.take start).length = start := by
    rw [List.length_take]
    omega
  have hstart : d.positionOf start =
      walk ⟨0, 0⟩ (d.text.take start) (d.text.take start).length := by
    rw [positionOf]
    conv => lhs; rw [← List.take_append_drop start d.text]
    rw [walk_append _ _ (by omega), hlen]
  rw [hstart, ← walk_eq, ← walk_append_add, List.take_append_drop, hlen]
  rfl

/-- The position of a line of a part of the text, seen from where the part starts. -/
theorem positionOf_line (d : Document) {start k : Nat} {t piece : Text}
    (hstart : start ≤ d.text.length) (ht : t <+: d.text.drop start)
    (hpiece : (Text.lines t)[k]? = some piece) :
    d.positionOf (start + (linesBefore (Text.lines t) k).length) =
      moveTo (d.positionOf start) ⟨k, 0⟩ := by
  obtain ⟨rest, hrest⟩ := ht
  obtain ⟨tail, hjoin, -⟩ := exists_joinLines_eq hpiece
  rw [joinLines_lines] at hjoin
  have hle : (linesBefore (Text.lines t) k).length ≤ t.length := by
    conv => rhs; rw [hjoin]
    simp
  have hpart := positionOf_linesBefore ⟨"", t, 0⟩ hpiece (Nat.zero_le _)
  rw [Nat.add_zero] at hpart
  rw [d.positionOf_add hstart, ← hrest, walk_append _ _ hle]
  exact congrArg (moveTo (d.positionOf start)) hpart

end Document

end EmbeddedSql
