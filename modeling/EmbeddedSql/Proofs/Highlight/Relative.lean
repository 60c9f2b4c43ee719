/-
**Highlights in any order, and the ones of a range.**

Every number but the first ones is counted from the highlight that was written before, so leaving
one out changes the numbers behind it.  What the client reads back does not depend on that: it is
one cell per highlight, in document order, and with a range the cells that start in the range.

Main definitions:

* `Highlight.Sorted` — a list of highlights in document order, those at one place as they were;
* `Highlight.Cell.Shows` — a cell says what there is to say about a highlight.

Main results:

* `Buffer.toClientIn_le` — positions stay in order on their way to the client, clamped or not;
* `Highlight.sorted_mergeSort` — highlights are written in document order;
* `Highlight.encode_lossless` — **nothing is lost, and a range is a filter**.
-/

import EmbeddedSql.Proofs.Highlight.Cells
import Mathlib.Data.List.Forall2

set_option relaxedAutoImplicit false
set_option autoImplicit false

namespace EmbeddedSql

open Text

/-! ### Positions on their way to the client -/

theorem Position.origin_le (p : Position) : Position.le ⟨0, 0⟩ p = true := by
  rw [le_iff]
  dsimp only
  omega

/-- Positions stay in order.  Those beyond the last line all go to the same place. -/
theorem Buffer.toClientIn_le (ls : List Text) {p q : Position} (h : p.le q = true) :
    (toClientIn ls p).le (toClientIn ls q) = true := by
  rw [Position.le_iff] at h ⊢
  unfold toClientIn
  by_cases hq : q.line < ls.length
  · have hp : p.line < ls.length := by omega
    rw [List.getElem?_eq_getElem hp, List.getElem?_eq_getElem hq]
    rcases h with hline | ⟨hline, hcharacter⟩
    · exact Or.inl hline
    · simp only [hline, Nat.lt_irrefl, true_and, false_or]
      exact units_mono (List.take_prefix_take_left hcharacter)
  · rw [List.getElem?_eq_none (Nat.le_of_not_lt hq)]
    cases hp : ls[p.line]? with
    | none => exact Or.inr ⟨rfl, Nat.le_refl 0⟩
    | some line =>
        obtain ⟨hlt, -⟩ := List.getElem?_eq_some_iff.1 hp
        exact Or.inl hlt

namespace Highlight

/-! ### Document order -/

/-- Some highlights in document order: by line, by offset, and those at one place in the order they
had. -/
structure Sorted (hs sorted : List Highlight) : Prop where
  /-- They are the same highlights. -/
  perm : sorted.Perm hs
  ordered : sorted.Pairwise fun g h => g.line < h.line ∨ g.line = h.line ∧ g.offset ≤ h.offset
  stable : ∀ line offset, sorted.filter (fun h => h.line = line ∧ h.offset = offset) =
    hs.filter fun h => h.line = line ∧ h.offset = offset

theorem notAfter_iff {g h : Highlight} :
    notAfter g h = true ↔ g.line < h.line ∨ g.line = h.line ∧ g.offset ≤ h.offset := by
  simp [notAfter]

theorem notAfter_trans (f g h : Highlight) (hfg : notAfter f g = true)
    (hgh : notAfter g h = true) : notAfter f h = true := by
  rw [notAfter_iff] at hfg hgh ⊢
  omega

theorem notAfter_total (g h : Highlight) : (notAfter g h || notAfter h g) = true := by
  rw [Bool.or_eq_true, notAfter_iff, notAfter_iff]
  omega

/-- Highlights are written in document order. -/
theorem sorted_mergeSort (hs : List Highlight) : Sorted hs (hs.mergeSort notAfter) where
  perm := List.mergeSort_perm hs notAfter
  ordered := by
    have hpairwise := List.pairwise_mergeSort notAfter_trans notAfter_total hs
    exact hpairwise.imp fun h => notAfter_iff.1 h
  stable := by
    intro line offset
    generalize hplace : (fun h : Highlight => decide (h.line = line ∧ h.offset = offset)) = atPlace
    -- the highlights at one place are in order, so they come out as they went in
    have hsame : (hs.filter atPlace).Pairwise fun g h => notAfter g h = true := by
      subst hplace
      refine List.pairwise_of_forall_mem_list fun g hg h hh => ?_
      have hg : g.line = line ∧ g.offset = offset := by simpa using (List.mem_filter.1 hg).2
      have hh : h.line = line ∧ h.offset = offset := by simpa using (List.mem_filter.1 hh).2
      rw [notAfter_iff]
      omega
    have hkept := (List.sublist_mergeSort notAfter_trans notAfter_total hsame
      List.filter_sublist).filter atPlace
    simp only [List.filter_filter, Bool.and_self] at hkept
    have hlength := ((List.mergeSort_perm hs notAfter).filter atPlace).length_eq
    exact (hkept.eq_of_length hlength.symm).symm

/-! ### What is read back -/

/-- A cell says what there is to say about a highlight: where it starts and how long it is for the
client, which type of the legend it has, and which bits its modifiers set. -/
structure Cell.Shows (b : Buffer) (h : Highlight) (c : Cell) : Prop where
  start_eq : c.start = b.toClient ⟨h.line, h.offset⟩
  length_eq : c.length = Text.units h.text
  type_eq : Legend.types[c.type]? = some h.type
  testBit_eq : ∀ i, c.modifiers.testBit i = h.modifiers.any (·.testBit i)

theorem testBit_foldl_or (ms : List Nat) (m i : Nat) :
    (ms.foldl (· ||| ·) m).testBit i = (m.testBit i || ms.any (·.testBit i)) := by
  induction ms generalizing m with
  | nil => simp
  | cons n ms ih => rw [List.foldl_cons, ih, Nat.testBit_or, List.any_cons, Bool.or_assoc]

theorem getElem?_types {type : String} (h : type ∈ Legend.types) :
    Legend.types[(Legend.index? type).getD 0]? = some type := by
  have hall : ∀ type ∈ Legend.types,
      Legend.types[(Legend.index? type).getD 0]? = some type := by decide
  exact hall type h

theorem shows_shown (b : Buffer) {h : Highlight} (htype : h.type ∈ Legend.types) :
    Cell.Shows b h (shown b h) where
  start_eq := rfl
  length_eq := rfl
  type_eq := getElem?_types htype
  testBit_eq i := by
    rw [shown, testBit_foldl_or, Nat.zero_testBit, Bool.false_or]

/-- Highlights in document order are shown in order. -/
theorem Sorted.pairwise_shown {hs sorted : List Highlight} (h : Sorted hs sorted) (b : Buffer) :
    (sorted.map (shown b)).Pairwise fun c d => c.start.le d.start = true := by
  rw [List.pairwise_map]
  exact h.ordered.imp fun hle => Buffer.toClientIn_le b.lines (Position.le_iff.2 hle)

/-- The positions of a range are those from its start on that are before its end. -/
theorem startsIn_eq (r : Range) (p : Position) :
    startsIn r p = (r.start.le p && !r.stop.le p) := by
  have hstop : (p.compare r.stop == .lt) = !r.stop.le p := by
    rw [Bool.eq_iff_iff, beq_iff_eq, Bool.not_eq_true', ← Bool.not_eq_true, Position.le_iff,
      Position.compare, Ordering.then_eq_lt, Nat.compare_eq_lt, Nat.compare_eq_eq,
      Nat.compare_eq_lt]
    omega
  rw [startsIn, hstop]

section Encode

variable {b : Buffer} {hs : List Highlight} {range : Option Range}
  (htypes : ∀ h ∈ hs, h.type ∈ Legend.types)

include htypes

/-- Highlights have numbers when positions can hold their places, whatever the range. -/
theorem exists_encode_eq_ok_iff : (∃ data, encode b range hs = .ok data) ↔
    ∀ h ∈ hs, h.line ≤ Position.bound ∧ h.offset ≤ Position.bound := by
  have hcells := exists_cells_eq_ok_iff (b := b) htypes range
  rw [← hcells]
  unfold encode
  cases cells b.lines range hs <;> simp [Except.map]

/-- The numbers are those of the cells in document order, less the cells outside the range. -/
theorem eq_relative_of_encode {data : List Int} (h : encode b range hs = .ok data) :
    data = relative ⟨0, 0⟩ (((hs.mergeSort notAfter).map (shown b)).filter
      fun c => range.all (startsIn · c.start)) := by
  have hbound := (exists_encode_eq_ok_iff htypes).1 ⟨data, h⟩
  rw [encode, cells_eq_filter htypes hbound] at h
  exact (Except.ok.inj h).symm

theorem absolute_of_encode {data : List Int} (h : encode b range hs = .ok data) :
    absolute ⟨0, 0⟩ data = ((hs.mergeSort notAfter).map (shown b)).filter
      fun c => range.all (startsIn · c.start) := by
  rw [eq_relative_of_encode htypes h, absolute_relative]

theorem nonneg_of_mem_encode {data : List Int} (h : encode b range hs = .ok data) {n : Int}
    (hn : n ∈ data) : 0 ≤ n := by
  have horder := (sorted_mergeSort hs).pairwise_shown b
  rw [eq_relative_of_encode htypes h] at hn
  exact nonneg_of_mem_relative_of_le (fun c _ => c.start.origin_le) (horder.filter _) hn

theorem length_encode {data : List Int} (h : encode b range hs = .ok data) :
    data.length = 5 * (absolute ⟨0, 0⟩ data).length := by
  rw [absolute_of_encode htypes h, ← length_relative ⟨0, 0⟩, ← eq_relative_of_encode htypes h]

end Encode

/-- **Nothing is lost, and a range is a filter.**  Highlights of legend types, in any order, have
numbers exactly when positions can hold their places; a range makes no difference to that.  No
number is negative.  The client reads back one cell per highlight, in document order; with a range
it reads those of the same cells that start in the range, its end left out. -/
theorem encode_lossless (b : Buffer) {hs : List Highlight}
    (htypes : ∀ h ∈ hs, h.type ∈ Legend.types) :
    (∀ range, (∃ data, encode b range hs = .ok data) ↔
      ∀ h ∈ hs, h.line ≤ Position.bound ∧ h.offset ≤ Position.bound) ∧
    (∀ range data, encode b range hs = .ok data →
      (∀ n ∈ data, 0 ≤ n) ∧ data.length = 5 * (absolute ⟨0, 0⟩ data).length) ∧
    ∀ full, encode b none hs = .ok full →
      (∃ sorted, Sorted hs sorted ∧
        List.Forall₂ (Cell.Shows b) sorted (absolute ⟨0, 0⟩ full)) ∧
      ∀ r part, encode b (some r) hs = .ok part →
        absolute ⟨0, 0⟩ part =
          (absolute ⟨0, 0⟩ full).filter fun c => r.start.le c.start && !r.stop.le c.start := by
  refine ⟨fun range => exists_encode_eq_ok_iff htypes, ?_, ?_⟩
  · intro range data h
    exact ⟨fun n hn => nonneg_of_mem_encode htypes h hn, length_encode htypes h⟩
  · intro full hfull
    have hcells : absolute ⟨0, 0⟩ full = (hs.mergeSort notAfter).map (shown b) := by
      rw [absolute_of_encode htypes hfull]
      simp
    have hsorted := sorted_mergeSort hs
    refine ⟨⟨hs.mergeSort notAfter, hsorted, ?_⟩, ?_⟩
    · rw [hcells, List.forall₂_map_right_iff, List.forall₂_same]
      intro h hh
      exact shows_shown b (htypes h (hsorted.perm.mem_iff.1 hh))
    · intro r part hpart
      rw [hcells, absolute_of_encode htypes hpart]
      refine List.filter_congr fun c _ => ?_
      rw [Option.all_some, startsIn_eq]

/-- Highlights behind the last line, out of order, and one behind a character of two units. -/
theorem encode_lossless_unordered :
    let b : Buffer := ⟨"file:///a.R", "ab\x0b😀cd\r".toList, none, none⟩
    let hs : List Highlight :=
      [⟨7, 0, ['e'], "keyword", []⟩, ⟨1, 1, "cd".toList, "variable", []⟩,
        ⟨5, 3, ['😀'], "string", []⟩, ⟨0, 0, "ab".toList, "function", [1, 4]⟩]
    let r : Range := ⟨⟨1, 0⟩, ⟨2, 0⟩⟩
    let full := [0, 0, 2, 1, 5, 1, 2, 2, 6, 0, 1, 0, 2, 2, 0, 0, 0, 1, 0, 0]
    let part := [1, 2, 2, 6, 0]
    (∀ h ∈ hs, h.type ∈ Legend.types) ∧ encode b none hs = .ok full ∧
      encode b (some r) hs = .ok part ∧
      (∃ sorted, Sorted hs sorted ∧
        List.Forall₂ (Cell.Shows b) sorted (absolute ⟨0, 0⟩ full)) ∧
      absolute ⟨0, 0⟩ part =
        (absolute ⟨0, 0⟩ full).filter fun c => r.start.le c.start && !r.stop.le c.start := by
  intro b hs r full part
  have htypes : ∀ h ∈ hs, h.type ∈ Legend.types := by decide
  have hsort : hs.mergeSort notAfter =
      [⟨0, 0, "ab".toList, "function", [1, 4]⟩, ⟨1, 1, "cd".toList, "variable", []⟩,
        ⟨5, 3, ['😀'], "string", []⟩, ⟨7, 0, ['e'], "keyword", []⟩] := by
    simp [hs, List.mergeSort, notAfter]
  have hfull : encode b none hs = .ok full := by
    rw [encode, cells_eq_bind, hsort]
    rfl
  have hpart : encode b (some r) hs = .ok part := by
    rw [encode, cells_eq_bind, hsort]
    rfl
  obtain ⟨-, -, hread⟩ := encode_lossless b htypes
  obtain ⟨hsorted, hfilter⟩ := hread full hfull
  exact ⟨htypes, hfull, hpart, hsorted, hfilter r part hpart⟩

end Highlight

end EmbeddedSql
