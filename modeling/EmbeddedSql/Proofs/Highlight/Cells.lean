/-
**What the client makes of highlights.**

The client gets numbers, and adds them up to cells: a line, a column and a length in its own units,
a type and modifiers.  What it finds there is what the highlights were made for.

Main definitions:

* `Highlight.absolute` — the cells that a client reads from numbers;
* `Highlight.Cell.Before` — one cell ends before another one starts;
* `Highlight.Cell.Colours` — a cell covers a line of a token of a region.

Main results:

* `Highlight.absolute_relative` — **the client reads the cells that were written**;
* `Highlight.shown_before` — highlights in order are shown in order;
* `Highlight.Of.colours` — a highlight of a line of a token is shown where that line is;
* `Highlight.semantic_tokens_point_at_text` — **semantic tokens point at the text they colour**.
-/

import EmbeddedSql.Proofs.Buffer.Lines
import EmbeddedSql.Proofs.Highlight.Place

set_option relaxedAutoImplicit false
set_option autoImplicit false

namespace EmbeddedSql

open Text

namespace Highlight

/-! ### Numbers -/

/-- The cells that a client reads from numbers, the distances counted from the given position. -/
def absolute (previous : Position) : List Int → List Cell
  | lines :: columns :: length :: type :: modifiers :: rest =>
    let line := (previous.line + lines).toNat
    let column := ((if lines = 0 then (previous.character : Int) else 0) + columns).toNat
    ⟨⟨line, column⟩, length.toNat, type.toNat, modifiers.toNat⟩ :: absolute ⟨line, column⟩ rest
  | _ => []

/-- **The client reads the cells that were written.** -/
theorem absolute_relative (previous : Position) (cs : List Cell) :
    absolute previous (relative previous cs) = cs := by
  induction cs generalizing previous with
  | nil => rfl
  | cons c cs ih =>
      obtain ⟨⟨line, column⟩, length, type, modifiers⟩ := c
      by_cases hsame : (line : Int) - previous.line = 0
      · obtain rfl : line = previous.line := by omega
        have hcolumn : ((previous.character : Int) +
            ((column : Int) - previous.character)).toNat = column := by omega
        simp only [relative, absolute, hsame, if_true, Int.add_zero, hcolumn, Int.toNat_natCast,
          ih]
      · have hline : ((previous.line : Int) + ((line : Int) - previous.line)).toNat = line := by
          omega
        simp only [relative, absolute, hline, hsame, if_false, Int.zero_add, Int.toNat_natCast,
          ih]

theorem length_relative (previous : Position) (cs : List Cell) :
    (relative previous cs).length = 5 * cs.length := by
  induction cs generalizing previous with
  | nil => rfl
  | cons c cs ih =>
      simp only [relative, List.length_cons, ih]
      omega

/-- One cell ends before another one starts. -/
def Cell.Before (a b : Cell) : Prop :=
  a.start.line < b.start.line ∨
    a.start.line = b.start.line ∧ a.start.character + a.length ≤ b.start.character

/-- Cells in order are written without negative numbers. -/
theorem nonneg_of_mem_relative_of_le {previous : Position} {cs : List Cell}
    (hfirst : ∀ c ∈ cs, previous.le c.start = true)
    (horder : cs.Pairwise fun a b => a.start.le b.start = true) {n : Int}
    (hn : n ∈ relative previous cs) : 0 ≤ n := by
  induction cs generalizing previous with
  | nil => simp [relative] at hn
  | cons c cs ih =>
      obtain ⟨hnext, horder⟩ := List.pairwise_cons.1 horder
      have hc := Position.le_iff.1 (hfirst c List.mem_cons_self)
      simp only [relative, List.mem_cons] at hn
      rcases hn with rfl | rfl | rfl | rfl | rfl | hn
      · omega
      · split <;> omega
      · omega
      · omega
      · omega
      · exact ih hnext horder hn

theorem nonneg_of_mem_relative {previous : Position} {cs : List Cell}
    (hfirst : ∀ c ∈ cs, previous.line < c.start.line ∨
      previous.line = c.start.line ∧ previous.character ≤ c.start.character)
    (horder : cs.Pairwise Cell.Before) {n : Int} (hn : n ∈ relative previous cs) : 0 ≤ n := by
  refine nonneg_of_mem_relative_of_le (fun c hc => Position.le_iff.2 (hfirst c hc)) ?_ hn
  refine horder.imp fun hbefore => Position.le_iff.2 ?_
  exact hbefore.imp_right fun hsame => ⟨hsame.1, by omega⟩

/-! ### Cells of highlights -/

/-- The cell that the client gets for a highlight. -/
def shown (b : Buffer) (h : Highlight) : Cell :=
  ⟨b.toClient ⟨h.line, h.offset⟩, Text.units h.text, (Legend.index? h.type).getD 0,
    h.modifiers.foldl (· ||| ·) 0⟩

theorem index?_lt {type : String} (h : type ∈ Legend.types) :
    ∃ i, Legend.index? type = some i ∧ i < Legend.types.length := by
  have hall : ∀ type ∈ Legend.types,
      (Legend.index? type).any (fun i => decide (i < Legend.types.length)) = true := by decide
  obtain ⟨i, hi, hlt⟩ := (Option.any_eq_true _ _).1 (hall type h)
  exact ⟨i, hi, of_decide_eq_true hlt⟩

/-- Where a highlight starts for the client, if any position can hold its place. -/
theorem eq_of_start_eq_ok {b : Buffer} {h : Highlight} {p : Position}
    (hp : start b.lines h = .ok p) : p = b.toClient ⟨h.line, h.offset⟩ := by
  unfold start Position.ofInts at hp
  split at hp
  · simp [Except.mapError, Except.map] at hp
  · split at hp
    · simp [Except.mapError, Except.map] at hp
    · exact (Except.ok.inj hp).symm

theorem start_eq_ok {b : Buffer} {h : Highlight} (hline : h.line ≤ Position.bound)
    (hoffset : h.offset ≤ Position.bound) :
    start b.lines h = .ok (b.toClient ⟨h.line, h.offset⟩) := by
  have hadmits : ∀ n : Nat, n ≤ Position.bound → Position.admits n = true := by
    intro n hn
    simp [Position.admits, hn]
  simp only [start, Position.ofInts, hadmits _ hline, hadmits _ hoffset]
  rfl

/-- A place that has a start is one that a position can hold. -/
theorem le_bound_of_start_eq_ok {ls : List Text} {h : Highlight} {p : Position}
    (hp : start ls h = .ok p) : h.line ≤ Position.bound ∧ h.offset ≤ Position.bound := by
  have hadmits : ∀ n : Nat, Position.admits n = true → n ≤ Position.bound := by
    intro n hn
    simpa [Position.admits] using hn
  unfold start Position.ofInts at hp
  split at hp
  · simp [Except.mapError, Except.map] at hp
  · next hline =>
      split at hp
      · simp [Except.mapError, Except.map] at hp
      · next hoffset => exact ⟨hadmits _ (by simpa using hline), hadmits _ (by simpa using hoffset)⟩

/-- The cell of a highlight is there if it starts in the range. -/
theorem cellIn_eq {b : Buffer} {h : Highlight} (htype : h.type ∈ Legend.types)
    (range : Option Range) :
    cellIn b.lines range h = (start b.lines h).map fun _ =>
      Option.guard (fun c => range.all (startsIn · c.start)) (shown b h) := by
  obtain ⟨i, hi, -⟩ := index?_lt htype
  unfold cellIn
  cases hp : start b.lines h with
  | error e => rfl
  | ok p =>
      obtain rfl := eq_of_start_eq_ok hp
      by_cases hin : range.all (startsIn · (b.toClient ⟨h.line, h.offset⟩)) = true
      · simp [cell, hi, shown, hin, Option.guard, bind, Except.bind, Except.map, pure, Except.pure]
      · simp [hin, shown, Option.guard, bind, Except.bind, Except.map, pure, Except.pure]

theorem cells_eq_bind (ls : List Text) (range : Option Range) (hs : List Highlight) :
    cells ls range hs = ((hs.mergeSort notAfter).mapM (cellIn ls range)).map (·.filterMap id) := by
  unfold cells
  cases (hs.mergeSort notAfter).mapM (cellIn ls range) <;> rfl

theorem notAfter_of_before {g h : Highlight} (hbefore : Before g h) : notAfter g h = true := by
  rcases hbefore with hline | ⟨hline, hoffset⟩
  · simp [notAfter, hline]
  · have hle : g.offset ≤ h.offset := by omega
    simp [notAfter, hline, hle]

theorem forall_eq_ok_of_mapM {α β ε : Type} {f : α → Except ε β} {as : List α} {ys : List β}
    (h : as.mapM f = .ok ys) : ∀ a ∈ as, ∃ y, f a = .ok y := by
  induction as generalizing ys with
  | nil => simp
  | cons a as ih =>
      rw [List.mapM_cons] at h
      cases hy : f a with
      | error e => simp [hy, bind, Except.bind] at h
      | ok y =>
          cases hrest : as.mapM f with
          | error e => simp [hy, hrest, bind, Except.bind] at h
          | ok rest => exact List.forall_mem_cons.2 ⟨⟨y, hy⟩, ih hrest⟩

theorem mapM_eq_map {α β ε : Type} {f : α → Except ε β} {g : α → β} {as : List α}
    (hf : ∀ a ∈ as, f a = .ok (g a)) : as.mapM f = .ok (as.map g) := by
  induction as with
  | nil => rfl
  | cons a as ih =>
      obtain ⟨ha, has⟩ := List.forall_mem_cons.1 hf
      rw [List.mapM_cons, ha, ih has]
      rfl

section Cells

variable {b : Buffer} {hs : List Highlight}

/-- The cells of highlights are their cells in document order, less those outside the range. -/
theorem cells_eq_filter (htypes : ∀ h ∈ hs, h.type ∈ Legend.types)
    (hbound : ∀ h ∈ hs, h.line ≤ Position.bound ∧ h.offset ≤ Position.bound)
    (range : Option Range) :
    cells b.lines range hs = .ok (((hs.mergeSort notAfter).map (shown b)).filter
      fun c => range.all (startsIn · c.start)) := by
  have hmap : (hs.mergeSort notAfter).mapM (cellIn b.lines range) =
      .ok ((hs.mergeSort notAfter).map fun h =>
        Option.guard (fun c => range.all (startsIn · c.start)) (shown b h)) := by
    refine mapM_eq_map fun h hh => ?_
    have hmem := List.mem_mergeSort.1 hh
    obtain ⟨hline, hoffset⟩ := hbound h hmem
    rw [cellIn_eq (htypes h hmem), start_eq_ok hline hoffset]
    rfl
  rw [cells_eq_bind, hmap, Except.map, List.filterMap_map, ← List.filterMap_eq_filter,
    List.filterMap_map]
  rfl

/-- Highlights have cells when positions can hold their places, whatever the range. -/
theorem exists_cells_eq_ok_iff (htypes : ∀ h ∈ hs, h.type ∈ Legend.types)
    (range : Option Range) :
    (∃ cs, cells b.lines range hs = .ok cs) ↔
      ∀ h ∈ hs, h.line ≤ Position.bound ∧ h.offset ≤ Position.bound := by
  constructor
  · rintro ⟨cs, hcs⟩ h hh
    rw [cells_eq_bind] at hcs
    cases hmap : (hs.mergeSort notAfter).mapM (cellIn b.lines range) with
    | error e => simp [hmap, Except.map] at hcs
    | ok ys =>
        obtain ⟨y, hy⟩ := forall_eq_ok_of_mapM hmap h (List.mem_mergeSort.2 hh)
        rw [cellIn_eq (htypes h hh)] at hy
        cases hp : start b.lines h with
        | error e => simp [hp, Except.map] at hy
        | ok p => exact le_bound_of_start_eq_ok hp
  · intro hbound
    exact ⟨_, cells_eq_filter htypes hbound range⟩

variable (horder : hs.Pairwise Before) (htypes : ∀ h ∈ hs, h.type ∈ Legend.types)

include horder htypes

theorem cells_eq_ok (hbound : ∀ h ∈ hs, h.line ≤ Position.bound ∧ h.offset ≤ Position.bound) :
    cells b.lines none hs = .ok (hs.map (shown b)) := by
  have hsort := List.mergeSort_of_pairwise (horder.imp notAfter_of_before)
  rw [cells_eq_filter htypes hbound, hsort]
  simp

/-- The cells of highlights in order, one by one. -/
theorem eq_of_cells_eq_ok {cs : List Cell} (h : cells b.lines none hs = .ok cs) :
    cs = hs.map (shown b) := by
  have hbound := (exists_cells_eq_ok_iff htypes none).1 ⟨cs, h⟩
  rw [cells_eq_ok horder htypes hbound] at h
  exact (Except.ok.inj h).symm

end Cells

/-! ### Places of the client -/

theorem units_pos {t : Text} (h : t ≠ []) : 0 < Text.units t :=
  Nat.lt_of_lt_of_le (List.length_pos_iff.2 h) (Text.length_le_units t)

/-- A highlight is shown where it stands, in a line of the client. -/
theorem At.exists_client {b : Buffer} (hplain : Buffer.plainBreaks b.source = true)
    {h : Highlight} {offset : Nat} (hat : At b.document h offset) :
    ∃ u v, b.lines[h.line]? = some (u ++ h.text ++ v) ∧ u.length = h.offset ∧
      b.toClient ⟨h.line, h.offset⟩ = ⟨h.line, Text.units u⟩ := by
  obtain ⟨l, ending, hline, hk, hplace⟩ := b.exists_lineAt hplain hat.lt_length
  rw [hat.position_eq] at hline hk hplace
  obtain ⟨v, hv⟩ := hat.of_line hline.core hplace hk
  refine ⟨l.take h.offset, v ++ ending, ?_, List.length_take_of_le hk, hline.toClient_eq hk⟩
  rw [hline.client, List.append_assoc, ← List.append_assoc h.text, hv, ← List.append_assoc,
    List.take_append_drop]

/-- Highlights in order are shown in order. -/
theorem shown_before {b : Buffer} (hplain : Buffer.plainBreaks b.source = true)
    {g h : Highlight} {i j : Nat} (hg : At b.document g i) (hh : At b.document h j)
    (hbefore : Before g h) : Cell.Before (shown b g) (shown b h) := by
  obtain ⟨u, v, hu, hulen, hustart⟩ := hg.exists_client hplain
  obtain ⟨u', v', hu', hulen', hustart'⟩ := hh.exists_client hplain
  unfold Cell.Before shown
  rw [hustart, hustart']
  rcases hbefore with hline | ⟨hline, hoffset⟩
  · exact Or.inl hline
  · -- what stands before the second highlight starts with the first one and what is before it
    refine Or.inr ⟨hline, ?_⟩
    rw [hline, hu'] at hu
    have hsame := Option.some.inj hu
    rw [List.append_assoc u'] at hsame
    have hprefix : u ++ g.text <+: u' := by
      refine List.prefix_of_prefix_length_le (List.prefix_append _ v) ⟨_, hsame⟩ ?_
      rw [List.length_append]
      omega
    obtain ⟨w, hw⟩ := hprefix
    rw [← hw, Text.units_append, Text.units_append]
    exact Nat.le_add_right _ _

/-- A cell covers what is written on a line of the raw text of a token of a region: where it is, the
client finds that line, and it lies in the range of the region. -/
def Cell.Colours (b : Buffer) (r : Region) (t : Token) (k : Nat) (c : Cell) : Prop :=
  let pieces := Text.lines (Escape.extent r.raw t.offset t.stop)
  ∃ u piece v, pieces[k]? = some piece ∧
    b.lines[c.start.line]? = some (u ++ piece ++ v) ∧
    Text.units u = c.start.character ∧ Text.units piece = c.length ∧
    b.document.positionOf (b.document.offsetOf r.range.start + Escape.offsetAt r.raw t.offset +
      (linesBefore pieces k).length) = ⟨c.start.line, u.length⟩ ∧
    r.range.contains ⟨c.start.line, u.length⟩ = true ∧
    r.range.contains ⟨c.start.line, u.length + piece.length⟩ = true

theorem Of.colours {b : Buffer} (hplain : Buffer.plainBreaks b.source = true) {l : Literal}
    {r : Region} (hr : Region.Covered b.document l r) {t : Token} {k : Nat} {h : Highlight}
    (hof : Of b.document r t k h) : Cell.Colours b r t k (shown b h) := by
  obtain ⟨u, v, hu, hulen, hustart⟩ := hof.at_offset.exists_client hplain
  have hline : (shown b h).start = ⟨h.line, Text.units u⟩ := hustart
  have hposition := hof.at_offset.position_eq
  have hend := hof.at_offset.positionOf_end
  have hwithin := hof.within
  have hstop := hr.offsetAt_le_stop t.stop
  refine ⟨u, h.text, v, hof.piece_eq, ?_, ?_, rfl, ?_, ?_, ?_⟩
  · rw [hline]
    exact hu
  · rw [hline]
  · rw [hline, hulen]
    exact hposition
  · rw [hline, hulen, ← hposition]
    exact hr.contains_positionOf (by omega) (by omega)
  · rw [hline, hulen, ← hend]
    exact hr.contains_positionOf (by omega) (by omega)

/-! ### Semantic tokens -/

theorem exists_of_mem_ofDocument {d : Detection} {doc : Document} {h : Highlight}
    (hh : h ∈ ofDocument d doc) :
    h.type ∈ Legend.types ∧ ∃ r ∈ Region.all d doc, ∃ l, Region.Covered doc l r ∧
      ∃ t ∈ Token.lex Vocabulary.keywords (Escape.decode r.raw), ∃ k, Of doc r t k h := by
  obtain ⟨r, hr, hh⟩ := List.mem_flatMap.1 hh
  obtain ⟨l, hl⟩ := Region.exists_covered_of_mem_all hr
  obtain ⟨htype, t, ht, k, hof⟩ := exists_of_mem_ofFilled hl hh
  exact ⟨htype, r, hr, l, hl, t, ht, k, hof⟩

/-- No place in a text is further away than the text is long. -/
theorem At.le_bound {doc : Document} {h : Highlight} {offset bound : Nat}
    (hat : At doc h offset) (hlength : doc.text.length ≤ bound) :
    h.line ≤ bound ∧ h.offset ≤ bound := by
  obtain ⟨l, -, -, -, hplace⟩ := hat.exists_line
  have hlt := hat.lt_length
  have hline := doc.line_positionOf_lt offset
  have hcount := List.count_le_length (a := '\n') (l := doc.text)
  rw [hat.position_eq, Document.lineCount, Document.lines, Document.length_lines] at hline
  exact ⟨by dsimp only at hline; omega, by omega⟩

theorem decode_extent_of_mem_lex {raw : Text} {t : Token}
    (ht : t ∈ Token.lex Vocabulary.keywords (Escape.decode raw)) :
    Escape.decode (Escape.extent raw t.offset t.stop) = t.text := by
  have hslice := ((Token.lexed_lex Vocabulary.keywords (Escape.decode raw)).slice_eq ht).2.2.2
  have hle : t.offset ≤ t.stop := Nat.le_add_right _ _
  rw [Escape.decode_extent raw hle]
  exact hslice

theorem request_eq (d : Detection) (lifetime : Binary) (now : Real) (b : Buffer) :
    (HighlightStore.request {} ⟨d, { lifetime := lifetime }⟩ now b none).1 =
      HighlightStore.answerTo d b none := by
  have hregions : RegionStore.Faithful ⟨d, { lifetime := lifetime }⟩ (fun _ => [d])
      fun _ => some b.document := RegionStore.faithful_of_empty rfl
  have hstore : HighlightStore.Faithful {} d fun _ => some b.document :=
    HighlightStore.faithful_empty d _
  obtain ⟨regions, s, -, -, -, heq⟩ :=
    HighlightStore.exists_request_eq hregions hstore rfl rfl (fun _ => rfl) now none
  rw [heq]

/-- What the client gets are the numbers of the highlights, shown one by one. -/
theorem eq_of_answerTo {d : Detection} {b : Buffer} {data : List Int}
    (h : HighlightStore.answerTo d b none = some data) :
    data = relative ⟨0, 0⟩ ((ofDocument d b.document).map (shown b)) := by
  unfold HighlightStore.answerTo encode at h
  split at h
  · cases hcells : cells b.lines none (ofDocument d b.document) with
    | error e => simp [hcells, Except.map, Except.toOption] at h
    | ok cs =>
        obtain rfl := eq_of_cells_eq_ok (pairwise_ofDocument d b.document)
          (fun h hh => (exists_of_mem_ofDocument hh).1) hcells
        rw [hcells] at h
        exact (Option.some.inj h).symm
  · simp at h

theorem isSome_answerTo {d : Detection} {b : Buffer} (hR : b.isR = true)
    (hname : b.uri.isEmpty = false) (hlength : b.document.text.length ≤ Position.bound) :
    (HighlightStore.answerTo d b none).isSome = true := by
  have hcells : cells b.lines none (ofDocument d b.document) =
      .ok ((ofDocument d b.document).map (shown b)) := by
    refine cells_eq_ok (pairwise_ofDocument d b.document) ?_ ?_
    · intro h hh
      exact (exists_of_mem_ofDocument hh).1
    · intro h hh
      obtain ⟨-, r, -, l, -, t, -, k, hof⟩ := exists_of_mem_ofDocument hh
      exact hof.at_offset.le_bound hlength
  rw [HighlightStore.answerTo, hR, hname, encode, hcells]
  rfl

/-- **Semantic tokens point at the text they colour.**  Read back by the client, the numbers for a
whole document are cells in order that do not overlap.  Each of them covers, in the line of the
client where it says, one line of the raw text of one token of one region, and its type is in the
legend.  Every such line is covered, unless it is empty or the token touches an interpolation; and
there are numbers for every document of the language that has a name and that positions can reach
into. -/
theorem semantic_tokens_point_at_text (d : Detection) (lifetime : Binary) {b : Buffer}
    (hplain : Buffer.plainBreaks b.source = true) (now : Real) :
    let answer := (HighlightStore.request {} ⟨d, { lifetime := lifetime }⟩ now b none).1
    (b.isR = true → b.uri.isEmpty = false → b.document.text.length ≤ Position.bound →
      answer.isSome = true) ∧
    ∀ data, answer = some data →
      let cells := absolute ⟨0, 0⟩ data
      data.length = 5 * cells.length ∧ (∀ n ∈ data, 0 ≤ n) ∧ cells.Pairwise Cell.Before ∧
      (∀ c ∈ cells, 0 < c.length ∧ c.type < Legend.types.length ∧
        ∃ r ∈ Region.all d b.document,
          ∃ t ∈ Token.lex Vocabulary.keywords (Escape.decode r.raw),
            Escape.decode (Escape.extent r.raw t.offset t.stop) = t.text ∧
              ∃ k, c.Colours b r t k) ∧
      ∀ r ∈ Region.all d b.document,
        ∀ t ∈ Token.lex Vocabulary.keywords (Escape.decode r.raw), touches (skippedIn r) t = false →
          ∀ k piece, (Text.lines (Escape.extent r.raw t.offset t.stop))[k]? = some piece →
            piece ≠ [] → ∃ c ∈ cells, c.Colours b r t k := by
  intro answer
  have hanswer : answer = HighlightStore.answerTo d b none := request_eq d lifetime now b
  rw [hanswer]
  refine ⟨isSome_answerTo, ?_⟩
  intro data hdata cells
  have hdata := eq_of_answerTo hdata
  have hcells : cells = (ofDocument d b.document).map (shown b) := by
    rw [← absolute_relative ⟨0, 0⟩ (List.map _ _), ← hdata]
  have horder : cells.Pairwise Cell.Before := by
    rw [hcells, List.pairwise_map]
    refine (pairwise_ofDocument d b.document).imp_of_mem ?_
    intro g h hg hh hbefore
    obtain ⟨-, r, -, l, -, t, -, k, hk⟩ := exists_of_mem_ofDocument hg
    obtain ⟨-, r', -, l', -, t', -, k', hk'⟩ := exists_of_mem_ofDocument hh
    exact shown_before hplain hk.at_offset hk'.at_offset hbefore
  rw [← hcells] at hdata
  refine ⟨?_, ?_, horder, ?_, ?_⟩
  · rw [hdata, length_relative]
  · intro n hn
    rw [hdata] at hn
    refine nonneg_of_mem_relative (fun c _ => ?_) horder hn
    rcases Nat.eq_zero_or_pos c.start.line with hzero | hpos
    · exact Or.inr ⟨hzero.symm, Nat.zero_le _⟩
    · exact Or.inl hpos
  · intro c hc
    rw [hcells] at hc
    obtain ⟨h, hh, rfl⟩ := List.mem_map.1 hc
    obtain ⟨htype, r, hr, l, hl, t, ht, k, hof⟩ := exists_of_mem_ofDocument hh
    refine ⟨units_pos hof.at_offset.filled, ?_, r, hr, t, ht, decode_extent_of_mem_lex ht, k,
      hof.colours hplain hl⟩
    obtain ⟨i, hi, hlt⟩ := index?_lt htype
    simpa [shown, hi] using hlt
  · intro r hr t ht htouches k piece hpiece hne
    obtain ⟨l, hl⟩ := Region.exists_covered_of_mem_all hr
    obtain ⟨h, hh, hof⟩ := exists_mem_ofFilled hl ht htouches hpiece hne
    refine ⟨shown b h, ?_, hof.colours hplain hl⟩
    rw [hcells]
    exact List.mem_map_of_mem (List.mem_flatMap.2 ⟨r, hr, hh⟩)

/-- Escaped quotes around a line break, behind a character of two units. -/
theorem semantic_tokens_point_at_text_escaped :
    let b : Buffer :=
      ⟨"file:///a.R", "'😀'; dbGetQuery(con, \"select \\\"a\r\n b\\\", 1\")".toList, some 1, none⟩
    let d : Detection := {}
    let now := Real.finite (.zero false)
    let data : List Int := [0, 23, 6, 0, 0, 0, 7, 3, 2, 0, 1, 0, 4, 2, 0, 0, 6, 1, 3, 0]
    Buffer.plainBreaks b.source = true ∧
      (HighlightStore.request {} ⟨d, { lifetime := ⟨false, 5, 0⟩ }⟩ now b none).1 = some data ∧
      (absolute ⟨0, 0⟩ data).Pairwise Cell.Before ∧
      ∀ c ∈ absolute ⟨0, 0⟩ data, ∃ r ∈ Region.all d b.document,
        ∃ t ∈ Token.lex Vocabulary.keywords (Escape.decode r.raw), ∃ k, c.Colours b r t k := by
  intro b d now data
  have hplain : Buffer.plainBreaks b.source = true := by decide +kernel
  obtain ⟨hsome, hall⟩ := semantic_tokens_point_at_text d ⟨false, 5, 0⟩ hplain now
  obtain ⟨found, hfound⟩ := Option.isSome_iff_exists.1
    (hsome (by decide +kernel) (by decide +kernel) (by decide +kernel))
  have hnumbers : relative ⟨0, 0⟩ ((ofDocument d b.document).map (shown b)) = data := by
    decide +kernel
  obtain rfl : found = data :=
    (eq_of_answerTo ((request_eq d ⟨false, 5, 0⟩ now b).symm.trans hfound)).trans hnumbers
  obtain ⟨-, -, horder, hcells, -⟩ := hall data hfound
  refine ⟨hplain, hfound, horder, ?_⟩
  intro c hc
  obtain ⟨-, -, r, hr, t, ht, -, k, hk⟩ := hcells c hc
  exact ⟨r, hr, t, ht, k, hk⟩

end Highlight

end EmbeddedSql
