/-
**Where highlights stand in the text.**

A highlight is found by way of the decoded text of its region, the table of raw offsets, a walk from
the start of the region and a cut at newlines.  All of this comes down to one offset of the
document: the highlight covers the text there, on one line, and highlights follow each other like
the stretches of text that they cover.

Main definitions:

* `Highlight.At` — a highlight covers the text at an offset;
* `Highlight.Before` — one highlight ends before another one starts;
* `Highlight.Of` — the highlight of a line of a token of a region.

Main results:

* `Highlight.At.before` — highlights are ordered like the stretches of text that they cover;
* `Highlight.exists_of_mem_ofFilled`, `Highlight.exists_mem_ofFilled` — **the highlights of a
  region** are the lines of its tokens;
* `Highlight.pairwise_ofDocument` — **highlights are in order** and do not overlap.
-/

import EmbeddedSql.Proofs.Highlight.Store
import EmbeddedSql.Proofs.Region.Content
import EmbeddedSql.Proofs.Token.Lexed

set_option relaxedAutoImplicit false
set_option autoImplicit false

namespace EmbeddedSql

open Text

/-! ### Highlights at an offset -/

namespace Highlight

/-- A highlight covers the text at an offset. -/
structure At (doc : Document) (h : Highlight) (offset : Nat) : Prop where
  position_eq : doc.positionOf offset = ⟨h.line, h.offset⟩
  text_at : h.text <+: doc.text.drop offset
  filled : h.text ≠ []
  oneLine : '\n' ∉ h.text

/-- One highlight ends before another one starts. -/
def Before (g h : Highlight) : Prop :=
  g.line < h.line ∨ g.line = h.line ∧ g.offset + g.text.length ≤ h.offset

namespace At

variable {doc : Document} {h : Highlight} {offset : Nat}

theorem le_length (hat : At doc h offset) : offset + h.text.length ≤ doc.text.length := by
  have hle := hat.text_at.length_le
  have hpos := List.length_pos_iff.2 hat.filled
  rw [List.length_drop] at hle
  omega

theorem lt_length (hat : At doc h offset) : offset < doc.text.length := by
  have hle := hat.le_length
  have hpos := List.length_pos_iff.2 hat.filled
  omega

/-- A highlight lies on its line. -/
theorem of_line (hat : At doc h offset) {l : Text} (hl : doc.lines[h.line]? = some l)
    (hoffset : offset = (linesBefore doc.lines h.line).length + h.offset)
    (hle : h.offset ≤ l.length) : h.text <+: l.drop h.offset := by
  obtain ⟨tail, hjoin, htail⟩ := exists_joinLines_eq hl
  have hlines : joinLines doc.lines = doc.text := joinLines_lines doc.text
  have hprefix := hat.text_at
  rw [← hlines, hjoin, hoffset, List.drop_append, List.drop_of_length_le (by omega),
    Nat.add_sub_cancel_left, List.nil_append, List.drop_append_of_le_length hle] at hprefix
  exact prefix_of_newline_not_mem hat.oneLine htail hprefix

theorem exists_line (hat : At doc h offset) :
    ∃ l, doc.lines[h.line]? = some l ∧ h.offset + h.text.length ≤ l.length ∧
      h.text <+: l.drop h.offset ∧
      offset = (linesBefore doc.lines h.line).length + h.offset := by
  obtain ⟨l, hl, hk, hplace⟩ := doc.exists_line_positionOf (Nat.le_of_lt hat.lt_length)
  rw [hat.position_eq] at hl hk hplace
  have hprefix := hat.of_line hl hplace hk
  have hle := hprefix.length_le
  have hpos := List.length_pos_iff.2 hat.filled
  rw [List.length_drop] at hle
  exact ⟨l, hl, by omega, hprefix, hplace⟩

/-- Where a highlight ends. -/
theorem positionOf_end (hat : At doc h offset) :
    doc.positionOf (offset + h.text.length) = ⟨h.line, h.offset + h.text.length⟩ := by
  obtain ⟨l, hl, hle, -, hplace⟩ := hat.exists_line
  rw [hplace, Nat.add_assoc]
  exact doc.positionOf_linesBefore hl hle

/-- Highlights are ordered like the stretches of text that they cover. -/
theorem before {g : Highlight} {offset' : Nat} (hg : At doc g offset) (hh : At doc h offset')
    (hle : offset + g.text.length ≤ offset') : Before g h := by
  have hend := hg.positionOf_end
  have hstart := hh.position_eq
  rcases Nat.eq_or_lt_of_le hle with heq | hlt
  · rw [heq, hstart] at hend
    obtain ⟨hline, hcolumn⟩ := Position.mk.inj hend
    exact Or.inr ⟨hline.symm, Nat.le_of_eq hcolumn.symm⟩
  · have horder := doc.positionOf_lt hlt (Nat.le_of_lt hh.lt_length)
    rw [hend, hstart] at horder
    rcases horder with hline | ⟨hline, hcolumn⟩
    · exact Or.inl hline
    · exact Or.inr ⟨hline, Nat.le_of_lt hcolumn⟩

end At

/-! ### The lines of a stretch of text -/

theorem mem_ofLines_iff {start : Position} {t : Text} {type : String} {modifiers : List Nat}
    {h : Highlight} :
    h ∈ ofLines start t type modifiers ↔ ∃ k piece, (Text.lines t)[k]? = some piece ∧
      piece ≠ [] ∧
      h = ⟨start.line + k, if k = 0 then start.character else 0, piece, type, modifiers⟩ := by
  simp only [ofLines, List.mem_filterMap, Prod.exists, List.mem_zipIdx_iff_getElem?]
  constructor
  · rintro ⟨piece, k, hpiece, hsome⟩
    split at hsome
    · simp at hsome
    · next hne =>
        exact ⟨k, piece, hpiece, by simpa using hne, (Option.some.inj hsome).symm⟩
  · rintro ⟨k, piece, hpiece, hne, rfl⟩
    exact ⟨piece, k, hpiece, by simp [hne]⟩

theorem pairwise_ofLines (start : Position) (t : Text) (type : String) (modifiers : List Nat) :
    (ofLines start t type modifiers).Pairwise Before := by
  have hindex : (Text.lines t).zipIdx.Pairwise fun a b => a.2 < b.2 := by
    have hrange := List.pairwise_lt_range' (s := 0) (n := (Text.lines t).length) 1
    rw [← List.zipIdx_map_snd, List.pairwise_map] at hrange
    exact hrange
  refine List.pairwise_filterMap.2 (hindex.imp ?_)
  intro a b hlt g hg h hh
  split at hg
  · simp at hg
  · split at hh
    · simp at hh
    · obtain rfl := Option.some.inj hg
      obtain rfl := Option.some.inj hh
      exact Or.inl (Nat.add_lt_add_left hlt _)

/-- A line of a stretch of the text is where its highlight says. -/
theorem at_line {doc : Document} {start k : Nat} {t piece : Text}
    (hstart : start ≤ doc.text.length) (ht : t <+: doc.text.drop start)
    (hpiece : (Text.lines t)[k]? = some piece) (hne : piece ≠ []) (type : String)
    (modifiers : List Nat) :
    At doc ⟨(doc.positionOf start).line + k,
        if k = 0 then (doc.positionOf start).character else 0, piece, type, modifiers⟩
      (start + (linesBefore (Text.lines t) k).length) where
  position_eq := by
    rw [doc.positionOf_line hstart ht hpiece, Document.moveTo, Nat.add_zero]
  text_at := by
    obtain ⟨rest, hrest⟩ := ht
    obtain ⟨tail, hjoin, -⟩ := exists_joinLines_eq hpiece
    rw [joinLines_lines] at hjoin
    have htext : t ++ rest = linesBefore (Text.lines t) k ++ (piece ++ (tail ++ rest)) := by
      conv => lhs; rw [hjoin]
      simp
    rw [← List.drop_drop, ← hrest, htext, List.drop_left]
    exact List.prefix_append piece _
  filled := hne
  oneLine := newline_not_mem_of_mem_lines (List.mem_of_getElem? hpiece)

/-! ### Tokens -/

/-- Tokens that touch nothing skipped stay, in order. -/
theorem map_fst_withKeywords (skipped : List (Nat × Nat)) (previous : String) (ts : List Token) :
    (withKeywords skipped previous ts).map Prod.fst = ts.filter fun t => !touches skipped t := by
  induction ts generalizing previous with
  | nil => rfl
  | cons t ts ih =>
      rw [withKeywords]
      cases htouches : touches skipped t with
      | true => simpa [htouches] using ih _
      | false => simpa [htouches] using ih _

/-- The stretches of the decoded text of a region that have no highlights. -/
def skippedIn (r : Region) : List (Nat × Nat) :=
  if r.interpolating then Interpolation.spans (Escape.decode r.raw) else []

/-- The tokens of a region that have highlights, each with the last keyword up to it. -/
def tokensOf (r : Region) : List (Token × String) :=
  withKeywords (skippedIn r) "" (Token.lex Vocabulary.keywords (Escape.decode r.raw))

theorem pairwise_tokensOf (r : Region) :
    (tokensOf r).Pairwise fun x y => x.1.stop ≤ y.1.offset := by
  have hlexed := Token.lexed_lex Vocabulary.keywords (Escape.decode r.raw)
  have horder := hlexed.pairwise.filter fun t => !touches (skippedIn r) t
  rw [← map_fst_withKeywords _ "", List.pairwise_map] at horder
  exact horder

theorem mem_tokensOf_iff {r : Region} {t : Token} : (∃ previous, (t, previous) ∈ tokensOf r) ↔
    t ∈ Token.lex Vocabulary.keywords (Escape.decode r.raw) ∧
      touches (skippedIn r) t = false := by
  have hmap : (tokensOf r).map Prod.fst = _ := map_fst_withKeywords (skippedIn r) "" _
  have hmem : t ∈ (tokensOf r).map Prod.fst ↔ ∃ previous, (t, previous) ∈ tokensOf r := by simp
  rw [← hmem, hmap, List.mem_filter, Bool.not_eq_true']

/-- The highlights of a token of a region. -/
def ofToken (ls : List Text) (r : Region) (t : Token) (previous : String) : List Highlight :=
  ofLines (Document.advanceIn ls r.range.start (Escape.offsetAt r.raw t.offset))
    (Escape.extent r.raw t.offset t.stop) (classify t.kind t.text previous)
    (modifiersOf (classify t.kind t.text previous) t.text)

theorem ofRegion_eq (ls : List Text) (r : Region) :
    ofRegion ls r = (tokensOf r).flatMap fun x => ofToken ls r x.1 x.2 :=
  rfl

/-- The highlight of a line of a token of a region: what is written there, and where. -/
structure Of (doc : Document) (r : Region) (t : Token) (k : Nat) (h : Highlight) : Prop where
  piece_eq : (Text.lines (Escape.extent r.raw t.offset t.stop))[k]? = some h.text
  at_offset : At doc h (doc.offsetOf r.range.start + Escape.offsetAt r.raw t.offset +
    (linesBefore (Text.lines (Escape.extent r.raw t.offset t.stop)) k).length)

section Regions

variable {doc : Document} {l : Literal} {r : Region} (hr : Region.Covered doc l r) {t : Token}

include hr

theorem of_line {k : Nat} {piece : Text}
    (hpiece : (Text.lines (Escape.extent r.raw t.offset t.stop))[k]? = some piece)
    (hne : piece ≠ []) (type : String) (modifiers : List Nat) :
    let start := Document.advanceIn doc.lines r.range.start (Escape.offsetAt r.raw t.offset)
    Of doc r t k
      ⟨start.line + k, if k = 0 then start.character else 0, piece, type, modifiers⟩ := by
  have hle := hr.offsetAt_le_stop t.offset
  have hlt := hr.stop_lt_length
  refine ⟨hpiece, ?_⟩
  rw [hr.advanceIn_offsetAt]
  exact at_line (by omega) (hr.extent_starts t.offset t.stop) hpiece hne type modifiers

theorem exists_of_mem_ofToken {previous : String} {h : Highlight}
    (hh : h ∈ ofToken doc.lines r t previous) : ∃ k, Of doc r t k h := by
  obtain ⟨k, piece, hpiece, hne, rfl⟩ := mem_ofLines_iff.1 hh
  exact ⟨k, of_line hr hpiece hne _ _⟩

theorem exists_mem_ofToken (previous : String) {k : Nat} {piece : Text}
    (hpiece : (Text.lines (Escape.extent r.raw t.offset t.stop))[k]? = some piece)
    (hne : piece ≠ []) : ∃ h ∈ ofToken doc.lines r t previous, Of doc r t k h :=
  ⟨_, mem_ofLines_iff.2 ⟨k, piece, hpiece, hne, rfl⟩, of_line hr hpiece hne _ _⟩

omit hr in
/-- The highlight of a line of a token lies between the raw offsets of the token. -/
theorem Of.within {k : Nat} {h : Highlight} (hof : Of doc r t k h) :
    (linesBefore (Text.lines (Escape.extent r.raw t.offset t.stop)) k).length + h.text.length +
      Escape.offsetAt r.raw t.offset ≤ Escape.offsetAt r.raw t.stop := by
  obtain ⟨tail, hjoin, -⟩ := exists_joinLines_eq hof.piece_eq
  have hlen := congrArg List.length hjoin
  have ht : t.offset ≤ t.stop := Nat.le_add_right _ _
  have hle := Escape.offsetAt_le ht r.raw
  rw [joinLines_lines, List.length_append, List.length_append] at hlen
  have hextent : (Escape.extent r.raw t.offset t.stop).length ≤
      Escape.offsetAt r.raw t.stop - Escape.offsetAt r.raw t.offset := by
    rw [Escape.extent, length_slice]
    exact Nat.min_le_left _ _
  omega

end Regions

theorem pairwise_ofRegion {doc : Document} {l : Literal} {r : Region}
    (hr : Region.Covered doc l r) : (ofRegion doc.lines r).Pairwise Before := by
  rw [ofRegion_eq, List.pairwise_flatMap]
  refine ⟨fun x _ => pairwise_ofLines _ _ _ _, (pairwise_tokensOf r).imp ?_⟩
  intro x y hle g hg h hh
  obtain ⟨k, hk⟩ := exists_of_mem_ofToken hr hg
  obtain ⟨k', hk'⟩ := exists_of_mem_ofToken hr hh
  have hend := hk.within
  have hnext := Escape.offsetAt_le hle r.raw
  exact hk.at_offset.before hk'.at_offset (by omega)

theorem classify_mem_types (kind : TokenKind) (text : Text) (previous : String) :
    classify kind text previous ∈ Legend.types := by
  have hnames : ∀ kind ∈ [TokenKind.keyword, .function, .string, .number, .operator, .comment],
      kind.name ∈ Legend.types := by decide
  cases kind with
  | identifier =>
      simp only [classify]
      split
      · decide
      · split <;> decide
  | keyword => exact hnames .keyword (by simp)
  | function => exact hnames .function (by simp)
  | string => exact hnames .string (by simp)
  | number => exact hnames .number (by simp)
  | operator => exact hnames .operator (by simp)
  | comment => exact hnames .comment (by simp)

/-- A highlight of a region belongs to a line of one of its tokens. -/
theorem exists_of_mem_ofFilled {doc : Document} {l : Literal} {r : Region}
    (hr : Region.Covered doc l r) {h : Highlight} (hh : h ∈ ofFilled doc.lines r) :
    h.type ∈ Legend.types ∧ ∃ t ∈ Token.lex Vocabulary.keywords (Escape.decode r.raw),
      ∃ k, Of doc r t k h := by
  unfold ofFilled at hh
  split at hh
  · simp at hh
  · rw [ofRegion_eq] at hh
    obtain ⟨x, hx, hh⟩ := List.mem_flatMap.1 hh
    obtain ⟨ht, -⟩ := mem_tokensOf_iff.1 ⟨x.2, hx⟩
    refine ⟨?_, x.1, ht, exists_of_mem_ofToken hr hh⟩
    obtain ⟨k, piece, -, -, rfl⟩ := mem_ofLines_iff.1 hh
    exact classify_mem_types _ _ _

/-- Every line of a token that touches nothing skipped has its highlight. -/
theorem exists_mem_ofFilled {doc : Document} {l : Literal} {r : Region}
    (hr : Region.Covered doc l r) {t : Token}
    (ht : t ∈ Token.lex Vocabulary.keywords (Escape.decode r.raw))
    (htouches : touches (skippedIn r) t = false) {k : Nat} {piece : Text}
    (hpiece : (Text.lines (Escape.extent r.raw t.offset t.stop))[k]? = some piece)
    (hne : piece ≠ []) : ∃ h ∈ ofFilled doc.lines r, Of doc r t k h := by
  have hfilled : isAllBlank r.raw = false := by
    cases hblank : isAllBlank r.raw with
    | false => rfl
    | true =>
        rw [Escape.decode_of_blank hblank, Token.lex, Token.lexFrom_of_blank _ hblank] at ht
        simp at ht
  obtain ⟨previous, hmem⟩ := mem_tokensOf_iff.2 ⟨ht, htouches⟩
  obtain ⟨h, hh, hof⟩ := exists_mem_ofToken hr previous hpiece hne
  refine ⟨h, ?_, hof⟩
  rw [ofFilled, hfilled, ofRegion_eq]
  exact List.mem_flatMap.2 ⟨(t, previous), hmem, hh⟩

/-! ### Documents -/

/-- **Highlights are in order** and do not overlap. -/
theorem pairwise_ofDocument (d : Detection) (doc : Document) :
    (ofDocument d doc).Pairwise Before := by
  refine List.pairwise_flatMap.2 ⟨?_, (Region.pairwise_all d doc).imp_of_mem ?_⟩
  · intro r hr
    obtain ⟨l, hl⟩ := Region.exists_covered_of_mem_all hr
    unfold ofFilled
    split
    · exact List.Pairwise.nil
    · exact pairwise_ofRegion hl
  · intro r s hr hs hle g hg h hh
    obtain ⟨l, hl⟩ := Region.exists_covered_of_mem_all hr
    obtain ⟨l', hl'⟩ := Region.exists_covered_of_mem_all hs
    obtain ⟨-, t, -, k, hk⟩ := exists_of_mem_ofFilled hl hg
    obtain ⟨-, t', -, k', hk'⟩ := exists_of_mem_ofFilled hl' hh
    have hend := hk.within
    have hstop := hl.offsetAt_le_stop t.stop
    exact hk.at_offset.before hk'.at_offset (by omega)

end Highlight

end EmbeddedSql
