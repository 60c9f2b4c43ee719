/-
**The literal under the cursor.**

The search starts at the first line of a window, scans up to the cursor and, if it ends inside a
string, looks for the closing quote from the opening one on.  So the cursor may stand between a
backslash and the character it hides, at an opening quote or just behind a closing one, and none of
this changes the answer, as long as the first line of the window starts in code.  Then the literal
is the one of the whole text that the cursor touches.  It cannot start before the window: the window
starts behind a newline, and a newline is no quote.

Main results:

* `Cursor.Touches.window_le` — a literal that the cursor touches starts in the window;
* `Cursor.content_at_cursor` — **the literal under the cursor** is that of the whole text.
-/

import EmbeddedSql.Proofs.Cursor.Query

set_option relaxedAutoImplicit false
set_option autoImplicit false

namespace EmbeddedSql.Cursor

variable {d : Detection} {doc : Document} {p : Position}

/-- Behind the first line of the document a window starts behind a newline. -/
theorem newline_before_window (hpos : 0 < contentWindow d doc p) :
    ∃ k, contentWindow d doc p = k + 1 ∧ doc.text[k]? = some '\n' := by
  have hlines : doc.lineCount = doc.text.count '\n' + 1 := Document.length_lines doc.text
  have hlast : min p.line (doc.lineCount - 1) - d.limits.lineLookback ≤ doc.text.count '\n' := by
    omega
  have hline : 0 < min p.line (doc.lineCount - 1) - d.limits.lineLookback := by
    by_contra hfirst
    rw [contentWindow, windowStart, Nat.eq_zero_of_not_pos hfirst, doc.offsetOf_origin] at hpos
    exact absurd hpos (Nat.lt_irrefl 0)
  exact Document.newline_before_line hline hlast

/-- The content of a literal lies in the text. -/
theorem Touches.bounds {offset : Nat} {l : Literal} (h : Touches d doc offset l) :
    l.start < l.stop ∧ l.stop < doc.text.length ∧ doc.text[l.start]? = some l.mark ∧
      doc.text[l.stop]? = some l.mark ∧ l.mark ∈ d.marks.quotes := by
  have hscan := Literal.scanned_scanAll d.marks doc.text
  obtain ⟨hmark, hopen⟩ := hscan.opens h.mem
  obtain ⟨hlt, hclose⟩ := hscan.closes h.mem h.string
  have hstop := (hscan.within h.mem).stop_lt h.string.2
  rw [Nat.zero_add] at hstop
  rw [h.string.1] at hopen
  exact ⟨hlt, hstop, hmark, hclose, Literal.mem_quotes_of_opens? hopen⟩

/-- A literal that the cursor touches starts in the window. -/
theorem Touches.window_le {l : Literal} (hquotes : '\n' ∉ d.marks.quotes)
    (hout : Literal.Outside (Literal.scanAll d.marks doc.text) (contentWindow d doc p))
    (h : Touches d doc (doc.offsetOf p) l) : contentWindow d doc p ≤ l.start := by
  by_contra hbefore
  -- otherwise the literal ends where the window starts, at the newline before it
  have hnot := hout l h.mem
  have hcursor := contentWindow_le d doc p
  have hle := h.le_stop
  have hpos : 0 < contentWindow d doc p := by omega
  obtain ⟨k, hk, hnewline⟩ := newline_before_window hpos
  obtain rfl : k = l.stop := by omega
  obtain ⟨-, -, -, hclose, hmem⟩ := h.bounds
  rw [hnewline] at hclose
  exact hquotes (Option.some.inj hclose ▸ hmem)

/-- **The literal under the cursor.**  When the window starts outside of all literals and no quote
is a newline, the search finds the one closed string of the whole text around the cursor or just
before it, unless the cursor stands inside and the content is too long.  It finds nothing where
there is no such string, and its range leads back to the offsets of the content. -/
theorem content_at_cursor (hquotes : '\n' ∉ d.marks.quotes)
    (hout : Literal.Outside (Literal.scanAll d.marks doc.text) (contentWindow d doc p)) :
    (∀ l, Touches d doc (doc.offsetOf p) l →
      (∀ l', Touches d doc (doc.offsetOf p) l' → l' = l) ∧
      content? d doc p =
        if doc.offsetOf p = l.stop + 1 ∨ l.stop - l.start - 1 < d.limits.callLength then
          some ⟨doc.rangeOf (l.start + 1) l.stop, l.start + 1, l.stop, l.mark⟩
        else none) ∧
    ((∀ l, ¬ Touches d doc (doc.offsetOf p) l) → content? d doc p = none) ∧
    ∀ c, content? d doc p = some c →
      doc.offsetOf c.range.start = c.start ∧ doc.offsetOf c.range.stop = c.stop ∧
        doc.text[c.opening]? = some c.quote := by
  have hiff : ∀ c, content? d doc p = some c ↔ ∃ l, Touches d doc (doc.offsetOf p) l ∧
      contentWindow d doc p ≤ l.start ∧
      (doc.offsetOf p = l.stop + 1 ∨ l.stop < l.start + 1 + d.limits.callLength) ∧
      c = contentOf doc l.start l.stop l.mark := fun c => content?_eq_some_iff hout
  refine ⟨?_, ?_, ?_⟩
  · intro l htouch
    refine ⟨fun l' htouch' => htouch'.unique htouch, ?_⟩
    obtain ⟨hlt, -⟩ := htouch.bounds
    split
    · next hnear =>
        exact (hiff _).2 ⟨l, htouch, htouch.window_le hquotes hout, by omega, rfl⟩
    · next hfar =>
        rw [Option.eq_none_iff_forall_ne_some]
        intro c hc
        obtain ⟨l', htouch', -, hnear, -⟩ := (hiff c).1 hc
        obtain rfl := htouch.unique htouch'
        omega
  · intro hnone
    rw [Option.eq_none_iff_forall_ne_some]
    intro c hc
    obtain ⟨l, htouch, -⟩ := (hiff c).1 hc
    exact hnone l htouch
  · intro c hc
    obtain ⟨l, htouch, -, -, rfl⟩ := (hiff c).1 hc
    obtain ⟨hlt, hstop, hopen, -⟩ := htouch.bounds
    exact ⟨doc.offsetOf_positionOf (by omega), doc.offsetOf_positionOf (by omega), hopen⟩

/-- The window is one line.  Between a backslash and the quote it hides, and just behind the closing
quote, the cursor is at the same literal; in the comment behind it there is none. -/
theorem content_at_cursor_in_escape :
    let d : Detection := { limits := { lineLookback := 0 } }
    let doc : Document := ⟨"", "x <- 'a'\nf(\"it\\\"s # no\") # 'x'\n".toList, 0⟩
    let c : Content := ⟨⟨⟨1, 3⟩, ⟨1, 13⟩⟩, 12, 22, '"'⟩
    '\n' ∉ d.marks.quotes ∧ contentWindow d doc ⟨1, 6⟩ = 9 ∧
      Literal.Outside (Literal.scanAll d.marks doc.text) 9 ∧
      content? d doc ⟨1, 6⟩ = some c ∧ content? d doc ⟨1, 14⟩ = some c ∧
      content? d doc ⟨1, 19⟩ = none := by
  intro d doc c
  have hquotes : '\n' ∉ d.marks.quotes := by decide
  have hwindow : contentWindow d doc ⟨1, 6⟩ = 9 := by decide +kernel
  have hout : ∀ k ∈ [6, 14, 19], Literal.Outside (Literal.scanAll d.marks doc.text)
      (contentWindow d doc ⟨1, k⟩) := by decide +kernel
  have hall : Literal.scanAll d.marks doc.text = [⟨.string, 5, 7, '\'', true⟩,
      ⟨.string, 11, 22, '"', true⟩, ⟨.comment, 25, 30, '#', true⟩] := by decide +kernel
  have htouch : ∀ k ∈ [6, 14],
      Touches d doc (doc.offsetOf ⟨1, k⟩) ⟨.string, 11, 22, '"', true⟩ := by
    intro k hk
    have hoffset : ∀ k ∈ [6, 14], 11 < doc.offsetOf ⟨1, k⟩ ∧ doc.offsetOf ⟨1, k⟩ ≤ 22 + 1 := by
      decide +kernel
    exact ⟨by simp [hall], ⟨rfl, rfl⟩, (hoffset k hk).1, (hoffset k hk).2⟩
  have hnone : ∀ l, ¬ Touches d doc (doc.offsetOf ⟨1, 19⟩) l := by
    intro l hl
    have hoffset : doc.offsetOf ⟨1, 19⟩ = 28 := by decide +kernel
    obtain ⟨hmem, hstring, -, hle⟩ := hl
    rw [hall] at hmem
    rw [hoffset] at hle
    simp only [List.mem_cons, List.not_mem_nil, or_false] at hmem
    rcases hmem with rfl | rfl | rfl <;> simp at hstring hle
  refine ⟨hquotes, hwindow, hwindow ▸ hout 6 (by simp), ?_, ?_, ?_⟩
  · rw [((content_at_cursor hquotes (hout 6 (by simp))).1 _ (htouch 6 (by simp))).2]
    decide +kernel
  · rw [((content_at_cursor hquotes (hout 14 (by simp))).1 _ (htouch 14 (by simp))).2]
    decide +kernel
  · exact (content_at_cursor hquotes (hout 19 (by simp))).2.1 hnone

end EmbeddedSql.Cursor
