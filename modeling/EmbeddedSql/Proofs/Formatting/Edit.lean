/-
**A format edit stays inside its literal.**

What the printer makes of a query is escaped, indented and sent to the client as an edit of the
source.  Each of these steps could break the literal open: a bare quote, a backslash at the end of a
line, a carriage return, a column counted in other units.  None of them does.

Main results:

* `Formatting.indent_encode` — indentation and escaping do not get in each other's way;
* `Formatting.return_not_mem_of_formatQuery` — formatting brings in no carriage return of its own;
* `Cursor.exists_touches_of_query?` — the query under a cursor whose window starts outside of all
  literals belongs to a literal of the whole text;
* `Formatting.edit_stays_in_literal` — **after the edit the literal holds the new content**, and all
  other literals are where they were, seen from it.
-/

import EmbeddedSql.Formatting
import EmbeddedSql.Proofs.Buffer.Lines
import EmbeddedSql.Proofs.Cursor.Query
import EmbeddedSql.Proofs.Escape.Encoding
import EmbeddedSql.Proofs.Interpolation.Placeholder
import EmbeddedSql.Proofs.Literal.Splice
import EmbeddedSql.Proofs.Text.Occurrence

set_option relaxedAutoImplicit false
set_option autoImplicit false

namespace EmbeddedSql

/-! ### Characters of a restored text -/

namespace Interpolation

theorem mem_replaceFirst {pattern new t : Text} {c : Char}
    (h : c ∈ Text.replaceFirst pattern new t) : c ∈ t ∨ c ∈ new := by
  by_cases hin : pattern <:+: t
  · obtain ⟨u, v, rfl, hr⟩ := Text.exists_replaceFirst new hin
    rw [hr, List.append_assoc, List.mem_append, List.mem_append] at h
    rcases h with h | h | h
    · exact Or.inl (by simp [h])
    · exact Or.inr h
    · exact Or.inl (by simp [h])
  · rw [Text.replaceFirst_of_absent hin] at h
    exact Or.inl h

theorem mem_restore {t : Text} {ps : List Placeholder} {c : Char} (h : c ∈ restore t ps) :
    c ∈ t ∨ ∃ p ∈ ps, c ∈ p.hole := by
  induction ps generalizing t with
  | nil => exact Or.inl h
  | cons p ps ih =>
      rcases ih h with h | ⟨q, hq, h⟩
      · rcases mem_replaceFirst h with h | h
        · exact Or.inl h
        · exact Or.inr ⟨p, List.mem_cons_self, h⟩
      · exact Or.inr ⟨q, List.mem_cons_of_mem p hq, h⟩

/-- The interpolations of a text are parts of it. -/
theorem mem_of_mem_hole {text : Text} {p : Placeholder} (hp : p ∈ (extract text).2) {c : Char}
    (h : c ∈ p.hole) : c ∈ text := by
  obtain ⟨part, hpart, heq⟩ := exists_part_of_mem_extract hp
  have hin := (Template.infix_text_of_mem hpart).subset (List.mem_append_right part.1 (heq ▸ h))
  rwa [Template.text_ofText] at hin

end Interpolation

/-! ### The literal under the cursor -/

namespace Cursor

/-- The query under a cursor whose window starts outside of all literals belongs to a literal of the
whole text. -/
theorem exists_touches_of_query? {d : Detection} {doc : Document} {p : Position} {q : Query}
    (hout : Literal.Outside (Literal.scanAll d.marks doc.text) (contentWindow d doc p))
    (h : query? d doc p = some q) :
    ∃ l, Touches d doc (doc.offsetOf p) l ∧ q.range = doc.rangeOf (l.start + 1) l.stop ∧
      q.quote = l.mark ∧ q.text = Escape.query (doc.text.slice (l.start + 1) l.stop) := by
  obtain ⟨c, f, hc, -, rfl⟩ := query?_eq_some_iff_content.1 h
  obtain ⟨l, htouch, -, -, rfl⟩ := (content?_eq_some_iff hout).1 hc
  exact ⟨l, htouch, rfl, rfl, rfl⟩

end Cursor

namespace Formatting

open Text

/-! ### Indentation -/

variable {quote : Char} {margin : Text}

theorem indentLine_encode (hquote : quote ≠ '\\') (hblank : isBlank quote = false)
    (hmargin : isAllBlank margin = true) (l : Text) :
    indentLine margin (Escape.encode quote l) = Escape.encode quote (indentLine margin l) := by
  unfold indentLine
  rw [Escape.isAllBlank_encode hquote hblank]
  split
  · rfl
  · have hfixed : Escape.encode quote margin = margin := by
      refine Escape.encode_of_forall hquote fun c hc => ?_
      have hc := List.all_eq_true.1 hmargin c hc
      constructor
      · rintro rfl
        exact absurd hc (by decide)
      · rintro rfl
        simp [hblank] at hc
    rw [Escape.encode_append, hfixed]

/-- **Indentation and escaping do not get in each other's way.** -/
theorem indent_encode (hquote : quote ≠ '\\') (hblank : isBlank quote = false)
    (hmargin : isAllBlank margin = true) (t : Text) :
    indent margin (Escape.encode quote t) = Escape.encode quote (indent margin t) := by
  have hnewline : quote ≠ '\n' := by
    rintro rfl
    exact absurd hblank (by decide)
  unfold indent
  rw [Escape.lines_encode hquote hnewline]
  rcases hlines : Text.lines t with _ | ⟨first, _ | ⟨second, rest⟩⟩
  · rfl
  · rfl
  · have hrest : ((second :: rest).map (Escape.encode quote)).map (indentLine margin) =
        ((second :: rest).map (indentLine margin)).map (Escape.encode quote) := by
      rw [List.map_map, List.map_map]
      exact List.map_congr_left fun l _ => indentLine_encode hquote hblank hmargin l
    rw [List.map_cons] at hrest
    simp only [List.map_cons, hrest, Escape.encode_joinLines hnewline]

theorem isAllBlank_marginOf (l : Text) : isAllBlank (marginOf l) = true := by
  have hspace : isBlank ' ' = true := by decide
  simp [isAllBlank, marginOf, hspace]

/-- Indentation brings in nothing but the margin. -/
theorem mem_indent {t : Text} {c : Char} (h : c ∈ indent margin t) (hc : c ≠ '\n') :
    c ∈ t ∨ c ∈ margin := by
  unfold indent at h
  rcases hlines : Text.lines t with _ | ⟨first, _ | ⟨second, rest⟩⟩
  · simp only [hlines] at h
    exact Or.inl h
  · simp only [hlines] at h
    exact Or.inl h
  · simp only [hlines] at h
    have hline : ∀ l ∈ first :: second :: rest, c ∈ l → c ∈ t := by
      intro l hl hcl
      rw [← joinLines_lines t, mem_joinLines hc, hlines]
      exact ⟨l, hl, hcl⟩
    obtain ⟨l, hl, hcl⟩ := (mem_joinLines hc).1 h
    rcases List.mem_cons.1 hl with rfl | hl
    · exact Or.inl (hline l List.mem_cons_self hcl)
    · obtain ⟨l', hl', rfl⟩ := List.mem_map.1 hl
      unfold indentLine at hcl
      split at hcl
      · simp at hcl
      · rcases List.mem_append.1 hcl with hcl | hcl
        · exact Or.inr hcl
        · exact Or.inl (hline l' (List.mem_cons_of_mem first hl') hcl)

/-! ### Carriage returns -/

theorem mem_of_mem_trim {t : Text} {c : Char} (h : c ∈ Text.trim t) : c ∈ t := by
  have h := (List.dropWhile_sublist isBlank).subset (List.mem_reverse.1 h)
  exact (List.dropWhile_sublist isBlank).subset (List.mem_reverse.1 h)

/-- A formatted query holds only what stands in the query or comes from the printer. -/
theorem mem_formatQuery {print : Printer} {options : FormatOptions} {query formatted : Text}
    {interpolating : Bool} (h : formatQuery print options query interpolating = .ok formatted)
    {c : Char} (hc : c ∈ formatted) :
    c ∈ query ∨ ∃ sql text, print options sql = .ok text ∧ c ∈ text := by
  simp only [formatQuery, Job.finish] at h
  split at h
  · simp at h
  · next text hprint =>
      unfold Job.restore at h
      cases interpolating with
      | false =>
          obtain rfl : Text.trim text = formatted := by simpa [Job.ofQuery] using h
          exact Or.inr ⟨_, text, hprint, mem_of_mem_trim hc⟩
      | true =>
          simp only [Job.ofQuery, if_true] at h
          split at h
          · obtain rfl := Except.ok.inj h
            rcases Interpolation.mem_restore hc with hc | ⟨p, hp, hc⟩
            · exact Or.inr ⟨_, text, hprint, mem_of_mem_trim hc⟩
            · exact Or.inl (Interpolation.mem_of_mem_hole hp hc)
          · simp at h

/-! ### The edit -/

variable {print : Printer} {options : FormatOptions} {d : Detection} {b : Buffer} {p : Position}
  {e : Edit}

/-- An edit writes back what formatting made of the query under the cursor. -/
theorem exists_query_of_edit (h : (edit print options d b p).1 = .ok (some e)) :
    ∃ q formatted, Cursor.query? d b.document (b.toCore p) = some q ∧
      formatQuery print options q.text q.interpolating = .ok formatted ∧
      e = ⟨b.rangeToClient q.range, indent (marginOf (b.document.lineAt q.range.start.line))
        (Escape.encode q.quote formatted)⟩ := by
  unfold edit at h
  split at h
  · simp at h
  · next target htarget =>
      unfold Formatting.target at htarget
      split at htarget
      · simp at htarget
      · next q hq =>
          dsimp only at htarget
          split at htarget
          · simp at htarget
          · have htarget := Except.ok.inj htarget
            dsimp only at h
            cases hfinish : target.job.finish (print options target.job.sql) with
            | error err => simp [hfinish, Except.map] at h
            | ok formatted =>
                rw [hfinish] at h
                have hwrite := Except.ok.inj h
                subst htarget
                unfold Target.write at hwrite
                split at hwrite
                · simp at hwrite
                · exact ⟨q, formatted, hq, hfinish, (Option.some.inj hwrite).symm⟩

/-- The quotes of R can be escaped, and are no blanks. -/
theorem of_mem_quotes_r {quote : Char} (h : quote ∈ Marks.r.quotes) :
    quote ≠ '\\' ∧ Escape.meaning? quote = some quote ∧ isBlank quote = false := by
  simp only [Marks.r, List.mem_cons, List.not_mem_nil, or_false] at h
  rcases h with rfl | rfl | rfl <;> decide

/-! ### The new content -/

section Content

variable {quote : Char} (hquote : quote ∈ Marks.r.quotes) (line t : Text)

include hquote

theorem indent_encode_of_r : indent (marginOf line) (Escape.encode quote t) =
    Escape.encode quote (indent (marginOf line) t) := by
  obtain ⟨hbackslash, -, hblank⟩ := of_mem_quotes_r hquote
  exact indent_encode hbackslash hblank (isAllBlank_marginOf line) t

/-- The new content decodes to the indented text. -/
theorem decode_indent_encode :
    Escape.decode (indent (marginOf line) (Escape.encode quote t)) = indent (marginOf line) t := by
  obtain ⟨hbackslash, hmeaning, -⟩ := of_mem_quotes_r hquote
  rw [indent_encode_of_r hquote, Escape.decode_encode hbackslash hmeaning]

/-- The new content does not close the literal. -/
theorem closingDistance?_indent_encode (rest : Text) :
    Literal.closingDistance? quote
      (indent (marginOf line) (Escape.encode quote t) ++ quote :: rest) =
        some (indent (marginOf line) (Escape.encode quote t)).length := by
  obtain ⟨hbackslash, -, -⟩ := of_mem_quotes_r hquote
  rw [indent_encode_of_r hquote]
  exact Escape.closingDistance?_encode hbackslash _ rest

/-- The new content brings in no carriage return. -/
theorem return_not_mem_indent_encode (hline : '\r' ∉ line) (ht : '\r' ∉ t) :
    '\r' ∉ indent (marginOf line) (Escape.encode quote t) := by
  obtain ⟨hbackslash, -, -⟩ := of_mem_quotes_r hquote
  intro hc
  rcases mem_indent hc (by decide) with hc | hc
  · exact ht (Escape.mem_of_mem_encode hbackslash hc (by decide))
  · rcases List.mem_append.1 hc with hc | hc
    · exact hline ((List.takeWhile_sublist isBlank).subset hc)
    · simp at hc

end Content

/-- The formatted query of a document without carriage returns has none either. -/
theorem return_not_mem_formatted (hplain : Buffer.plainBreaks b.source = true)
    (hprint : ∀ sql text, print options sql = .ok text → '\r' ∉ text) {lo hi : Nat}
    {interpolating : Bool} {formatted : Text}
    (h : formatQuery print options (Escape.query (b.document.text.slice lo hi)) interpolating =
      .ok formatted) : '\r' ∉ formatted := by
  intro hc
  rcases mem_formatQuery h hc with hc | ⟨sql, text, hok, hc⟩
  · have hc := Escape.mem_of_mem_decode (mem_of_mem_trim hc) (by decide) (by decide)
    exact Buffer.return_not_mem_of_plainBreaks hplain
      (List.mem_of_mem_drop (List.mem_of_mem_take hc))
  · exact hprint sql text hok hc

/-- **A format edit never breaks out of its literal.**  It exchanges the content of the literal at
the cursor; scanned again, the literal ends behind the new content, the literals before it are where
they were and those behind it have moved along.  The new content decodes to the formatted query,
indented like the line of the literal and two blanks more. -/
theorem edit_stays_in_literal (hmarks : d.marks = Marks.r)
    (hplain : Buffer.plainBreaks b.source = true)
    (hprint : ∀ sql text, print options sql = .ok text → '\r' ∉ text)
    (hout : Literal.Outside (Literal.scanAll d.marks b.document.text)
      (Cursor.contentWindow d b.document (b.toCore p)))
    (h : (edit print options d b p).1 = .ok (some e)) :
    let text := b.document.text
    let edited := (b.change ⟨e.text, some e.range⟩).document.text
    ∃ q formatted l before after,
      Cursor.query? d b.document (b.toCore p) = some q ∧
      formatQuery print options q.text q.interpolating = .ok formatted ∧
      Cursor.Touches d b.document (b.document.offsetOf (b.toCore p)) l ∧
      q.quote = l.mark ∧ q.range = b.document.rangeOf (l.start + 1) l.stop ∧
      Literal.scanAll d.marks text = before ++ l :: after ∧
      edited = text.take (l.start + 1) ++ e.text ++ text.drop l.stop ∧
      Literal.scanAll d.marks edited =
        before ++ { l with stop := l.start + 1 + e.text.length } ::
          after.map (Literal.moved l.stop (l.start + 1 + e.text.length)) ∧
      Escape.decode e.text =
        indent (marginOf (b.document.lineAt (b.document.positionOf l.start).line)) formatted := by
  intro text edited
  obtain ⟨q, formatted, hq, hformat, hedit⟩ := exists_query_of_edit h
  obtain ⟨l, htouch, hrange, hquote, hquery⟩ := Cursor.exists_touches_of_query? hout hq
  -- the mark of the literal is a quote of R, and stands on the line where its content starts
  have hscan := Literal.scanned_scanAll d.marks text
  obtain ⟨hmark, hopen⟩ := hscan.opens htouch.mem
  obtain ⟨hlt, hclose⟩ := hscan.closes htouch.mem htouch.string
  obtain ⟨hstop, -⟩ := List.getElem?_eq_some_iff.1 hclose
  have hmem : l.mark ∈ Marks.r.quotes := by
    rw [htouch.string.1] at hopen
    exact hmarks ▸ Literal.mem_quotes_of_opens? hopen
  have hline : q.range.start.line = (b.document.positionOf l.start).line := by
    rw [hrange]
    refine b.document.line_positionOf_succ hmark fun hnewline => ?_
    rw [hnewline] at hmem
    exact absurd hmem (by decide)
  rw [hline, hquote, hrange] at hedit
  obtain ⟨hplace, hcontent⟩ := Edit.mk.inj hedit
  have hreturn : '\r' ∉ e.text := by
    rw [hquery] at hformat
    rw [hcontent]
    refine return_not_mem_indent_encode hmem _ _ ?_ (return_not_mem_formatted hplain hprint hformat)
    exact fun hc => Buffer.return_not_mem_of_plainBreaks hplain (b.document.mem_of_mem_lineAt hc)
  have hedited : edited = text.take (l.start + 1) ++ e.text ++ text.drop l.stop := by
    have hchange := b.document_change hplain hlt hstop hreturn
    rwa [← hplace] at hchange
  have hcloses : ∀ rest, Literal.closingDistance? l.mark (e.text ++ l.mark :: rest) =
      some e.text.length := by
    rw [hcontent]
    exact closingDistance?_indent_encode hmem _ formatted
  obtain ⟨before, after, hall, hsplice⟩ :=
    Literal.scanAll_splice htouch.mem htouch.string hcloses
  refine ⟨q, formatted, l, before, after, hq, hformat, htouch, hquote, hrange, hall, hedited,
    ?_, ?_⟩
  · rw [hedited]
    exact hsplice
  · rw [hcontent]
    exact decode_indent_encode hmem _ formatted

/-- Escaped quotes behind a carriage return and a character of two units. -/
theorem edit_stays_in_literal_escaped :
    let print : Printer := fun _ _ => .ok "SELECT 'a'\nFROM t".toList
    let b : Buffer :=
      ⟨"file:///a.R", "'😀'\r\n\tsql('select \\'a\\' from t', \"q\")".toList, some 1, none⟩
    let e : Edit := ⟨⟨⟨1, 6⟩, ⟨1, 25⟩⟩, "SELECT \\'a\\'\n\t  FROM t".toList⟩
    let d : Detection := {}
    let edited := (b.change ⟨e.text, some e.range⟩).document.text
    Buffer.plainBreaks b.source = true ∧
      (∀ sql text, print {} sql = .ok text → '\r' ∉ text) ∧
      Literal.Outside (Literal.scanAll d.marks b.document.text)
        (Cursor.contentWindow d b.document (b.toCore ⟨1, 9⟩)) ∧
      (edit print {} d b ⟨1, 9⟩).1 = .ok (some e) ∧
      ∃ (formatted : Text) (l : Literal) (before after : List Literal),
        Literal.scanAll d.marks b.document.text = before ++ l :: after ∧
        Literal.scanAll d.marks edited =
          before ++ { l with stop := l.start + 1 + e.text.length } ::
            after.map (Literal.moved l.stop (l.start + 1 + e.text.length)) ∧
        Escape.decode e.text =
          indent (marginOf (b.document.lineAt (b.document.positionOf l.start).line)) formatted := by
  intro print b e d edited
  have hplain : Buffer.plainBreaks b.source = true := by decide +kernel
  have hprint : ∀ sql text, print {} sql = .ok text → '\r' ∉ text := by
    intro sql text htext
    obtain rfl := Except.ok.inj htext
    decide
  have hout : Literal.Outside (Literal.scanAll d.marks b.document.text)
      (Cursor.contentWindow d b.document (b.toCore ⟨1, 9⟩)) := by decide +kernel
  have hedit : (edit print {} d b ⟨1, 9⟩).1 = .ok (some e) := by decide +kernel
  obtain ⟨q, formatted, l, before, after, -, -, -, -, -, hall, -, hscan, hdecode⟩ :=
    edit_stays_in_literal rfl hplain hprint hout hedit
  exact ⟨hplain, hprint, hout, hedit, formatted, l, before, after, hall, hscan, hdecode⟩

end Formatting

end EmbeddedSql
