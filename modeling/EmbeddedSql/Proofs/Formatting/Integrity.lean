/-
**What an edit does to the tokens and the interpolations of a query.**

A formatted query is indented when it is written back, line by line, with no regard to the strings
and the interpolations that may run over several lines.  So an edit changes more than the blanks
between tokens, and this module says exactly when it does.

Main results:

* `Interpolation.Mode.step_step_newline` — behind a newline, blanks do not matter to the automaton;
* `Formatting.expressions_indent` — **the interpolations of an indented query** are those of the
  query, each one indented;
* `Formatting.edit_keeps_tokens_iff` — **an edit keeps the tokens of the formatted query exactly if
  each of them stands on one line**, and likewise for the interpolations.
-/

import EmbeddedSql.Proofs.Formatting.Edit
import EmbeddedSql.Proofs.Formatting.Tokens
import EmbeddedSql.Proofs.Interpolation.Automaton
import EmbeddedSql.Proofs.Interpolation.Spans
import EmbeddedSql.Vocabulary

set_option relaxedAutoImplicit false
set_option autoImplicit false

namespace EmbeddedSql

open Text

namespace Interpolation

/-! ### Blanks behind a newline -/

namespace Mode

theorem isBlank_of_mem_exprQuotes {q : Char} (h : q ∈ exprQuotes) : isBlank q = false := by
  simp only [exprQuotes, List.mem_cons, List.not_mem_nil, or_false] at h
  rcases h with rfl | rfl | rfl <;> decide

theorem ne_of_isBlank {c d : Char} (hc : isBlank c = true) (hd : isBlank d = false) : c ≠ d := by
  rintro rfl
  simp [hc] at hd

theorem stepSql_of_isBlank {c : Char} (hc : isBlank c = true) : stepSql c = .sql := by
  have hdash : c ≠ '-' := ne_of_isBlank hc (by decide)
  have hbrace : c ≠ '{' := ne_of_isBlank hc (by decide)
  have hquote : c ∉ sqlQuotes := by
    intro hmem
    exact ne_of_isBlank hc
      (isBlank_of_mem_exprQuotes (mem_exprQuotes_of_mem_sqlQuotes hmem)) rfl
  simp [stepSql, hdash, hquote, hbrace]

theorem stepExpr_of_isBlank {c : Char} (hc : isBlank c = true) (outer : Option Char)
    (nested : Nat) : stepExpr outer nested c = .hole outer nested .code := by
  have hopen : c ≠ '{' := ne_of_isBlank hc (by decide)
  have hclose : c ≠ '}' := ne_of_isBlank hc (by decide)
  have hquote : c ∉ exprQuotes := by
    intro hmem
    exact ne_of_isBlank hc (isBlank_of_mem_exprQuotes hmem) rfl
  simp [stepExpr, hquote, hopen, hclose]

/-- A blank behind a newline changes nothing, unless a string ends with it. -/
theorem step_step_newline {m : Mode} (hm : ∀ q ∈ m.quotes, isBlank q = false) {c : Char}
    (hc : isBlank c = true) : (m.step '\n').step c = m.step '\n' := by
  have hsql := stepSql_of_isBlank hc
  have hne : ∀ {q : Char}, isBlank q = false → c ≠ q := fun hq => ne_of_isBlank hc hq
  have hslash : c ≠ '\\' := hne (by decide)
  cases m with
  | sql => exact hsql
  | dash => exact hsql
  | string q =>
      have hq := hm q List.mem_cons_self
      simp [step, (ne_newline_of_isBlank hq).symm, hne hq, hne (by decide : isBlank '{' = false)]
  | comment => exact hsql
  | hole outer n e =>
      have hexpr := stepExpr_of_isBlank hc outer n
      have hnewline := stepExpr_of_isBlank isBlank_newline outer n
      cases e with
      | code => rw [step, hnewline, step, hexpr]
      | string q =>
          have hq := hm q (List.mem_append_right _ List.mem_cons_self)
          simp [step, (ne_newline_of_isBlank hq).symm, hne hq, hslash]
      | escaped q =>
          have hq := hm q (List.mem_append_right _ List.mem_cons_self)
          simp [step, hne hq, hslash]
      | quoteSeen q =>
          have hq := hm q (List.mem_append_right _ List.mem_cons_self)
          simp [step, (ne_newline_of_isBlank hq).symm, hnewline, hexpr]

theorem isHole_step_newline (m : Mode) : (m.step '\n').isHole = m.isHole := by
  cases hm : m.isHole with
  | true =>
      cases hn : (m.step '\n').isHole with
      | true => rfl
      | false => exact absurd (eq_of_step_closes hm hn) (by decide)
  | false =>
      cases hn : (m.step '\n').isHole with
      | true => exact absurd (eq_of_step_opens hm hn) (by decide)
      | false => rfl

end Mode

namespace Template

/-! ### Holes, one character at a time -/

variable {m : Mode} {gap hole t : Text} {c : Char}

theorem holes_of_closes (hm : m.isHole = true) (h : (m.step c).isHole = false) :
    (ofTextFrom m gap hole (c :: t)).holes =
      (c :: hole).reverse :: (ofTextFrom (m.step c) [] [] t).holes := by
  rw [ofTextFrom_closes hm h]
  rfl

/-- Characters that keep the mode go to the hole that is open, or to the gap. -/
theorem exists_holes_append (gap hole : Text) {u : Text} (hu : ∀ c ∈ u, m.step c = m)
    (hclosed : m.isHole = false → hole = []) (t : Text) :
    ∃ gap', (ofTextFrom m gap hole (u ++ t)).holes =
      (ofTextFrom m gap' (if m.isHole then u.reverse ++ hole else []) t).holes := by
  induction u generalizing gap hole with
  | nil =>
      refine ⟨gap, ?_⟩
      cases hm : m.isHole with
      | true => rfl
      | false => rw [hclosed hm]; rfl
  | cons c u ih =>
      have hstep := hu c List.mem_cons_self
      have hrest : ∀ c ∈ u, m.step c = m := fun d hd => hu d (List.mem_cons_of_mem c hd)
      cases hm : m.isHole with
      | true =>
          obtain ⟨gap', hgap⟩ := ih gap (c :: hole) hrest (by simp [hm])
          refine ⟨gap', ?_⟩
          rw [List.cons_append, ofTextFrom_inside (hstep.symm ▸ hm), hstep, hgap, hm]
          simp
      | false =>
          obtain ⟨gap', hgap⟩ := ih (c :: gap) [] hrest (fun _ => rfl)
          refine ⟨gap', ?_⟩
          rw [List.cons_append, ofTextFrom_outside hm (hstep.symm ▸ hm), hstep, hgap, hm]
          rfl

/-- A newline and blanks behind it go to the hole that is open, or to the gap. -/
theorem exists_holes_newline (hm : ∀ q ∈ m.quotes, isBlank q = false) (gap hole : Text)
    {u : Text} (hu : isAllBlank u = true) (t : Text) :
    ∃ gap', (ofTextFrom m gap hole ('\n' :: (u ++ t))).holes =
      (ofTextFrom (m.step '\n') gap'
        (if m.isHole then u.reverse ++ '\n' :: hole else []) t).holes := by
  have hkeep : ∀ c ∈ u, (m.step '\n').step c = m.step '\n' := fun c hc =>
    Mode.step_step_newline hm (List.all_eq_true.1 hu c hc)
  have hnewline := Mode.isHole_step_newline m
  cases hopen : m.isHole with
  | true =>
      rw [hopen] at hnewline
      rw [ofTextFrom_inside hnewline]
      simpa [hnewline] using exists_holes_append gap ('\n' :: hole) hkeep (by simp [hnewline]) t
  | false =>
      rw [hopen] at hnewline
      rw [ofTextFrom_outside hopen hnewline]
      simpa [hnewline] using exists_holes_append ('\n' :: gap) [] hkeep (fun _ => rfl) t

end Template

/-! ### The end of a restored text -/

theorem endsVisibly_replaceFirst {pattern new t : Text} (ht : EndsVisibly t) (hne : new ≠ [])
    (hnew : EndsVisibly new) : EndsVisibly (replaceFirst pattern new t) := by
  by_cases hin : pattern <:+: t
  · obtain ⟨u, v, rfl, hr⟩ := exists_replaceFirst new hin
    rw [hr]
    by_cases hv : v = []
    · rw [hv, List.append_nil]
      exact hnew.append hne
    · exact ht.of_append.append hv
  · rw [replaceFirst_of_absent hin]
    exact ht

theorem endsVisibly_restore {t : Text} {ps : List Placeholder} (ht : EndsVisibly t)
    (hps : ∀ p ∈ ps, p.hole ≠ [] ∧ EndsVisibly p.hole) : EndsVisibly (restore t ps) := by
  induction ps generalizing t with
  | nil => exact ht
  | cons p ps ih =>
      obtain ⟨hp, hps⟩ := List.forall_mem_cons.1 hps
      exact ih (endsVisibly_replaceFirst ht hp.1 hp.2) hps

theorem endsVisibly_of_mem_parts {t : Text} {part : Text × Text}
    (h : part ∈ (Template.ofText t).parts) : part.2 ≠ [] ∧ EndsVisibly part.2 := by
  obtain ⟨s, hs⟩ := Template.exists_hole_eq h
  have hlast : part.2.getLast? = some '}' := by simp [hs, List.getLast?_cons]
  exact ⟨by simp [hs], EndsVisibly.of_last hlast (by decide)⟩

end Interpolation

namespace Formatting

open Interpolation

variable {margin : Text}

/-! ### The interpolations of an indented text -/

/-- What is read of a hole and of the indented hole so far, together with what is still to come, is
a text and its indentation.  This carries the induction: it says what the hole is when it closes. -/
theorem Indented.holes_eq (hmargin : isAllBlank margin = true) {t t' : Text}
    (h : Indented margin t t') {m : Mode} (hm : ∀ q ∈ m.quotes, isBlank q = false)
    (gap gap' hole hole' : Text)
    (hinv : Indented margin (hole.reverse ++ t) (hole'.reverse ++ t'))
    (hclosed : m.isHole = false → hole = [] ∧ hole' = []) :
    (Template.ofTextFrom m gap' hole' t').holes =
      (Template.ofTextFrom m gap hole t).holes.map (indent margin) := by
  have hquotes : ∀ {m : Mode}, (∀ q ∈ m.quotes, isBlank q = false) → ∀ c,
      ∀ q ∈ (m.step c).quotes, isBlank q = false := by
    intro m hm c q hq
    rcases Mode.mem_quotes_of_mem_step hq with hq | hq
    · exact hm q hq
    · exact Mode.isBlank_of_mem_exprQuotes hq
  induction h generalizing m gap gap' hole hole' with
  | nil => rfl
  | @keep c t t' hc h ih =>
      cases hn : (m.step c).isHole with
      | true =>
          rw [Template.ofTextFrom_inside hn, Template.ofTextFrom_inside hn]
          refine ih (hquotes hm c) gap gap' (c :: hole) (c :: hole') ?_ (by simp [hn])
          simpa using hinv
      | false =>
          cases hopen : m.isHole with
          | true =>
              rw [Template.holes_of_closes hopen hn, Template.holes_of_closes hopen hn,
                ih (hquotes hm c) [] [] [] [] h (fun _ => ⟨rfl, rfl⟩), List.map_cons]
              congr 1
              -- the hole ends in a brace, so it is indented apart from what follows
              obtain rfl := Mode.eq_of_step_closes hopen hn
              have hvisible : EndsVisibly (hole.reverse ++ ['}']) :=
                EndsVisibly.of_last List.getLast?_concat (by decide)
              have hwhole := hinv.eq_indent
              rw [List.append_cons, List.append_cons hole.reverse, indent_append hvisible,
                h.eq_indent] at hwhole
              simpa using List.append_cancel_right hwhole
          | false =>
              rw [Template.ofTextFrom_outside hopen hn, Template.ofTextFrom_outside hopen hn]
              exact ih (hquotes hm c) (c :: gap) (c :: gap') [] [] h (fun _ => ⟨rfl, rfl⟩)
  | @line t t' hvisible h ih =>
      obtain ⟨gap₁, hgap₁⟩ := Template.exists_holes_newline hm gap hole (u := []) rfl t
      obtain ⟨gap₂, hgap₂⟩ := Template.exists_holes_newline hm gap' hole' hmargin t'
      rw [hgap₂]
      rw [List.nil_append] at hgap₁
      rw [hgap₁]
      refine ih (hquotes hm '\n') gap₁ gap₂ _ _ ?_ ?_
      · cases hopen : m.isHole with
        | true => simpa using hinv
        | false => exact h
      · intro hopen
        rw [Mode.isHole_step_newline] at hopen
        simp [hopen]
  | @blank u t t' hall hu ht h ih =>
      obtain ⟨gap₁, hgap₁⟩ := Template.exists_holes_newline hm gap hole hall t
      obtain ⟨gap₂, hgap₂⟩ := Template.exists_holes_newline hm gap' hole' (u := []) rfl t'
      rw [hgap₁]
      rw [List.nil_append] at hgap₂
      rw [hgap₂]
      refine ih (hquotes hm '\n') gap₁ gap₂ _ _ ?_ ?_
      · cases hopen : m.isHole with
        | true => simpa using hinv
        | false => exact h
      · intro hopen
        rw [Mode.isHole_step_newline] at hopen
        simp [hopen]

/-- **The interpolations of an indented query** are those of the query, each one indented. -/
theorem expressions_indent (hmargin : isAllBlank margin = true) (t : Text) :
    expressions (indent margin t) = (expressions t).map (indent margin) := by
  have h := indented_indent margin t
  rw [expressions_eq_holes, expressions_eq_holes]
  exact h.holes_eq hmargin (m := .sql) (by simp [Mode.quotes]) [] [] [] [] h
    (fun _ => ⟨rfl, rfl⟩)

/-- **Indentation keeps the interpolations exactly if none of them has a line break in it.** -/
theorem expressions_indent_eq_self_iff (hmargin : isAllBlank margin = true) (hne : margin ≠ [])
    (hplain : '\n' ∉ margin) (t : Text) :
    expressions (indent margin t) = expressions t ↔ ∀ x ∈ expressions t, '\n' ∉ x := by
  rw [expressions_indent hmargin]
  constructor
  · intro heq x hx
    have hself := List.map_inj_left.1 (heq.trans (List.map_id _).symm) x hx
    rw [expressions_eq_holes] at hx
    obtain ⟨part, hpart, rfl⟩ := List.mem_map.1 hx
    exact (indent_eq_self_iff hne hplain (endsVisibly_of_mem_parts hpart).2).1 hself
  · intro hone
    exact (List.map_congr_left fun x hx => indent_of_not_mem (hone x hx)).trans (List.map_id _)

/-! ### The edit -/

theorem endsVisibly_trim (t : Text) : EndsVisibly (Text.trim t) := by
  intro c hc
  rw [Text.trim, List.getLast?_reverse] at hc
  have hhead := List.head?_dropWhile_not isBlank (trimLeft t).reverse
  simpa [hc] using hhead

/-- A formatted query ends in a visible character. -/
theorem endsVisibly_formatQuery {print : Printer} {options : FormatOptions}
    {query formatted : Text} {interpolating : Bool}
    (h : formatQuery print options query interpolating = .ok formatted) :
    EndsVisibly formatted := by
  simp only [formatQuery, Job.finish] at h
  split at h
  · simp at h
  · next text _ =>
      unfold Job.restore at h
      cases interpolating with
      | false =>
          obtain rfl : Text.trim text = formatted := by simpa [Job.ofQuery] using h
          exact endsVisibly_trim text
      | true =>
          simp only [Job.ofQuery, if_true] at h
          split at h
          · obtain rfl := Except.ok.inj h
            refine endsVisibly_restore (endsVisibly_trim text) ?_
            intro p hp
            obtain ⟨part, hpart, heq⟩ := exists_part_of_mem_extract hp
            exact heq ▸ endsVisibly_of_mem_parts hpart
          · simp at h

/-- The quote of a query under the cursor is one of the configured quotes. -/
theorem quote_mem_of_query? {d : Detection} {doc : Document} {p : Position} {q : Query}
    (h : Cursor.query? d doc p = some q) : q.quote ∈ d.marks.quotes := by
  obtain ⟨c, f, hc, -, rfl⟩ := Cursor.query?_eq_some_iff_content.1 h
  rw [Cursor.content?_eq_bind] at hc
  obtain ⟨x, hlast, hx⟩ := Option.bind_eq_some_iff.1 hc
  have hmem := List.mem_of_getLast? hlast
  have hopens := ((Literal.scanned_scanFrom d.marks _ _).opens hmem).2
  unfold Cursor.contentIn? at hx
  split at hx
  · next hkind _ =>
      rw [hkind] at hopens
      split at hx
      · obtain rfl := Option.some.inj hx
        exact Literal.mem_quotes_of_opens? hopens
      · simp at hx
  · next hkind _ =>
      rw [hkind] at hopens
      obtain ⟨closing, -, rfl⟩ := Option.map_eq_some_iff.1 hx
      exact Literal.mem_quotes_of_opens? hopens
  · simp at hx

variable {print : Printer} {options : FormatOptions} {d : Detection} {b : Buffer} {p : Position}
  {e : Edit}

theorem newline_not_mem_marginOf {line : Text} (h : '\n' ∉ line) : '\n' ∉ marginOf line := by
  intro hmem
  rcases List.mem_append.1 hmem with hmem | hmem
  · exact h ((List.takeWhile_sublist isBlank).subset hmem)
  · simp at hmem

/-- **An edit keeps the tokens of the formatted query exactly if each of them stands on one line**,
and its interpolations exactly if each of them does.  In any case the new content holds the same
tokens and interpolations, each of them indented like a text of its own. -/
theorem edit_keeps_tokens_iff (hmarks : d.marks.quotes ⊆ Marks.r.quotes)
    (h : (edit print options d b p).1 = .ok (some e)) :
    ∃ q formatted, Cursor.query? d b.document (b.toCore p) = some q ∧
      formatQuery print options q.text q.interpolating = .ok formatted ∧
      let margin := marginOf (b.document.lineAt q.range.start.line)
      let written := Escape.decode e.text
      (Token.shapes Vocabulary.keywords written =
          (Token.shapes Vocabulary.keywords formatted).map fun x => (x.1, indent margin x.2)) ∧
        (Token.shapes Vocabulary.keywords written = Token.shapes Vocabulary.keywords formatted ↔
          ∀ x ∈ Token.lex Vocabulary.keywords formatted, '\n' ∉ x.text) ∧
        expressions written = (expressions formatted).map (indent margin) ∧
        (expressions written = expressions formatted ↔
          ∀ x ∈ expressions formatted, '\n' ∉ x) := by
  obtain ⟨q, formatted, hq, hformat, rfl⟩ := exists_query_of_edit h
  refine ⟨q, formatted, hq, hformat, ?_⟩
  intro margin written
  have hwritten : written = indent margin formatted :=
    decode_indent_encode (hmarks (quote_mem_of_query? hq)) _ formatted
  have hblank : isAllBlank margin = true := isAllBlank_marginOf _
  have hne : margin ≠ [] := by simp [margin, marginOf]
  have hplain : '\n' ∉ margin := newline_not_mem_marginOf (b.document.newline_not_mem_lineAt _)
  rw [hwritten]
  refine ⟨shapes_indent hblank formatted, ?_, expressions_indent hblank formatted, ?_⟩
  · exact shapes_indent_eq_self_iff hblank hne hplain (endsVisibly_formatQuery hformat)
  · exact expressions_indent_eq_self_iff hblank hne hplain formatted

/-- A string over two lines: the margin comes into it. -/
theorem edit_changes_string_over_lines :
    let print : Printer := fun _ sql => .ok (replaceFirst "select".toList "SELECT".toList sql)
    let b : Buffer :=
      ⟨"file:///a.R", "dbGetQuery(con, \"select 'a\nb'\")".toList, some 1, none⟩
    let d : Detection := {}
    let e : Edit := ⟨⟨⟨0, 17⟩, ⟨1, 2⟩⟩, "SELECT 'a\n  b'".toList⟩
    let formatted := "SELECT 'a\nb'".toList
    (edit print {} d b ⟨0, 20⟩).1 = .ok (some e) ∧
      Token.shapes Vocabulary.keywords (Escape.decode e.text) ≠
        Token.shapes Vocabulary.keywords formatted ∧
      expressions (Escape.decode e.text) = expressions formatted := by
  intro print b d e formatted
  have hedit : (edit print {} d b ⟨0, 20⟩).1 = .ok (some e) := by decide +kernel
  obtain ⟨q, formatted', hq, hformat, -, htokens, -, hexpressions⟩ :=
    edit_keeps_tokens_iff (List.Subset.refl _) hedit
  have hquery : (Cursor.query? d b.document (b.toCore ⟨0, 20⟩)).map
      (fun q => formatQuery print {} q.text q.interpolating) = some (.ok formatted) := by
    decide +kernel
  rw [hq] at hquery
  obtain rfl := Except.ok.inj (hformat.symm.trans (Option.some.inj hquery))
  refine ⟨hedit, ?_, hexpressions.2 (by decide +kernel)⟩
  intro heq
  have hlines : ¬ ∀ x ∈ Token.lex Vocabulary.keywords formatted, '\n' ∉ x.text := by
    decide +kernel
  exact hlines (htokens.1 heq)

end Formatting

end EmbeddedSql
