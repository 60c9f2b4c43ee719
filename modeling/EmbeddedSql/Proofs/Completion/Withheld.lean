/-
**Where nothing is suggested.**

Inside an interpolation the cursor is in R code, and nothing is suggested there.  The test runs the
automaton on the raw content before the cursor, while everything else that looks for interpolations
runs it on the decoded content.  The two agree unless an escape is misread on the way to the cursor:
then suggestions may be withheld in the query, or offered inside an expression.

Main definitions:

* `Completion.rawBefore` — the content of a query before the cursor.

Main results:

* `Completion.withheld_iff` — **suggestions are withheld inside interpolations**, of the raw content
  in any case, and of the query wherever both are read alike.
-/

import EmbeddedSql.Completion
import EmbeddedSql.Proofs.Document.Offset
import EmbeddedSql.Proofs.Interpolation.Automaton

set_option relaxedAutoImplicit false
set_option autoImplicit false

namespace EmbeddedSql.Completion

open Interpolation

/-- The raw content of a query before a position, without the closing quote. -/
def rawBefore (doc : Document) (q : Query) (p : Position) : Text :=
  doc.text.slice (doc.offsetOf q.range.start) (min (doc.offsetOf p) (doc.offsetOf q.range.stop))

theorem site?_of_query? {d : Detection} {doc : Document} {p : Position} {q : Query}
    (hq : Cursor.query? d doc p = some q) : site? d doc p = some ⟨q, rawBefore doc q p⟩ := by
  simp only [site?, hq, Option.map_some, Document.textIn, doc.offsetOf_clamp, rawBefore]

/-- In an interpolating call nothing is suggested exactly inside an interpolation of the raw
content. -/
theorem suggest_eq_none_iff {depth : Nat} {d : Detection} {b : Buffer} {p : Position} {q : Query}
    (hq : Cursor.query? d b.document (b.toCore p) = some q) (hinterp : q.interpolating = true)
    (database : Option Database) :
    (suggest depth d b database p).1 = .ok none ↔
      inside (rawBefore b.document q (b.toCore p))
        (rawBefore b.document q (b.toCore p)).length = true := by
  have hopen : Site.isOpen ⟨q, rawBefore b.document q (b.toCore p)⟩ =
      !inside (rawBefore b.document q (b.toCore p))
        (rawBefore b.document q (b.toCore p)).length := by
    simp [Site.isOpen, hinterp]
  rw [suggest, site?_of_query? hq, Option.filter_some, hopen]
  cases inside (rawBefore b.document q (b.toCore p))
    (rawBefore b.document q (b.toCore p)).length with
  | true => simp
  | false =>
      simp only [Bool.not_false, if_true, Bool.false_eq_true, iff_false]
      cases (ask depth database _).1 <;> simp [Except.map]

/-- A client gets nothing where nothing is suggested, and where the suggestions fail. -/
theorem request_eq_none_iff {depth : Nat} {d : Detection} {b : Buffer} (hR : b.isR = true)
    (database : Option Database) (p : Position) :
    (request depth d b database p).1 = none ↔ (suggest depth d b database p).1 = .ok none ∨
      ∃ e, (suggest depth d b database p).1 = .error e := by
  rw [request, hR, if_pos rfl]
  dsimp only
  rcases (suggest depth d b database p).1 with e | _ | found
  · simp [Except.toOption]
  · simp [Except.toOption]
  · simp [Except.toOption]

/-- Without a database the suggestions do not fail. -/
theorem suggest_none_ne_error (depth : Nat) (d : Detection) (b : Buffer) (p : Position)
    (e : TextError) : (suggest depth d b none p).1 ≠ .error e := by
  unfold suggest ask
  split <;> simp [Except.map]

/-- **Suggestions are withheld inside interpolations.**  The raw content decides.  If no escape
before the cursor is misread, this is whether the query has an interpolation open there; and if one
is, the two readings part.  Elsewhere a client still gets nothing when the suggestions of a database
fail. -/
theorem withheld_iff (depth : Nat) {d : Detection} {b : Buffer} (hR : b.isR = true) {p : Position}
    {q : Query} (hq : Cursor.query? d b.document (b.toCore p) = some q)
    (hinterp : q.interpolating = true) (database : Option Database) :
    let raw := rawBefore b.document q (b.toCore p)
    let sql := Escape.decode raw
    let found := (suggest depth d b database p).1
    (found = .ok none ↔ inside raw raw.length = true) ∧
      (ReadsAlike raw → (found = .ok none ↔ inside sql sql.length = true)) ∧
      (¬ ReadsAlike raw → ∃ k ≤ sql.length,
        Mode.sql.run (raw.take (Escape.offsetAt raw k)) ≠ Mode.sql.run (sql.take k)) ∧
      ((request depth d b database p).1 = none ↔
        inside raw raw.length = true ∨ ∃ e, found = .error e) ∧
      (database = none → ∀ e, found ≠ .error e) := by
  intro raw sql found
  have hraw : found = .ok none ↔ inside raw raw.length = true :=
    suggest_eq_none_iff hq hinterp database
  refine ⟨hraw, ?_, ?_, ?_, ?_⟩
  · intro halike
    rw [hraw, inside_decode halike]
  · intro hmisread
    by_contra hagree
    push Not at hagree
    exact hmisread ((run_take_eq_iff raw).1 hagree)
  · rw [request_eq_none_iff hR database p, ← hraw]
  · rintro rfl
    exact suggest_none_ne_error depth d b p

/-- Behind an expression that holds a string: with plain quotes around it there are suggestions,
with escaped ones there are none, although the query is the same. -/
theorem withheld_behind_escaped_quote :
    let plain : Buffer := ⟨"a.R", "glue_sql('select \x7bf(\"a\")\x7d ')".toList, some 1, none⟩
    let escaped : Buffer :=
      ⟨"a.R", "glue_sql(\"select \x7bf(\\\"a\\\")\x7d \")".toList, some 1, none⟩
    let sql := "select \x7bf(\"a\")\x7d ".toList
    inside sql sql.length = false ∧
      (request 9 {} plain none ⟨0, 26⟩).1 ≠ none ∧
      (request 9 {} escaped none ⟨0, 28⟩).1 = none := by
  intro plain escaped sql
  have hplain : Cursor.query? {} plain.document (plain.toCore ⟨0, 26⟩) =
      some ⟨Text.trim sql, ⟨⟨0, 10⟩, ⟨0, 26⟩⟩, "glue_sql", false, true, '\''⟩ := by decide +kernel
  have hescaped : Cursor.query? {} escaped.document (escaped.toCore ⟨0, 28⟩) =
      some ⟨Text.trim sql, ⟨⟨0, 10⟩, ⟨0, 28⟩⟩, "glue_sql", false, true, '"'⟩ := by decide +kernel
  have hnot : inside sql sql.length = false := by decide +kernel
  refine ⟨hnot, ?_, ?_⟩
  · obtain ⟨hraw, halike, -, hrequest, hsuggest⟩ :=
      withheld_iff 9 (by decide +kernel) hplain rfl none
    rw [Ne, hrequest, ← hraw, halike (by decide +kernel)]
    rintro (hinside | ⟨e, he⟩)
    · exact absurd hinside (by decide +kernel)
    · exact hsuggest rfl e he
  · obtain ⟨-, -, -, hrequest, -⟩ := withheld_iff 9 (by decide +kernel) hescaped rfl none
    exact hrequest.2 (Or.inl (by decide +kernel))

end EmbeddedSql.Completion
