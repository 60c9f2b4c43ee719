/-
**Which literals are formatted.**

The formatter decodes the content of a literal, formats it and encodes the result.  Encoding cannot
write everything that decoding can read: an escaped newline or tab comes back as the character, an
escape of some other quote loses its backslash, a backslash that hides nothing gets another one.  A
literal in which any of this stands would change where the formatter meant to change nothing, so it
is left alone.

Main results:

* `Formatting.exists_target_iff` — a query is formatted if its content survives decoding and
  encoding;
* `Formatting.escaping_undone` — **scanning and decoding undo encoding**, and exactly the content
  that encoding writes is formatted.
-/

import EmbeddedSql.Proofs.Formatting.Edit

set_option relaxedAutoImplicit false
set_option autoImplicit false

namespace EmbeddedSql.Formatting

/-- A query is formatted if its content survives decoding and encoding. -/
theorem exists_target_iff {d : Detection} {doc : Document} {p : Position} {query : Query}
    (h : Cursor.query? d doc p = some query) :
    (∃ t, target d doc p = .ok t) ↔
      Escape.encode query.quote (Escape.decode (doc.textIn query.range)) =
        doc.textIn query.range := by
  simp only [target, h, bne_iff_ne, ne_eq, ite_not]
  split
  · next heq => exact ⟨fun _ => heq, fun _ => ⟨_, rfl⟩⟩
  · next hne =>
      constructor
      · rintro ⟨t, ht⟩
        cases ht
      · intro heq
        exact absurd heq hne

/-- **Scanning and decoding undo encoding**: the quote that was written behind the content is the
one that is found, and the content decodes to the text it was made of.  So what survives decoding
and encoding is what encoding writes, and the queries with such content are those that are
formatted. -/
theorem escaping_undone {quote : Char} (hquote : quote ∈ Marks.r.quotes) :
    (∀ before t behind : Text,
      let text := before ++ quote :: (Escape.encode quote t ++ quote :: behind)
      Literal.closingQuote? text (before.length + 1) quote text.length =
          some (before.length + 1 + (Escape.encode quote t).length) ∧
        Escape.decode (Escape.encode quote t) = t) ∧
    (∀ raw, (Escape.encode quote (Escape.decode raw) = raw ↔ ∃ t, raw = Escape.encode quote t) ∧
      ((∃ t, raw = Escape.encode quote t) ↔ Escape.Written quote raw)) ∧
    ∀ (d : Detection) (doc : Document) (p : Position) (query : Query),
      Cursor.query? d doc p = some query → query.quote = quote →
        ((∃ t, target d doc p = .ok t) ↔
          ∃ t, doc.textIn query.range = Escape.encode quote t) := by
  obtain ⟨hslash, hmeaning, -⟩ := of_mem_quotes_r hquote
  have hdecode := Escape.decode_encode hslash hmeaning
  have hsurvives : ∀ raw, Escape.encode quote (Escape.decode raw) = raw ↔
      ∃ t, raw = Escape.encode quote t := by
    intro raw
    constructor
    · intro h
      exact ⟨Escape.decode raw, h.symm⟩
    · rintro ⟨t, rfl⟩
      rw [hdecode]
  refine ⟨?_, ?_, ?_⟩
  · intro before t behind
    exact ⟨Escape.closingQuote?_encode hslash before t behind, hdecode t⟩
  · intro raw
    exact ⟨hsurvives raw,
      (hsurvives raw).symm.trans (Escape.encode_decode_eq_iff hslash hmeaning raw)⟩
  · rintro d doc p query hquery rfl
    exact (exists_target_iff hquery).trans (hsurvives _)

/-- Content with a backslash before a quote and one at its end.  Of two literals with the same
query, the one with an escaped newline is left alone. -/
theorem escaping_undone_at_backslash :
    let t := "a\\\"b\\".toList
    let text := "f(".toList ++ '"' :: (Escape.encode '"' t ++ '"' :: ", \"c\")".toList)
    let doc : Document := ⟨"", "dbGetQuery(con, \"a\\nb\")".toList, 0⟩
    '"' ∈ Marks.r.quotes ∧ Escape.encode '"' t = "a\\\\\\\"b\\\\".toList ∧
      Literal.closingQuote? text 3 '"' text.length = some 11 ∧
      Escape.decode (Escape.encode '"' t) = t ∧
      (Cursor.query? {} doc ⟨0, 18⟩).map (·.text) = some "a\nb".toList ∧
      ¬ ∃ t, target {} doc ⟨0, 18⟩ = .ok t := by
  intro t text doc
  have hquote : '"' ∈ Marks.r.quotes := by decide
  have hencode : Escape.encode '"' t = "a\\\\\\\"b\\\\".toList := by decide
  have hquery : Cursor.query? {} doc ⟨0, 18⟩ =
      some ⟨"a\nb".toList, ⟨⟨0, 17⟩, ⟨0, 21⟩⟩, "dbGetQuery", false, false, '"'⟩ := by decide +kernel
  obtain ⟨hundone, hwritten, htarget⟩ := escaping_undone hquote
  obtain ⟨hclosing, hdecode⟩ := hundone "f(".toList t ", \"c\")".toList
  have hoffset : "f(".toList.length + 1 + (Escape.encode '"' t).length = 11 := by decide
  rw [hoffset] at hclosing
  refine ⟨hquote, hencode, hclosing, hdecode, by rw [hquery]; rfl, ?_⟩
  rw [htarget {} doc ⟨0, 18⟩ _ hquery rfl, ← (hwritten _).1]
  decide +kernel

end EmbeddedSql.Formatting
