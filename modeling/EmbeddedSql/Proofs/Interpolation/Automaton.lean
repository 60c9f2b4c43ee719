/-
**Interpolations of escaped and of decoded text.**

The automaton that finds interpolations is made for the text of a query.  Run on the raw content of
a literal it sees escapes where the query has the characters they stand for, and mostly this makes
no difference: a backslash in front changes nothing in plain query text, in a SQL string or in the
code of an expression.  There are two exceptions.  An escaped newline does not end a SQL comment,
and inside an R string of an expression the backslash of the escape hides the character behind it,
which matters if this is a backslash or the quote of the string.

Main definitions:

* `Interpolation.Mode.quotes` — the quotes that the automaton waits for;
* `Interpolation.Mode.misreads` — the exceptions;
* `Interpolation.misread`, `Interpolation.ReadsAlike` — an escape of a raw text that is one of them,
  and a text without any.

Main results:

* `Interpolation.Mode.run_escape_eq_iff` — one escape against the character it stands for;
* `Interpolation.run_take_eq_iff` — **both readings go together exactly if nothing is misread**;
* `Interpolation.inside_decode` — so the raw text tells whether an interpolation is open.
-/

import EmbeddedSql.Proofs.Escape.Offsets
import EmbeddedSql.Proofs.Interpolation.Scanner

set_option relaxedAutoImplicit false
set_option autoImplicit false

namespace EmbeddedSql.Interpolation

/-! ### Quotes -/

/-- The quote that ends an R string. -/
def ExprMode.quotes : ExprMode → List Char
  | .code => []
  | .string q => [q]
  | .escaped q => [q]
  | .quoteSeen q => [q]

namespace Mode

/-- The quotes that the automaton waits for. -/
def quotes : Mode → List Char
  | .string q => [q]
  | .hole outer _ expr => outer.toList ++ expr.quotes
  | _ => []

theorem mem_exprQuotes_of_mem_sqlQuotes {q : Char} (h : q ∈ sqlQuotes) : q ∈ exprQuotes := by
  simp only [sqlQuotes, List.mem_cons, List.not_mem_nil, or_false] at h
  rcases h with rfl | rfl <;> decide

theorem mem_exprQuotes_of_mem_stepSql {c q : Char} (h : q ∈ (stepSql c).quotes) :
    q ∈ exprQuotes := by
  unfold stepSql at h
  split at h
  · simp [quotes] at h
  · split at h
    · next hc =>
        obtain rfl : q = c := by simpa [quotes] using h
        exact mem_exprQuotes_of_mem_sqlQuotes hc
    · split at h <;> simp [quotes, ExprMode.quotes] at h

theorem mem_quotes_of_mem_stepExpr {outer : Option Char} {nested : Nat} {c q : Char}
    (h : q ∈ (stepExpr outer nested c).quotes) : q ∈ outer.toList ∨ q ∈ exprQuotes := by
  unfold stepExpr at h
  split at h
  · next hc =>
      rcases List.mem_append.1 h with h | h
      · exact Or.inl h
      · obtain rfl : q = c := by simpa [ExprMode.quotes] using h
        exact Or.inr hc
  · split at h
    · exact Or.inl (by simpa [quotes, ExprMode.quotes] using h)
    · split at h
      · split at h
        · cases outer with
          | none => simp [resume, quotes] at h
          | some _ => exact Or.inl (by simpa [resume, quotes] using h)
        · exact Or.inl (by simpa [quotes, ExprMode.quotes] using h)
      · exact Or.inl (by simpa [quotes, ExprMode.quotes] using h)

/-- A step leads to no new quotes but those of strings. -/
theorem mem_quotes_of_mem_step {m : Mode} {c q : Char} (h : q ∈ (m.step c).quotes) :
    q ∈ m.quotes ∨ q ∈ exprQuotes := by
  cases m with
  | sql => exact Or.inr (mem_exprQuotes_of_mem_stepSql h)
  | dash =>
      simp only [step] at h
      split at h
      · simp [quotes] at h
      · exact Or.inr (mem_exprQuotes_of_mem_stepSql h)
  | string s =>
      simp only [step] at h
      split at h
      · simp [quotes] at h
      · split at h <;> exact Or.inl (by simpa [quotes, ExprMode.quotes] using h)
  | comment =>
      simp only [step] at h
      split at h <;> simp [quotes] at h
  | hole outer n e =>
      cases e with
      | code =>
          rcases mem_quotes_of_mem_stepExpr h with h | h
          · exact Or.inl (List.mem_append_left _ h)
          · exact Or.inr h
      | string s =>
          simp only [step] at h
          split at h
          · exact Or.inl h
          · split at h <;> exact Or.inl h
      | escaped s => exact Or.inl h
      | quoteSeen s =>
          simp only [step] at h
          split at h
          · exact Or.inl h
          · rcases mem_quotes_of_mem_stepExpr h with h | h
            · exact Or.inl (List.mem_append_left _ h)
            · exact Or.inr h

/-- A run leads to no new quotes but those of strings. -/
theorem mem_exprQuotes_of_mem_run {m : Mode} (hm : ∀ q ∈ m.quotes, q ∈ exprQuotes) (t : Text) :
    ∀ q ∈ (m.run t).quotes, q ∈ exprQuotes := by
  induction t generalizing m with
  | nil => exact hm
  | cons c t ih =>
      refine ih (m := m.step c) ?_
      intro q hq
      rcases mem_quotes_of_mem_step hq with h | h
      · exact hm q h
      · exact h

/-! ### One escape -/

/-- Whether the escape of a character leads the automaton elsewhere than the character does. -/
def misreads : Mode → Char → Bool
  | .comment, c => c == '\n'
  | .hole _ _ (.string q), c => c == '\\' || c == q
  | .hole _ _ (.escaped q), c => c == '\\' || c == q
  | _, _ => false

theorem cases_of_meaning? {d e : Char} (h : Escape.meaning? d = some e) :
    d = e ∧ (e = '\\' ∨ e ∈ exprQuotes) ∨ d = 'n' ∧ e = '\n' ∨ d = 't' ∧ e = '\t' := by
  unfold Escape.meaning? at h
  split at h
  · next hd =>
      obtain rfl := Option.some.inj h
      refine Or.inl ⟨rfl, ?_⟩
      simp only [Bool.or_eq_true, decide_eq_true_eq] at hd
      simp only [exprQuotes, List.mem_cons, List.not_mem_nil, or_false]
      tauto
  · split at h
    · next hd => exact Or.inr (Or.inl ⟨hd, (Option.some.inj h).symm⟩)
    · split at h
      · next hd => exact Or.inr (Or.inr ⟨hd, (Option.some.inj h).symm⟩)
      · simp at h

/-- What is needed of an escape `d` of a character `e`: in code it is read like the character, and
it is told from a quote or a backslash in the same way. -/
structure ReadsAs (d e : Char) : Prop where
  sql : stepSql d = stepSql e
  expr : ∀ outer nested, stepExpr outer nested d = stepExpr outer nested e
  slash : d = '\\' ↔ e = '\\'
  quote : ∀ q ∈ exprQuotes, d = q ↔ e = q
  no_brace : d ≠ '{' ∧ e ≠ '{'
  no_dash : e ≠ '-'
  no_newline : d ≠ '\n'

theorem readsAs_of_meaning? {d e : Char} (h : Escape.meaning? d = some e) : ReadsAs d e := by
  rcases cases_of_meaning? h with ⟨rfl, rfl | hd⟩ | ⟨rfl, rfl⟩ | ⟨rfl, rfl⟩
  · exact ⟨rfl, fun _ _ => rfl, Iff.rfl, fun _ _ => Iff.rfl, by decide, by decide, by decide⟩
  · simp only [exprQuotes, List.mem_cons, List.not_mem_nil, or_false] at hd
    rcases hd with rfl | rfl | rfl <;>
      exact ⟨rfl, fun _ _ => rfl, Iff.rfl, fun _ _ => Iff.rfl, by decide, by decide, by decide⟩
  · exact ⟨by decide, fun _ _ => rfl, by decide, by simp [exprQuotes], by decide, by decide,
      by decide⟩
  · exact ⟨by decide, fun _ _ => rfl, by decide, by simp [exprQuotes], by decide, by decide,
      by decide⟩

theorem ne_slash_of_mem_exprQuotes {q : Char} (h : q ∈ exprQuotes) : '\\' ≠ q := by
  rintro rfl
  exact absurd h (by decide)

theorem stepExpr_of_mem_exprQuotes {q : Char} (h : q ∈ exprQuotes) (outer : Option Char)
    (nested : Nat) : stepExpr outer nested q = .hole outer nested (.string q) := by
  simp [stepExpr, h]

/-- An escape leads where the character it stands for does, unless it is misread. -/
theorem run_escape_eq_iff {m : Mode} (hm : ∀ q ∈ m.quotes, q ∈ exprQuotes) {d e : Char}
    (h : Escape.meaning? d = some e) : m.run ['\\', d] = m.run [e] ↔ m.misreads e = false := by
  have hread := readsAs_of_meaning? h
  have hescape : m.run ['\\', d] = (m.step '\\').step d := rfl
  have hchar : m.run [e] = m.step e := rfl
  rw [hescape, hchar]
  cases m with
  | sql =>
      have hslash : stepSql '\\' = .sql := by decide
      simp [step, hslash, hread.sql, misreads]
  | dash =>
      have hslash : stepSql '\\' = .sql := by decide
      simp [step, hslash, hread.sql, hread.no_dash, misreads]
  | string q =>
      have hq := hm q List.mem_cons_self
      simp [step, ne_slash_of_mem_exprQuotes hq, hread.quote q hq, hread.no_brace, misreads]
  | comment =>
      by_cases he : e = '\n'
      · simp [step, he, hread.no_newline, misreads]
      · simp [step, he, hread.no_newline, misreads]
  | hole outer n expr =>
      have hslash : stepExpr outer n '\\' = .hole outer n .code := rfl
      cases expr with
      | code => simp [step, hslash, hread.expr, misreads]
      | string q =>
          by_cases he : e = '\\'
          · simp [step, he, misreads]
          · by_cases hq : e = q
            · subst hq
              simp [step, he, misreads]
            · simp [step, he, hq, misreads]
      | escaped q =>
          have hmem := hm q (List.mem_append_right _ List.mem_cons_self)
          by_cases he : e = '\\'
          · simp [step, hread.slash, he, misreads]
          · by_cases hq : e = q
            · subst hq
              simp [step, hread.slash, he, hread.quote e hmem, misreads]
            · simp [step, hread.slash, he, hread.quote q hmem, hq, misreads]
      | quoteSeen q =>
          have hmem := hm q (List.mem_append_right _ List.mem_cons_self)
          by_cases hq : e = q
          · -- a quote behind a quote goes on with the string, and so does a new string
            have hd : d = q := (hread.quote q hmem).2 hq
            simp [step, ne_slash_of_mem_exprQuotes hmem, hslash, hd, hq,
              stepExpr_of_mem_exprQuotes hmem, misreads]
          · simp [step, ne_slash_of_mem_exprQuotes hmem, hslash, hread.expr, hq, misreads]

end Mode

/-! ### A text -/

/-- Whether the decoded character number `k` of a raw text is an escape that is misread. -/
def misread (raw : Text) (k : Nat) : Bool :=
  match (Escape.units raw)[k]? with
  | some (e, 2) => (Mode.sql.run ((Escape.decode raw).take k)).misreads e
  | _ => false

/-- No escape of a raw text is misread. -/
def ReadsAlike (raw : Text) : Prop :=
  ∀ k < (Escape.decode raw).length, misread raw k = false

instance (raw : Text) : Decidable (ReadsAlike raw) :=
  inferInstanceAs (Decidable (∀ k < (Escape.decode raw).length, misread raw k = false))

/-- The first decoded character stands there as it is or as an escape. -/
theorem take_of_units_eq_cons {t : Text} {e : Char} {n : Nat} {us : List (Char × Nat)}
    (h : Escape.units t = (e, n) :: us) :
    n = 1 ∧ t.take n = [e] ∨ n = 2 ∧ ∃ d, Escape.meaning? d = some e ∧ t.take n = ['\\', d] := by
  unfold Escape.units at h
  split at h
  · cases h
  · cases h
    exact Or.inl ⟨rfl, rfl⟩
  · next c d rest =>
      split at h
      · next hc =>
          subst hc
          split at h
          · next hmeaning =>
              cases h
              exact Or.inr ⟨rfl, d, hmeaning, rfl⟩
          · cases h
            exact Or.inl ⟨rfl, rfl⟩
      · cases h
        exact Or.inl ⟨rfl, rfl⟩

/-- The raw text before a decoded character, and the raw text of that one behind it. -/
theorem take_offsetAt_succ {raw : Text} {k : Nat} {e : Char} {n : Nat}
    (h : (Escape.units raw)[k]? = some (e, n)) :
    raw.take (Escape.offsetAt raw (k + 1)) =
      raw.take (Escape.offsetAt raw k) ++ (raw.drop (Escape.offsetAt raw k)).take n := by
  have hwidth : Escape.offsetAt raw (k + 1) = Escape.offsetAt raw k + n := by
    rw [Escape.offsetAt_eq, Escape.offsetAt_eq, List.take_add_one, h, Escape.width_append]
    rfl
  rw [hwidth, List.take_add]

/-- One decoded character more: both readings take the same step unless it is misread. -/
theorem run_take_succ_eq_iff {raw : Text} {k : Nat} (hk : k < (Escape.decode raw).length)
    (h : Mode.sql.run (raw.take (Escape.offsetAt raw k)) =
      Mode.sql.run ((Escape.decode raw).take k)) :
    Mode.sql.run (raw.take (Escape.offsetAt raw (k + 1))) =
      Mode.sql.run ((Escape.decode raw).take (k + 1)) ↔ misread raw k = false := by
  have hquotes : ∀ q ∈ (Mode.sql.run ((Escape.decode raw).take k)).quotes, q ∈ exprQuotes :=
    Mode.mem_exprQuotes_of_mem_run (fun q hq => absurd hq List.not_mem_nil) _
  have hlt : k < (Escape.units raw).length := by simpa [Escape.decode] using hk
  obtain ⟨⟨e, n⟩, hget⟩ : ∃ u, (Escape.units raw)[k] = u := ⟨_, rfl⟩
  have hunit : (Escape.units raw)[k]? = some (e, n) := by rw [List.getElem?_eq_getElem hlt, hget]
  have hdecode : (Escape.decode raw).take (k + 1) = (Escape.decode raw).take k ++ [e] := by
    rw [List.take_add_one, Escape.decode, List.getElem?_map, hunit]
    rfl
  have hrest : Escape.units (raw.drop (Escape.offsetAt raw k)) =
      (e, n) :: (Escape.units raw).drop (k + 1) := by
    rw [Escape.offsetAt_eq, Escape.units_drop, List.drop_eq_getElem_cons hlt, hget]
  rw [take_offsetAt_succ hunit, hdecode, Mode.run_append, Mode.run_append, h]
  rcases take_of_units_eq_cons hrest with ⟨rfl, hraw⟩ | ⟨rfl, d, hmeaning, hraw⟩
  · simp [hraw, misread, hunit]
  · simpa [hraw, misread, hunit] using Mode.run_escape_eq_iff hquotes hmeaning

/-- **Both readings go together exactly if nothing is misread.** -/
theorem run_take_eq_iff (raw : Text) :
    (∀ k ≤ (Escape.decode raw).length, Mode.sql.run (raw.take (Escape.offsetAt raw k)) =
      Mode.sql.run ((Escape.decode raw).take k)) ↔ ReadsAlike raw := by
  constructor
  · intro h k hk
    exact (run_take_succ_eq_iff hk (h k (by omega))).1 (h (k + 1) hk)
  · intro h k hk
    induction k with
    | zero => simp [Escape.offsetAt_eq]
    | succ k ih => exact (run_take_succ_eq_iff hk (ih (by omega))).2 (h k hk)

/-- Where nothing is misread the raw text tells whether an interpolation is open. -/
theorem inside_decode {raw : Text} (h : ReadsAlike raw) :
    inside raw raw.length = inside (Escape.decode raw) (Escape.decode raw).length := by
  have hend : Escape.offsetAt raw (Escape.decode raw).length = raw.length := by
    rw [Escape.offsetAt_eq, Escape.decode, List.length_map, List.take_length]
    exact Escape.sum_units raw
  rw [inside_eq, inside_eq, ← (run_take_eq_iff raw).2 h _ (Nat.le_refl _), hend]

end EmbeddedSql.Interpolation
