/-
**What the lexer keeps of the text before.**

Behind a brace the lexer goes on with a comment or a string that is still open, and identifiers look
back at the last keyword.  Nothing else of the text before matters to the tokens behind, neither for
their kinds nor for their types.

Main definitions:

* `Highlight.typed` — the tokens that are not skipped, with their types;
* `Highlight.lastKeyword` — the keyword that the tokens behind some tokens look back at;
* `Highlight.Residue`, `Highlight.residue` — what is kept of a text;
* `Highlight.tokensBefore`, `Highlight.tokensBehind` — the tokens before a brace, and those behind
  one by what is kept.

Main results:

* `Highlight.typed_append`, `Highlight.typed_map`, `Highlight.typed_congr` — what types depend on;
* `Highlight.touches_append_left`, `Highlight.touches_append_right` — the holes on either side of a
  cut;
* `Highlight.filter_stop_le` — **the tokens before a brace** are those of the text up to it;
* `Highlight.filter_le_offset` — **the tokens behind a hole** come from the residue.
-/

import EmbeddedSql.Proofs.Highlight.Place
import EmbeddedSql.Proofs.Interpolation.Spans
import EmbeddedSql.Proofs.Token.Braces

set_option relaxedAutoImplicit false
set_option autoImplicit false

namespace EmbeddedSql.Highlight

open Interpolation Vocabulary

/-! ### Types of tokens -/

/-- The last keyword of some tokens as a word, or the one before them. -/
def lastKeyword (previous : String) (ts : List Token) : String :=
  ts.foldl (fun previous t => if t.kind = .keyword then upperWord t.text else previous) previous

/-- The tokens that touch nothing skipped, each with its type. -/
def typed (skipped : List (Nat × Nat)) (previous : String) (ts : List Token) :
    List (Token × String) :=
  (withKeywords skipped previous ts).map fun x => (x.1, classify x.1.kind x.1.text x.2)

theorem lastKeyword_cons (previous : String) (t : Token) (ts : List Token) :
    lastKeyword previous (t :: ts) = lastKeyword (lastKeyword previous [t]) ts :=
  rfl

theorem typed_cons (skipped : List (Nat × Nat)) (previous : String) (t : Token)
    (ts : List Token) :
    typed skipped previous (t :: ts) =
      if touches skipped t then typed skipped (lastKeyword previous [t]) ts
      else (t, classify t.kind t.text (lastKeyword previous [t])) ::
        typed skipped (lastKeyword previous [t]) ts := by
  simp only [typed, withKeywords, lastKeyword, List.foldl_cons, List.foldl_nil]
  split <;> rfl

theorem typed_append (skipped : List (Nat × Nat)) (previous : String) (ts us : List Token) :
    typed skipped previous (ts ++ us) =
      typed skipped previous ts ++ typed skipped (lastKeyword previous ts) us := by
  induction ts generalizing previous with
  | nil => rfl
  | cons t ts ih =>
      rw [List.cons_append, typed_cons, typed_cons, ih, lastKeyword_cons]
      split <;> rfl

/-- Tokens of a list with types are tokens that touch nothing skipped. -/
theorem of_mem_typed {skipped : List (Nat × Nat)} {previous : String} {ts : List Token}
    {x : Token × String} (hx : x ∈ typed skipped previous ts) :
    x.1 ∈ ts ∧ touches skipped x.1 = false := by
  obtain ⟨y, hy, rfl⟩ := List.mem_map.1 hx
  have hfst := List.mem_map_of_mem (f := Prod.fst) hy
  rw [map_fst_withKeywords] at hfst
  simpa using List.mem_filter.1 hfst

/-- A token that is exchanged for another one of its kind; the text of a keyword stays. -/
structure Keeps (f : Token → Token) (t : Token) : Prop where
  kind_eq : (f t).kind = t.kind
  text_eq : t.kind = .keyword → (f t).text = t.text

theorem Keeps.lastKeyword_eq {f : Token → Token} {t : Token} (h : Keeps f t)
    (previous : String) : lastKeyword previous [f t] = lastKeyword previous [t] := by
  simp only [lastKeyword, List.foldl_cons, List.foldl_nil, h.kind_eq]
  split
  · next hkind => rw [h.text_eq hkind]
  · rfl

theorem lastKeyword_map {f : Token → Token} {ts : List Token} (h : ∀ t ∈ ts, Keeps f t)
    (previous : String) : lastKeyword previous (ts.map f) = lastKeyword previous ts := by
  induction ts generalizing previous with
  | nil => rfl
  | cons t ts ih =>
      obtain ⟨ht, hts⟩ := List.forall_mem_cons.1 h
      rw [List.map_cons, lastKeyword_cons, lastKeyword_cons previous t, ht.lastKeyword_eq, ih hts]

/-- Where tokens are exchanged and the others are skipped, types stay. -/
theorem typed_map {skipped skipped' : List (Nat × Nat)} {f g : Token → Token} {ts : List Token}
    (hkeeps : ∀ t ∈ ts, Keeps f t)
    (htouches : ∀ t ∈ ts, touches skipped (f t) = touches skipped' t)
    (hseen : ∀ t ∈ ts, touches skipped' t = false → f t = g t ∧ (g t).text = t.text)
    (previous : String) :
    typed skipped previous (ts.map f) =
      (typed skipped' previous ts).map fun x => (g x.1, x.2) := by
  induction ts generalizing previous with
  | nil => rfl
  | cons t ts ih =>
      obtain ⟨hkeep, hkeeps⟩ := List.forall_mem_cons.1 hkeeps
      obtain ⟨htouch, htouches⟩ := List.forall_mem_cons.1 htouches
      obtain ⟨hsee, hseen⟩ := List.forall_mem_cons.1 hseen
      rw [List.map_cons, typed_cons, typed_cons, htouch, hkeep.lastKeyword_eq,
        ih hkeeps htouches hseen]
      cases hskip : touches skipped' t with
      | true => rfl
      | false =>
          obtain ⟨heq, htext⟩ := hsee hskip
          rw [hkeep.kind_eq, heq, htext]
          rfl

theorem classify_congr {previous previous' : String}
    (h : tableKeywords.contains previous = tableKeywords.contains previous') (kind : TokenKind)
    (text : Text) : classify kind text previous = classify kind text previous' := by
  cases kind with
  | identifier => simp only [classify, h]
  | _ => rfl

/-- All that matters of the keyword before is whether tables follow it. -/
theorem typed_congr {previous previous' : String}
    (h : tableKeywords.contains previous = tableKeywords.contains previous')
    (skipped : List (Nat × Nat)) (ts : List Token) :
    typed skipped previous ts = typed skipped previous' ts := by
  induction ts generalizing previous previous' with
  | nil => rfl
  | cons t ts ih =>
      have hlast : tableKeywords.contains (lastKeyword previous [t]) =
          tableKeywords.contains (lastKeyword previous' [t]) := by
        simp only [lastKeyword, List.foldl_cons, List.foldl_nil]
        split
        · rfl
        · exact h
      rw [typed_cons, typed_cons, ih hlast, classify_congr hlast]

/-! ### Residues -/

/-- What is kept of a text: the first character of the comment or string that is open, and whether
tables follow the last keyword. -/
structure Residue where
  opener : Option Char
  table : Bool
  deriving Repr, DecidableEq

/-- What is kept of a text that ends with a brace. -/
def residue (s : Text) : Residue :=
  ⟨Token.opener s.length (Token.lex keywords s),
    tableKeywords.contains (lastKeyword "" (Token.lex keywords s))⟩

namespace Residue

/-- A keyword with the given effect. -/
def keyword (ρ : Residue) : String :=
  if ρ.table then "FROM" else ""

theorem contains_keyword (ρ : Residue) : tableKeywords.contains ρ.keyword = ρ.table := by
  cases hρ : ρ.table <;> simp only [keyword, hρ] <;> decide +kernel

/-- How much of a text belongs to the comment or string that is open before it. -/
def length (ρ : Residue) (t : Text) : Nat :=
  Token.tailLength ρ.opener t

/-- All residues. -/
def all : List Residue :=
  [none, some '-', some '\'', some '"'].flatMap fun o => [⟨o, true⟩, ⟨o, false⟩]

end Residue

theorem residue_mem_all {s : Text} (hs : Token.EndsInBrace s) : residue s ∈ Residue.all := by
  have hopener : ∀ o ∈ [none, some '-', some '\'', some '"'], ∀ b, ⟨o, b⟩ ∈ Residue.all := by
    decide
  refine hopener _ ?_ _
  cases hfind : (Token.lex keywords s).find? (·.stop = s.length) with
  | none => simp [Token.opener, hfind]
  | some t =>
      have hstop : t.stop = s.length := by simpa using List.find?_some hfind
      have hlexed := Token.lexed_lex keywords s
      rw [Token.opener, hfind, Option.bind_some]
      rcases hlexed.open_at_brace (Or.inr hs) (List.mem_of_find?_eq_some hfind) (by omega) with
        ⟨-, hhead⟩ | ⟨-, hhead | hhead⟩ <;> simp [hhead]

/-- The tokens behind a text with a residue, each with its type; `m` is the mode in which the text
is read. -/
def tokensBehind (m : Mode) (ρ : Residue) (t : Text) : List (Token × String) :=
  typed (spansIn m t) ρ.keyword
    (Token.lexFrom keywords 0 (ρ.length t) (t.drop (ρ.length t)))

/-! ### The holes on either side of a cut -/

theorem touches_iff {skipped : List (Nat × Nat)} {t : Token} :
    touches skipped t = true ↔ ∃ lo hi, (lo, hi) ∈ skipped ∧ lo < t.stop ∧ t.offset < hi := by
  simp [touches]

section Cut

variable {s : Text} (hs : (Mode.sql.run s).isHole = false)

include hs

theorem touches_append_left {t : Token} (ht : t.stop ≤ s.length) (v : Text) :
    touches (spans (s ++ v)) t = touches (spans s) t := by
  rw [Bool.eq_iff_iff, touches_iff, touches_iff]
  refine exists_congr fun lo => exists_congr fun hi => ?_
  rw [mem_spans_iff, mem_spans_iff]
  constructor
  · rintro ⟨hhole, hlo, hhi⟩
    have hend : hi ≤ s.length := (hhole.left_or_right hs).resolve_right (by omega)
    exact ⟨(holeAt_append_left hend v).1 hhole, hlo, hhi⟩
  · rintro ⟨hhole, hlo, hhi⟩
    exact ⟨(holeAt_append_left hhole.le v).2 hhole, hlo, hhi⟩

theorem touches_append_right (t : Token) (v : Text) :
    touches (spans (s ++ v)) (t.shift s.length) = touches (spansIn (Mode.sql.run s) v) t := by
  rw [Bool.eq_iff_iff, touches_iff, touches_iff]
  simp only [Token.shift_stop, Token.shift_offset, mem_spans_iff, mem_spansIn_iff hs]
  constructor
  · rintro ⟨lo, hi, hhole, hlo, hhi⟩
    have hstart : s.length ≤ lo := (hhole.left_or_right hs).resolve_left (by omega)
    obtain ⟨lo, rfl⟩ := Nat.exists_eq_add_of_le hstart
    obtain ⟨hi, rfl⟩ := Nat.exists_eq_add_of_le (show s.length ≤ hi by omega)
    exact ⟨lo, hi, (holeAt_append_right s v lo hi).1 hhole, by omega, by omega⟩
  · rintro ⟨lo, hi, hhole, hlo, hhi⟩
    exact ⟨_, _, (holeAt_append_right s v lo hi).2 hhole, by omega, by omega⟩

end Cut

/-! ### Tokens on either side of a hole -/

/-- The token that is open behind a brace is no keyword. -/
theorem keeps_extend {s : Text} (hs : Token.EndsInBrace s) (v : Text) {t : Token}
    (ht : t ∈ Token.lex keywords s) : Keeps (Token.extend s.length v) t where
  kind_eq := Token.extend_kind _ v t
  text_eq := by
    intro hkind
    have hstop : t.stop ≠ s.length := by
      intro hstop
      have hlexed := Token.lexed_lex keywords s
      rcases hlexed.open_at_brace (Or.inr hs) ht (by omega) with ⟨hopen, -⟩ | ⟨hopen, -⟩
      · simp [hkind] at hopen
      · simp [hkind] at hopen
    rw [Token.extend_of_ne hstop]

/-- The tokens of a text that goes on behind a brace, with their types. -/
theorem typed_lex_append {s : Text} (hs : Token.EndsInBrace s) (skipped : List (Nat × Nat))
    (v : Text) :
    typed skipped "" (Token.lex keywords (s ++ v)) =
      typed skipped "" ((Token.lex keywords s).map
        (Token.extend s.length (v.take ((residue s).length v)))) ++
      typed skipped (lastKeyword "" (Token.lex keywords s))
        ((Token.lexFrom keywords 0 ((residue s).length v) (v.drop ((residue s).length v))).map
          (Token.shift s.length)) := by
  have happend := (Token.lexed_lex keywords s).append (Or.inr hs) v
  rw [Nat.zero_add, Token.lexFrom_add] at happend
  rw [← lastKeyword_map (fun t ht => keeps_extend hs (v.take ((residue s).length v)) ht) "",
    ← typed_append]
  exact congrArg (typed skipped "") happend

/-- The tokens before an interpolation, by the text before it. -/
def tokensBefore (u : Text) : List (Token × String) :=
  typed (spans u ++ [(u.length, u.length + 1)]) "" (Token.lex keywords (u ++ ['{']))

theorem length_append_brace (u : Text) : (u ++ ['{']).length = u.length + 1 := by
  simp

theorem bounds_of_mem_lex {u : Text} {t : Token} (ht : t ∈ Token.lex keywords (u ++ ['{'])) :
    t.offset < t.stop ∧ t.stop ≤ u.length + 1 := by
  obtain ⟨-, hlt, hle, -⟩ := (Token.lexed_lex keywords _).slice_eq ht
  rw [length_append_brace] at hle
  exact ⟨hlt, by omega⟩

/-- A token that does not touch the brace ends before it. -/
theorem stop_le_of_touches {u : Text} {t : Token} (ht : t ∈ Token.lex keywords (u ++ ['{']))
    (hskip : touches (spans u ++ [(u.length, u.length + 1)]) t = false) : t.stop ≤ u.length := by
  obtain ⟨hlt, hle⟩ := bounds_of_mem_lex ht
  by_contra hreaches
  have htouches : touches (spans u ++ [(u.length, u.length + 1)]) t = true :=
    touches_iff.2 ⟨_, _, List.mem_append_right _ List.mem_cons_self, by omega, by omega⟩
  rw [hskip] at htouches
  exact Bool.false_ne_true htouches

theorem stop_le_of_mem_tokensBefore {u : Text} {x : Token × String} (hx : x ∈ tokensBefore u) :
    x.1.stop ≤ u.length := by
  obtain ⟨hmem, hskip⟩ := of_mem_typed hx
  exact stop_le_of_touches hmem hskip

/-- With more text behind the brace, a token is skipped as it was. -/
theorem touches_extend {u v : Text} {hi : Nat} (h : HoleAt .sql (u ++ '{' :: v) u.length hi)
    {t : Token} (ht : t ∈ Token.lex keywords (u ++ ['{'])) (w : Text) :
    touches (spans (u ++ '{' :: v)) (Token.extend (u.length + 1) w t) =
      touches (spans u ++ [(u.length, u.length + 1)]) t := by
  obtain ⟨hlt, hle⟩ := bounds_of_mem_lex ht
  have hu : (Mode.sql.run u).isHole = false := by simpa using h.before
  rcases Nat.eq_or_lt_of_le hle with heq | hbefore
  · -- the token reaches the brace and touches the interpolation
    have hhi := h.lt
    have hextend : Token.extend (u.length + 1) w t = { t with text := t.text ++ w } := if_pos heq
    have hbrace : touches (spans u ++ [(u.length, u.length + 1)]) t = true :=
      touches_iff.2 ⟨_, _, List.mem_append_right _ List.mem_cons_self, by omega, by omega⟩
    rw [hbrace, hextend]
    refine touches_iff.2 ⟨_, _, mem_spans_iff.2 h, ?_, ?_⟩
    · simp only [Token.stop, List.length_append] at heq ⊢
      omega
    · simp only
      omega
  · have hnot : ¬ u.length < t.stop := by omega
    rw [Token.extend_of_ne (Nat.ne_of_lt hbefore), touches_append_left hu (by omega), touches,
      touches, List.any_append]
    simp [hnot]

/-- **The tokens before a brace** are those of the text up to it. -/
theorem filter_stop_le {u v : Text} {hi : Nat} (h : HoleAt .sql (u ++ '{' :: v) u.length hi) :
    (typed (spans (u ++ '{' :: v)) "" (Token.lex keywords (u ++ '{' :: v))).filter
      (fun x => x.1.stop ≤ u.length) = tokensBefore u := by
  have hs : Token.EndsInBrace (u ++ ['{']) := Or.inl (by simp)
  have htext : u ++ '{' :: v = u ++ ['{'] ++ v := by simp
  have hfront : ∀ w, typed (spans (u ++ '{' :: v)) ""
      ((Token.lex keywords (u ++ ['{'])).map (Token.extend (u.length + 1) w)) = tokensBefore u := by
    intro w
    have hkeeps : ∀ t ∈ Token.lex keywords (u ++ ['{']), Keeps (Token.extend (u.length + 1) w) t :=
      fun t ht => length_append_brace u ▸ keeps_extend hs w ht
    have hseen : ∀ t ∈ Token.lex keywords (u ++ ['{']),
        touches (spans u ++ [(u.length, u.length + 1)]) t = false →
          Token.extend (u.length + 1) w t = id t ∧ (id t).text = t.text := by
      intro t ht hskip
      have hle := stop_le_of_touches ht hskip
      exact ⟨Token.extend_of_ne (by omega) w, rfl⟩
    rw [typed_map hkeeps (fun t ht => touches_extend h ht w) hseen ""]
    exact List.map_id _
  have hsplit := typed_lex_append hs (spans (u ++ '{' :: v)) v
  rw [← htext, length_append_brace, hfront] at hsplit
  rw [hsplit, List.filter_append, List.filter_eq_self.2, List.filter_eq_nil_iff.2, List.append_nil]
  · intro x hx
    obtain ⟨t, -, ht⟩ := List.mem_map.1 (of_mem_typed hx).1
    rw [← ht, Token.shift_stop]
    simp
    omega
  · intro x hx
    simpa using stop_le_of_mem_tokensBefore hx

/-- **The tokens behind a hole** come from the residue of the text up to them. -/
theorem filter_le_offset {s : Text} (hs : Token.EndsInBrace s)
    (hhole : (Mode.sql.run s).isHole = false) (v : Text) :
    (typed (spans (s ++ v)) "" (Token.lex keywords (s ++ v))).filter
      (fun x => s.length ≤ x.1.offset) =
      (tokensBehind (Mode.sql.run s) (residue s) v).map fun x => (x.1.shift s.length, x.2) := by
  have hfront : ∀ x ∈ typed (spans (s ++ v)) "" ((Token.lex keywords s).map
      (Token.extend s.length (v.take ((residue s).length v)))),
      ¬ s.length ≤ x.1.offset := by
    intro x hx
    obtain ⟨t, ht, heq⟩ := List.mem_map.1 (of_mem_typed hx).1
    obtain ⟨-, hlt, hle, -⟩ := (Token.lexed_lex keywords s).slice_eq ht
    rw [← heq, Token.extend_offset]
    omega
  have hlast : tableKeywords.contains (lastKeyword "" (Token.lex keywords s)) =
      tableKeywords.contains (residue s).keyword := (residue s).contains_keyword.symm
  have hback : ∀ us, typed (spans (s ++ v)) (lastKeyword "" (Token.lex keywords s))
      (us.map (Token.shift s.length)) =
      (typed (spansIn (Mode.sql.run s) v) (residue s).keyword us).map
        fun x => (x.1.shift s.length, x.2) := by
    intro us
    rw [typed_congr hlast]
    have hkeeps : ∀ t ∈ us, Keeps (Token.shift s.length) t := fun t _ => ⟨rfl, fun _ => rfl⟩
    exact typed_map hkeeps (fun t _ => touches_append_right hhole t v) (fun t _ _ => ⟨rfl, rfl⟩) _
  rw [typed_lex_append hs, List.filter_append, List.filter_eq_nil_iff.2 (by simpa using hfront),
    List.nil_append, hback, List.filter_eq_self.2]
  · rfl
  · intro x hx
    obtain ⟨y, -, rfl⟩ := List.mem_map.1 hx
    simp

end EmbeddedSql.Highlight
