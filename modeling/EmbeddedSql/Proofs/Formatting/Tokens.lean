/-
**Indentation and the tokens of a query.**

A formatted query is indented when it is written back.  Blanks between tokens do not matter, but a
string of the query may run over several lines, and then the margin comes in between.  So
indentation does to every token what it does to a text.

Main definitions:

* `Token.shapes` — kinds and texts of the tokens of a text.

Main results:

* `Formatting.Indented.lexeme?_eq` — what starts at a character is the same lexeme as before, unless
  it is a string;
* `Formatting.Indented.drop_stringTail` — behind a string the texts go on like before;
* `Formatting.shapes_indent` — **the tokens of an indented query** are those of the query, each one
  indented;
* `Formatting.shapes_indent_eq_self_iff` — they are the same exactly if none of them has a line
  break in it.
-/

import Mathlib.Data.List.Basic
import EmbeddedSql.Proofs.Formatting.Indentation
import EmbeddedSql.Proofs.Token.Lexed

set_option relaxedAutoImplicit false
set_option autoImplicit false

namespace EmbeddedSql

open Text

/-! ### Tokens without their offsets -/

namespace Token

/-- Kind and text of a token. -/
def shape (t : Token) : TokenKind × Text :=
  (t.kind, t.text)

/-- Kinds and texts of the tokens of a text. -/
def shapes (keywords : List String) (t : Text) : List (TokenKind × Text) :=
  (lex keywords t).map shape

variable {keywords : List String}

theorem Lexed.map_shape {i : Nat} {t : Text} {ts : List Token} (h : Lexed keywords i t ts)
    (j : Nat) : (lexFrom keywords 0 j t).map shape = ts.map shape := by
  induction h generalizing j with
  | nil => rw [lexFrom_nil]
  | skip hnone _ ih => rw [lexFrom_of_none hnone, ih]
  | token hsome _ ih => rw [lexFrom_of_lexeme hsome, List.map_cons, List.map_cons, ih]; rfl

theorem map_shape_lexFrom (i : Nat) (t : Text) :
    (lexFrom keywords 0 i t).map shape = shapes keywords t :=
  (lexed_lex keywords t).map_shape i

@[simp] theorem shapes_nil : shapes keywords [] = [] := by
  rw [shapes, lex, lexFrom_nil, List.map_nil]

theorem shapes_of_none {c : Char} {t : Text} (h : lexeme? keywords (c :: t) = none) :
    shapes keywords (c :: t) = shapes keywords t := by
  rw [shapes, lex, lexFrom_of_none h, map_shape_lexFrom]

theorem shapes_of_lexeme {t : Text} {kind : TokenKind} {n : Nat}
    (h : lexeme? keywords t = some (kind, n)) :
    shapes keywords t = (kind, t.take n) :: shapes keywords (t.drop n) := by
  rw [shapes, lex, lexFrom_of_lexeme h, List.map_cons, map_shape_lexFrom]
  rfl

/-- Blanks are passed over. -/
theorem shapes_append_of_blank {u : Text} (hu : isAllBlank u = true) (t : Text) :
    shapes keywords (u ++ t) = shapes keywords t := by
  induction u with
  | nil => rfl
  | cons c u ih =>
      obtain ⟨hc, hu⟩ : isBlank c = true ∧ isAllBlank u = true := by simpa [isAllBlank] using hu
      rw [List.cons_append, shapes_of_none (lexeme?_of_isBlank hc _), ih hu]

/-! ### The end of a string -/

theorem stringTail_append_of_not_mem {quote : Char} {u : Text} (hu : quote ∉ u) (t : Text) :
    stringTail quote (u ++ t) = u.length + stringTail quote t := by
  induction u with
  | nil => simp
  | cons c u ih =>
      obtain ⟨hc, hu⟩ : quote ≠ c ∧ quote ∉ u := by simpa using hu
      rw [List.cons_append, stringTail_cons_of_ne (Ne.symm hc), ih hu, List.length_cons]
      omega

theorem drop_stringTail_append {quote : Char} {u : Text} (hu : quote ∉ u) (t : Text) :
    (u ++ t).drop (stringTail quote (u ++ t)) = t.drop (stringTail quote t) := by
  rw [stringTail_append_of_not_mem hu, List.drop_append]
  simp

/-- A string ends with its quote, or with the text. -/
theorem getLast?_take_stringTail (quote : Char) (t : Text) :
    (t.take (stringTail quote t)).getLast? = some quote ∨ t.drop (stringTail quote t) = [] := by
  fun_induction stringTail quote t with
  | case1 => exact Or.inr rfl
  | case2 => exact Or.inr rfl
  | case3 t ih =>
      rcases ih with ih | ih
      · exact Or.inl (by simp [List.getLast?_cons, ih])
      · exact Or.inr (by simpa using ih)
  | case4 d t hd => exact Or.inl (by simp)
  | case5 c d t hc ih =>
      rcases ih with ih | ih
      · exact Or.inl (by simp [List.getLast?_cons, ih])
      · exact Or.inr (by simpa using ih)

/-! ### Lexemes on one line -/

theorem newline_not_mem_takeWhile {p : Char → Bool} (hp : p '\n' = false) (t : Text) :
    '\n' ∉ t.take (t.takeWhile p).length := by
  rw [← List.prefix_iff_eq_take.1 (List.takeWhile_prefix p)]
  intro hmem
  have hall := List.all_takeWhile (p := p) (l := t)
  rw [List.all_eq_true] at hall
  simp [hall '\n' hmem] at hp

theorem isDigit_newline : isDigit '\n' = false := by decide +kernel

theorem isWord_newline : isWord '\n' = false := by decide +kernel

theorem newline_not_mem_number (t : Text) : '\n' ∉ t.take (numberLength t) := by
  have hwhole := newline_not_mem_takeWhile isDigit_newline t
  unfold numberLength
  dsimp only
  split
  · next rest hrest =>
      split
      · exact hwhole
      · -- digits, the dot, and digits again
        have hfraction := newline_not_mem_takeWhile isDigit_newline rest
        rw [Nat.add_assoc, List.take_add, hrest, Nat.add_comm 1, List.take_succ_cons]
        simp [hwhole, hfraction]
  · exact hwhole

/-- A lexeme other than a string stands on one line. -/
theorem newline_not_mem_lexeme {c : Char} {t : Text} {kind : TokenKind} {n : Nat} (hc : c ≠ '\n')
    (hquote : (decide (c = '\'') || decide (c = '"')) = false)
    (h : lexeme? keywords (c :: t) = some (kind, n)) : '\n' ∉ (c :: t).take n := by
  cases lexeme_of_eq_some h with
  | comment _ => exact newline_not_mem_takeWhile (by simp) (c :: t)
  | string hstring => exact absurd hstring (by simpa using hquote)
  | number _ => exact newline_not_mem_number (c :: t)
  | word _ => exact newline_not_mem_takeWhile isWord_newline (c :: t)
  | twoChars hop hpre =>
      have hops : ∀ op ∈ twoCharOperators, op.length = 2 ∧ '\n' ∉ op := by decide
      obtain ⟨hlen, hplain⟩ := hops _ hop
      rw [List.prefix_iff_eq_take, hlen] at hpre
      exact hpre ▸ hplain
  | oneChar _ => simp [Ne.symm hc]

end Token

namespace Formatting

open Token

variable {margin : Text} {keywords : List String}

namespace Indented

variable {t t' : Text}

/-- One character of a text stays, and behind a newline blanks are exchanged for blanks. -/
theorem cons_cases (hmargin : isAllBlank margin = true) {c : Char}
    (h : Indented margin (c :: t) t') :
    (c ≠ '\n' ∧ ∃ x, t' = c :: x ∧ Indented margin t x) ∨
      (c = '\n' ∧ ∃ u u' x, isAllBlank u = true ∧ isAllBlank u' = true ∧
        t' = '\n' :: (u' ++ x) ∧ Indented margin t (u ++ x)) := by
  generalize hs : c :: t = s at h
  cases h with
  | nil => simp at hs
  | @keep c' s x hc h =>
      obtain ⟨rfl, rfl⟩ := List.cons.inj hs
      exact Or.inl ⟨hc, x, rfl, h⟩
  | @line s x _ h =>
      obtain ⟨rfl, rfl⟩ := List.cons.inj hs
      exact Or.inr ⟨rfl, [], margin, x, rfl, hmargin, rfl, h⟩
  | @blank u s x hall hu _ h =>
      obtain ⟨rfl, rfl⟩ := List.cons.inj hs
      exact Or.inr ⟨rfl, u, [], x, hall, rfl, rfl, h.keep_all hu⟩

theorem eq_nil (h : Indented margin [] t') : t' = [] := by
  cases h
  rfl

/-! ### Lexemes of an indented text -/

theorem head?_eq (h : Indented margin t t') : t'.head? = t.head? := by
  cases h <;> rfl

/-- Nothing changes before the first newline. -/
theorem take_drop (h : Indented margin t t') {k : Nat} (hk : '\n' ∉ t.take k) :
    t'.take k = t.take k ∧ Indented margin (t.drop k) (t'.drop k) := by
  induction h generalizing k with
  | nil => simpa using Indented.nil
  | @keep c t t' hc h ih =>
      cases k with
      | zero => exact ⟨rfl, keep hc h⟩
      | succ k =>
          obtain ⟨htake, hdrop⟩ := ih (fun hmem => hk (List.mem_cons_of_mem c hmem))
          exact ⟨congrArg (c :: ·) htake, hdrop⟩
  | line hvisible h _ =>
      cases k with
      | zero => exact ⟨rfl, line hvisible h⟩
      | succ k => simp at hk
  | blank hall hu ht h _ =>
      cases k with
      | zero => exact ⟨rfl, blank hall hu ht h⟩
      | succ k => simp at hk

theorem takeWhile_eq (h : Indented margin t t') {p : Char → Bool} (hp : p '\n' = false) :
    t'.takeWhile p = t.takeWhile p := by
  induction h with
  | nil => rfl
  | keep _ _ ih => simp only [List.takeWhile_cons, ih]
  | line => simp [hp]
  | blank => simp [hp]

/-- The first visible character stays the first one. -/
theorem head?_trimLeft_eq (hmargin : isAllBlank margin = true) (h : Indented margin t t') :
    (trimLeft t').head? = (trimLeft t).head? := by
  have hskip : ∀ {u : Text}, isAllBlank u = true → ∀ t, trimLeft (u ++ t) = trimLeft t :=
    fun hu t => List.dropWhile_append_of_pos (List.all_eq_true.1 hu)
  have hnewline : ∀ t, trimLeft ('\n' :: t) = trimLeft t := fun t => by
    simp [trimLeft, isBlank_newline]
  induction h with
  | nil => rfl
  | @keep c t t' _ _ ih =>
      cases hc : isBlank c with
      | true => simpa [trimLeft, hc] using ih
      | false => simp [trimLeft, hc]
  | line _ _ ih => rw [hnewline, hnewline, hskip hmargin, ih]
  | blank hall _ _ _ ih => rw [hnewline, hnewline, hskip hall, ih]

theorem numberLength_eq (h : Indented margin t t') : numberLength t' = numberLength t := by
  obtain ⟨-, hdrop⟩ := h.take_drop (newline_not_mem_takeWhile isDigit_newline t)
  unfold numberLength
  rw [h.takeWhile_eq isDigit_newline]
  dsimp only
  generalize t.drop (t.takeWhile isDigit).length = s at hdrop
  generalize t'.drop (t.takeWhile isDigit).length = s' at hdrop
  cases hdrop with
  | nil => rfl
  | @keep c s s' _ hs =>
      by_cases hdot : c = '.'
      · subst hdot
        simp only [hs.takeWhile_eq isDigit_newline]
      · split
        · next heq => exact absurd (List.cons.inj heq).1 hdot
        · split
          · next heq => exact absurd (List.cons.inj heq).1 hdot
          · rfl
  | line => rfl
  | blank => rfl

theorem isPrefixOf_eq {c : Char} (h : Indented margin t t') {op : Text} (hop : op.length = 2) :
    op.isPrefixOf (c :: t') = op.isPrefixOf (c :: t) := by
  obtain ⟨a, b, rfl⟩ := List.length_eq_two.1 hop
  have hhead : ∀ x : Text,
      [a, b].isPrefixOf (c :: x) = (a == c && x.head?.elim false (b == ·)) := by
    intro x
    cases x with
    | nil => rfl
    | cons d x => simp [List.isPrefixOf]
  rw [hhead, hhead, h.head?_eq]

/-- What starts here is the same lexeme as before, unless it is a string. -/
theorem lexeme?_eq (hmargin : isAllBlank margin = true) {c : Char} (hc : c ≠ '\n')
    (hquote : (decide (c = '\'') || decide (c = '"')) = false) (h : Indented margin t t') :
    lexeme? keywords (c :: t') = lexeme? keywords (c :: t) := by
  have hkeep := keep hc h
  have hdash : ['-', '-'].isPrefixOf (c :: t') = ['-', '-'].isPrefixOf (c :: t) :=
    h.isPrefixOf_eq rfl
  have htwo : twoCharOperators.any (·.isPrefixOf (c :: t')) =
      twoCharOperators.any (·.isPrefixOf (c :: t)) := by
    have hlen : ∀ op ∈ twoCharOperators, op.length = 2 := by decide
    rw [Bool.eq_iff_iff, List.any_eq_true, List.any_eq_true]
    refine exists_congr fun op => and_congr_right fun hop => ?_
    rw [h.isPrefixOf_eq (hlen op hop)]
  have hword := hkeep.takeWhile_eq isWord_newline
  have hkind : wordKind keywords ((c :: t).takeWhile isWord)
      ((c :: t').drop ((c :: t).takeWhile isWord).length) =
      wordKind keywords ((c :: t).takeWhile isWord)
        ((c :: t).drop ((c :: t).takeWhile isWord).length) := by
    refine wordKind_congr (head?_trimLeft_eq hmargin ?_)
    exact (hkeep.take_drop (newline_not_mem_takeWhile isWord_newline (c :: t))).2
  have hcomment : (c :: t').takeWhile (· ≠ '\n') = (c :: t).takeWhile (· ≠ '\n') :=
    hkeep.takeWhile_eq (by simp)
  simp only [lexeme?, hdash, htwo, hword, hkind, hcomment, hkeep.numberLength_eq, hquote,
    Bool.false_eq_true, if_false]

/-! ### Strings of an indented text -/

/-- Behind a string the texts go on like before. -/
theorem drop_stringTail (hmargin : isAllBlank margin = true) {quote : Char}
    (hquote : isBlank quote = false) (h : Indented margin t t') :
    Indented margin (t.drop (stringTail quote t)) (t'.drop (stringTail quote t')) := by
  have hnot : ∀ {u : Text}, isAllBlank u = true → quote ∉ u := by
    intro u hu hmem
    simp [List.all_eq_true.1 hu quote hmem] at hquote
  have hne := ne_newline_of_isBlank hquote
  fun_induction stringTail quote t generalizing t' with
  | case1 =>
      obtain rfl := h.eq_nil
      exact nil
  | case2 c =>
      rcases h.cons_cases hmargin with ⟨-, x, rfl, hx⟩ | ⟨rfl, u, u', x, -, hu', rfl, hx⟩
      · obtain rfl := hx.eq_nil
        exact nil
      · obtain ⟨rfl, rfl⟩ := List.append_eq_nil_iff.1 hx.eq_nil
        rw [stringTail_cons_of_ne hne.symm, List.drop_succ_cons, List.drop_succ_cons,
          drop_stringTail_append (hnot hu')]
        exact nil
  | case3 t ih =>
      rcases h.cons_cases hmargin with ⟨-, x, rfl, hx⟩ | ⟨hnewline, -⟩
      · rcases hx.cons_cases hmargin with ⟨-, y, rfl, hy⟩ | ⟨hnewline, -⟩
        · rw [stringTail_double]
          exact ih hy
        · exact absurd hnewline hne
      · exact absurd hnewline hne
  | case4 d t hd =>
      rcases h.cons_cases hmargin with ⟨-, x, rfl, hx⟩ | ⟨hnewline, -⟩
      · have hhead : x.head? ≠ some quote := by
          rw [hx.head?_eq]
          simpa using hd
        rw [stringTail_quote_of_ne hhead]
        exact hx
      · exact absurd hnewline hne
  | case5 c d t hc ih =>
      rcases h.cons_cases hmargin with ⟨-, x, rfl, hx⟩ | ⟨rfl, u, u', x, hu, hu', rfl, hx⟩
      · rw [stringTail_cons_of_ne hc, List.drop_succ_cons]
        exact ih hx
      · have hrest := ih hx
        rw [drop_stringTail_append (hnot hu)] at hrest
        rw [stringTail_cons_of_ne hc, List.drop_succ_cons, List.drop_succ_cons,
          drop_stringTail_append (hnot hu')]
        exact hrest

/-- The string itself is indented. -/
theorem take_stringTail (hmargin : isAllBlank margin = true) {quote : Char}
    (hquote : isBlank quote = false) (h : Indented margin t t') :
    t'.take (stringTail quote t') = indent margin (t.take (stringTail quote t)) := by
  have hrest := (h.drop_stringTail hmargin hquote).eq_indent
  have hwhole : indent margin (t.take (stringTail quote t) ++ t.drop (stringTail quote t)) =
      t'.take (stringTail quote t') ++ t'.drop (stringTail quote t') := by
    rw [List.take_append_drop, List.take_append_drop, h.eq_indent]
  rcases getLast?_take_stringTail quote t with hlast | hend
  · rw [indent_append (EndsVisibly.of_last hlast hquote), hrest] at hwhole
    exact (List.append_cancel_right hwhole).symm
  · rw [hrest, hend, indent_nil, List.append_nil, List.append_nil] at hwhole
    exact hwhole.symm

end Indented

/-! ### The tokens of an indented text -/

/-- The tokens of an indented text are those of the text, each one indented.  The induction is on
the lexemes of the text; blanks behind a newline are no part of a lexeme, unless it is a string. -/
theorem Indented.shapes_eq (hmargin : isAllBlank margin = true) {i : Nat} {t : Text}
    {ts : List Token} (h : Lexed keywords i t ts) {t' : Text} (hindent : Indented margin t t') :
    shapes keywords t' = ts.map fun x => (x.kind, indent margin x.text) := by
  induction h generalizing t' with
  | nil i =>
      rw [hindent.eq_nil, shapes_nil]
      rfl
  | @skip i c t ts hnone _ ih =>
      rcases hindent.cons_cases hmargin with ⟨hc, x, rfl, hx⟩ | ⟨rfl, u, u', x, hu, hu', rfl, hx⟩
      · cases hquote : (decide (c = '\'') || decide (c = '"')) with
        | true =>
            rw [lexeme?_of_quote hquote] at hnone
            simp at hnone
        | false =>
            rw [← hx.lexeme?_eq hmargin hc hquote] at hnone
            rw [shapes_of_none hnone, ih hx]
      · rw [shapes_of_none (lexeme?_of_isBlank isBlank_newline _), shapes_append_of_blank hu',
          ← shapes_append_of_blank hu, ih hx]
  | @token i n t kind ts hsome _ ih =>
      cases t with
      | nil => simp [lexeme?] at hsome
      | cons c t =>
          rcases hindent.cons_cases hmargin with ⟨hc, x, rfl, hx⟩ | ⟨rfl, -⟩
          · cases hquote : (decide (c = '\'') || decide (c = '"')) with
            | true =>
                have hblank := isBlank_of_quote hquote
                rw [lexeme?_of_quote hquote] at hsome
                obtain ⟨rfl, rfl⟩ := Prod.mk.inj (Option.some.inj hsome)
                rw [shapes_of_lexeme (lexeme?_of_quote hquote x), List.drop_succ_cons,
                  ih (hx.drop_stringTail hmargin hblank), List.take_succ_cons,
                  hx.take_stringTail hmargin hblank, List.map_cons, List.take_succ_cons,
                  indent_cons hc]
            | false =>
                have hplain := newline_not_mem_lexeme hc hquote hsome
                obtain ⟨htake, hdrop⟩ := (keep hc hx).take_drop hplain
                rw [← hx.lexeme?_eq hmargin hc hquote] at hsome
                rw [shapes_of_lexeme hsome, htake, ih hdrop, List.map_cons,
                  indent_of_not_mem hplain]
          · rw [lexeme?_of_isBlank isBlank_newline] at hsome
            simp at hsome

/-- **The tokens of an indented query** are the tokens of the query, each one indented. -/
theorem shapes_indent (hmargin : isAllBlank margin = true) (t : Text) :
    shapes keywords (indent margin t) =
      (shapes keywords t).map fun x => (x.1, indent margin x.2) := by
  rw [(indented_indent margin t).shapes_eq hmargin (lexed_lex keywords t), shapes, List.map_map]
  rfl

/-- A token with a line break in it ends in a visible character, if the text does. -/
theorem endsVisibly_of_newline {i : Nat} {t : Text} {ts : List Token}
    (h : Lexed keywords i t ts) (hlast : EndsVisibly t) {x : Token} (hx : x ∈ ts)
    (hnewline : '\n' ∈ x.text) : EndsVisibly x.text := by
  induction h with
  | nil i => simp at hx
  | skip _ _ ih => exact ih hlast.of_cons hx
  | @token i n t kind ts hsome _ ih =>
      rcases List.mem_cons.1 hx with rfl | hx
      · cases t with
        | nil => simp [lexeme?] at hsome
        | cons d t =>
            cases hquote : (decide (d = '\'') || decide (d = '"')) with
            | true =>
                rw [lexeme?_of_quote hquote] at hsome
                obtain ⟨rfl, rfl⟩ := Prod.mk.inj (Option.some.inj hsome)
                rw [List.take_succ_cons]
                rcases getLast?_take_stringTail d t with hend | hend
                · refine EndsVisibly.of_last ?_ (isBlank_of_quote hquote)
                  rw [List.getLast?_cons, hend, Option.getD_some]
                · rw [List.take_of_length_le (List.drop_eq_nil_iff.1 hend)]
                  exact hlast
            | false =>
                by_cases hd : d = '\n'
                · subst hd
                  rw [lexeme?_of_isBlank isBlank_newline] at hsome
                  simp at hsome
                · exact absurd hnewline (newline_not_mem_lexeme hd hquote hsome)
      · rw [← List.take_append_drop n t] at hlast
        exact ih hlast.of_append hx

/-- **Indentation keeps the tokens exactly if none of them has a line break in it.** -/
theorem shapes_indent_eq_self_iff (hmargin : isAllBlank margin = true) (hne : margin ≠ [])
    (hplain : '\n' ∉ margin) {t : Text} (hlast : EndsVisibly t) :
    shapes keywords (indent margin t) = shapes keywords t ↔
      ∀ x ∈ lex keywords t, '\n' ∉ x.text := by
  rw [shapes_indent hmargin]
  constructor
  · intro heq x hx hnewline
    have hmem : x.shape ∈ shapes keywords t := List.mem_map_of_mem hx
    have hself := List.map_inj_left.1 (heq.trans (List.map_id _).symm) x.shape hmem
    have htext : indent margin x.text = x.text := congrArg Prod.snd hself
    have hvisible := endsVisibly_of_newline (lexed_lex keywords t) hlast hx hnewline
    exact (indent_eq_self_iff hne hplain hvisible).1 htext hnewline
  · intro hone
    refine (List.map_congr_left fun y hy => ?_).trans (List.map_id _)
    obtain ⟨x, hx, rfl⟩ := List.mem_map.1 hy
    exact Prod.ext rfl (indent_of_not_mem (hone x hx))

end Formatting

end EmbeddedSql
