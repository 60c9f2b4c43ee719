/-
**Tokens over a brace.**

The lexer knows nothing of interpolations and reads their expressions like SQL.  What it makes of
the text behind an interpolation depends on the text before only by way of one lexeme.  No lexeme
ends with a brace, so what starts before a brace has ended there, or it is a comment or a string
that is still open.

Main definitions:

* `Token.EndsInBrace` — the last character of a text is a brace;
* `Token.opener` — the first character of the token that reaches the end of a text;
* `Token.tailLength` — how much of the text behind belongs to that token.

Main results:

* `Token.lexeme?_append` — a lexeme that ends before a brace stays as it is;
* `Token.Lexed.append` — **the tokens of a text that goes on behind a brace**;
* `Token.Lexed.open_at_brace` — only comments and strings are open behind a brace.
-/

import EmbeddedSql.Proofs.Token.Lexed

set_option relaxedAutoImplicit false
set_option autoImplicit false

namespace EmbeddedSql.Token

variable {keywords : List String}

/-! ### Lexemes before a brace -/

/-- The last character of a text is a brace. -/
def EndsInBrace (t : Text) : Prop :=
  t.getLast? = some '{' ∨ t.getLast? = some '}'

namespace EndsInBrace

theorem ne_nil {t : Text} (h : EndsInBrace t) : t ≠ [] := by
  rintro rfl
  simp [EndsInBrace] at h

theorem singleton {c : Char} (h : EndsInBrace [c]) : c = '{' ∨ c = '}' := by
  simpa [EndsInBrace] using h

theorem of_cons {c : Char} {t : Text} (h : EndsInBrace (c :: t)) (ht : t ≠ []) :
    EndsInBrace t := by
  obtain ⟨d, t, rfl⟩ := List.exists_cons_of_ne_nil ht
  simpa [EndsInBrace, List.getLast?_cons] using h

theorem tail {c : Char} {t : Text} (h : EndsInBrace (c :: t)) : t = [] ∨ EndsInBrace t := by
  by_cases ht : t = []
  · exact Or.inl ht
  · exact Or.inr (h.of_cons ht)

theorem drop {t : Text} (h : EndsInBrace t) {n : Nat} (hn : n < t.length) :
    EndsInBrace (t.drop n) := by
  rw [EndsInBrace, List.getLast?_drop, if_neg (by omega)]
  exact h

/-- A test that fails for braces does not hold on the whole text. -/
theorem length_takeWhile_lt {p : Char → Bool} (hopen : p '{' = false) (hclose : p '}' = false)
    {t : Text} (h : EndsInBrace t) : (t.takeWhile p).length < t.length := by
  have hle : (t.takeWhile p).length ≤ t.length := (List.takeWhile_sublist p).length_le
  refine Nat.lt_of_le_of_ne hle fun heq => ?_
  have hall := List.all_takeWhile (p := p) (l := t)
  rw [(List.takeWhile_prefix p).eq_of_length heq, List.all_eq_true] at hall
  rcases h with h | h
  · exact absurd (hall _ (List.mem_of_getLast? h)) (by simp [hopen])
  · exact absurd (hall _ (List.mem_of_getLast? h)) (by simp [hclose])

theorem takeWhile_append {p : Char → Bool} (hopen : p '{' = false) (hclose : p '}' = false)
    {t : Text} (h : EndsInBrace t) (v : Text) : (t ++ v).takeWhile p = t.takeWhile p := by
  have hlt := length_takeWhile_lt hopen hclose h
  rw [List.takeWhile_append, if_neg (by omega)]

end EndsInBrace

theorem isDigit_braces : Text.isDigit '{' = false ∧ Text.isDigit '}' = false := by
  decide +kernel

theorem isWord_braces : Text.isWord '{' = false ∧ Text.isWord '}' = false := by
  decide +kernel

theorem isBlank_braces : Text.isBlank '{' = false ∧ Text.isBlank '}' = false := by
  decide +kernel

theorem stringTail_append {q : Char} (hq : q = '\'' ∨ q = '"') {t : Text} (h : EndsInBrace t)
    (v : Text) : stringTail q (t ++ v) =
      if stringTail q t = t.length then t.length + stringTail q v else stringTail q t := by
  have hopen : '{' ≠ q := by rcases hq with rfl | rfl <;> decide
  have hclose : '}' ≠ q := by rcases hq with rfl | rfl <;> decide
  fun_induction stringTail q t with
  | case1 => exact absurd rfl h.ne_nil
  | case2 c =>
      have hc : c ≠ q := by rcases h.singleton with rfl | rfl <;> assumption
      rw [List.singleton_append, stringTail_cons_of_ne hc, List.length_singleton, if_pos rfl]
      omega
  | case3 t ih =>
      have ht : t ≠ [] := by
        rintro rfl
        rcases (h.of_cons (by simp)).singleton with hc | hc
        · exact hopen hc.symm
        · exact hclose hc.symm
      rw [List.cons_append, List.cons_append, stringTail_double,
        ih ((h.of_cons (by simp)).of_cons ht)]
      simp only [List.length_cons]
      split <;> split <;> omega
  | case4 d t hd =>
      rw [List.cons_append, List.cons_append, stringTail_quote_of_ne (by simpa using hd)]
      simp
  | case5 c d t hc ih =>
      rw [List.cons_append, stringTail_cons_of_ne hc, ih (h.of_cons (by simp))]
      simp only [List.length_cons]
      split <;> split <;> omega

theorem numberLength_append {t : Text} (h : EndsInBrace t) (v : Text) :
    numberLength (t ++ v) = numberLength t ∧ numberLength t < t.length := by
  have hlt := h.length_takeWhile_lt isDigit_braces.1 isDigit_braces.2
  unfold numberLength
  rw [h.takeWhile_append isDigit_braces.1 isDigit_braces.2]
  dsimp only
  have hdrop := h.drop hlt
  rw [List.drop_append_of_le_length (Nat.le_of_lt hlt)]
  have hlen : (t.drop (t.takeWhile Text.isDigit).length).length =
      t.length - (t.takeWhile Text.isDigit).length := List.length_drop
  generalize t.drop (t.takeWhile Text.isDigit).length = rest at hdrop hlen
  cases rest with
  | nil => exact absurd rfl hdrop.ne_nil
  | cons c rest =>
      by_cases hc : c = '.'
      · subst hc
        have hrest : EndsInBrace rest := by
          refine hdrop.of_cons ?_
          rintro rfl
          rcases hdrop.singleton with hc | hc <;> exact absurd hc (by decide)
        have hfraction := hrest.length_takeWhile_lt isDigit_braces.1 isDigit_braces.2
        rw [List.length_cons] at hlen
        simp only [List.cons_append,
          hrest.takeWhile_append isDigit_braces.1 isDigit_braces.2, true_and]
        split <;> omega
      · simp only [List.cons_append]
        split
        · next heq => exact absurd (List.cons.inj heq).1 hc
        · split
          · next heq => exact absurd (List.cons.inj heq).1 hc
          · exact ⟨rfl, hlt⟩

theorem wordKind_append (word : Text) {t : Text} (h : EndsInBrace t) (v : Text) :
    wordKind keywords word (t ++ v) = wordKind keywords word t := by
  have hlt := h.length_takeWhile_lt isBlank_braces.1 isBlank_braces.2
  have hne : t.dropWhile Text.isBlank ≠ [] := by
    intro hnil
    have hsplit := List.takeWhile_append_dropWhile (p := Text.isBlank) (l := t)
    rw [hnil, List.append_nil] at hsplit
    rw [hsplit] at hlt
    exact Nat.lt_irrefl _ hlt
  refine wordKind_congr ?_
  rw [Text.trimLeft, Text.trimLeft, List.dropWhile_append, if_neg (by simpa using hne)]
  obtain ⟨d, rest, hd⟩ := List.exists_cons_of_ne_nil hne
  rw [hd]
  rfl

/-- How many characters of a text belong to the lexeme that is open before it, given the first
character of the lexeme. -/
def tailLength : Option Char → Text → Nat
  | none, _ => 0
  | some c, v => if c = '-' then (v.takeWhile (· ≠ '\n')).length else stringTail c v

theorem lexeme?_of_brace {c : Char} (hc : c = '{' ∨ c = '}') (t : Text) :
    lexeme? keywords (c :: t) = none := by
  rcases hc with rfl | rfl <;> simp +decide [lexeme?, twoCharOperators]

/-- No operator ends with a brace. -/
theorem EndsInBrace.two_lt_length {t op : Text} (h : EndsInBrace t) (hop : op ∈ twoCharOperators)
    (hpre : op <+: t) : 2 < t.length := by
  have hops : ∀ op ∈ twoCharOperators, op.length = 2 ∧ ¬ EndsInBrace op := by
    unfold EndsInBrace
    decide
  obtain ⟨hlen, hend⟩ := hops op hop
  have hle := hpre.length_le
  refine Nat.lt_of_le_of_ne (hlen ▸ hle) fun heq => hend ?_
  rwa [hpre.eq_of_length (hlen.trans heq)]

/-- What starts before a brace is the same lexeme when the text goes on behind it, unless it
reaches that far. -/
theorem lexeme?_append {t : Text} (h : EndsInBrace t) (v : Text) :
    lexeme? keywords (t ++ v) = (lexeme? keywords t).map fun l =>
      (l.1, if l.2 = t.length then l.2 + tailLength t.head? v else l.2) := by
  obtain ⟨c, rest, rfl⟩ := List.exists_cons_of_ne_nil h.ne_nil
  by_cases hnil : rest = []
  · subst hnil
    rw [List.singleton_append, lexeme?_of_brace h.singleton, lexeme?_of_brace h.singleton]
    rfl
  have hrest := h.of_cons hnil
  have hdash : ['-', '-'].isPrefixOf (c :: (rest ++ v)) = ['-', '-'].isPrefixOf (c :: rest) := by
    obtain ⟨d, rest, rfl⟩ := List.exists_cons_of_ne_nil hnil
    simp [List.isPrefixOf]
  have htwo : twoCharOperators.any (·.isPrefixOf (c :: (rest ++ v))) =
      twoCharOperators.any (·.isPrefixOf (c :: rest)) := by
    obtain ⟨d, rest, rfl⟩ := List.exists_cons_of_ne_nil hnil
    simp [twoCharOperators, List.isPrefixOf]
  -- every kind of lexeme ends before the brace, or is one that can be open there
  have hstays : ∀ {kind : TokenKind} {n : Nat}, n < (c :: rest).length →
      some (kind, n) = (some (kind, n)).map fun l =>
        (l.1, if l.2 = (c :: rest).length then l.2 + tailLength (c :: rest).head? v else l.2) := by
    intro kind n hn
    rw [Option.map_some, if_neg (Nat.ne_of_lt hn)]
  simp only [List.cons_append, lexeme?, hdash, htwo]
  split
  · rfl
  · split
    · next hcomment =>
        obtain rfl : '-' = c := (List.cons_prefix_cons.1 (List.isPrefixOf_iff_prefix.1 hcomment)).1
        rw [← List.cons_append, List.takeWhile_append, Option.map_some]
        split
        · next hall =>
            simp only [hall, List.length_append, List.head?_cons, tailLength, if_true]
        · rfl
    · split
      · next hquote =>
          have hq : c = '\'' ∨ c = '"' := by simpa using hquote
          have hdash : c ≠ '-' := by rcases hq with rfl | rfl <;> decide
          rw [stringTail_append hq hrest, Option.map_some]
          simp only [List.head?_cons, tailLength, hdash, if_false, List.length_cons,
            Nat.add_right_cancel_iff]
          split
          · next hall => rw [hall, Nat.add_right_comm]
          · rfl
      · split
        · obtain ⟨heq, hlt⟩ := numberLength_append h v
          rw [← List.cons_append, heq]
          exact hstays hlt
        · split
          · have hlt := h.length_takeWhile_lt isWord_braces.1 isWord_braces.2
            rw [← List.cons_append, h.takeWhile_append isWord_braces.1 isWord_braces.2,
              List.drop_append_of_le_length (Nat.le_of_lt hlt), wordKind_append _ (h.drop hlt)]
            exact hstays hlt
          · split
            · next hop =>
                obtain ⟨op, hop, hpre⟩ := List.any_eq_true.1 hop
                exact hstays (h.two_lt_length hop (List.isPrefixOf_iff_prefix.1 hpre))
            · split
              · exact hstays (by simpa using List.length_pos_iff.2 hnil)
              · rfl

/-- Only a comment or a string is open behind a brace. -/
theorem lexeme?_before_brace {t : Text} (h : EndsInBrace t) {kind : TokenKind} {n : Nat}
    (hsome : lexeme? keywords t = some (kind, n)) :
    n < t.length ∨ kind = .comment ∧ t.head? = some '-' ∨
      kind = .string ∧ (t.head? = some '\'' ∨ t.head? = some '"') := by
  cases lexeme_of_eq_some hsome with
  | comment hdash =>
      obtain ⟨rest, rfl⟩ := hdash
      exact Or.inr (Or.inl ⟨rfl, rfl⟩)
  | string hquote => exact Or.inr (Or.inr ⟨rfl, by simpa using hquote⟩)
  | number _ => exact Or.inl (numberLength_append h []).2
  | word _ => exact Or.inl (h.length_takeWhile_lt isWord_braces.1 isWord_braces.2)
  | twoChars hop hpre => exact Or.inl (h.two_lt_length hop hpre)
  | @oneChar c rest hop =>
      have hrest : rest ≠ [] := by
        rintro rfl
        rcases h.singleton with rfl | rfl <;> exact absurd hop (by decide)
      exact Or.inl (by simpa using List.length_pos_iff.2 hrest)

/-! ### The text behind a brace -/

/-- The first character of the token that reaches an offset, if one does. -/
def opener (stop : Nat) (ts : List Token) : Option Char :=
  (ts.find? (·.stop = stop)).bind (·.text.head?)

/-- A token that reaches an offset with more text behind it; other tokens stay. -/
def extend (stop : Nat) (v : Text) (t : Token) : Token :=
  if t.stop = stop then { t with text := t.text ++ v } else t

theorem extend_of_ne {stop : Nat} {t : Token} (h : t.stop ≠ stop) (v : Text) :
    extend stop v t = t :=
  if_neg h

@[simp] theorem extend_kind (stop : Nat) (v : Text) (t : Token) :
    (extend stop v t).kind = t.kind := by
  unfold extend
  split <;> rfl

@[simp] theorem extend_offset (stop : Nat) (v : Text) (t : Token) :
    (extend stop v t).offset = t.offset := by
  unfold extend
  split <;> rfl

/-- What is behind the last brace goes on with the open token, and then it is read anew. -/
theorem Lexed.append {i : Nat} {s : Text} {ts : List Token} (h : Lexed keywords i s ts)
    (hs : s = [] ∨ EndsInBrace s) (v : Text) :
    lexFrom keywords 0 i (s ++ v) =
      ts.map (extend (i + s.length) (v.take (tailLength (opener (i + s.length) ts) v))) ++
        lexFrom keywords 0 (i + s.length + tailLength (opener (i + s.length) ts) v)
          (v.drop (tailLength (opener (i + s.length) ts) v)) := by
  induction h with
  | nil i => simp [opener, tailLength]
  | @skip i c t ts hnone h ih =>
      have hb : EndsInBrace (c :: t) := hs.resolve_left (by simp)
      have hnone' : lexeme? keywords (c :: (t ++ v)) = none := by
        rw [← List.cons_append, lexeme?_append hb, hnone]
        rfl
      have hstop : i + 1 + t.length = i + (c :: t).length := by
        rw [List.length_cons]
        omega
      rw [List.cons_append, lexFrom_of_none hnone', ih hb.tail, hstop]
  | @token i n t kind ts hsome h ih =>
      obtain ⟨hpos, hle⟩ := lexeme?_length hsome
      have hne : t ≠ [] := List.ne_nil_of_length_pos (by omega)
      have hb : EndsInBrace t := hs.resolve_left hne
      have hlexeme : lexeme? keywords (t ++ v) = _ := lexeme?_append hb v
      rw [hsome, Option.map_some] at hlexeme
      dsimp only at hlexeme
      rw [lexFrom_of_lexeme hlexeme, List.map_cons, List.cons_append]
      by_cases hn : n = t.length
      · -- the lexeme is open, and nothing follows it
        subst hn
        rw [List.drop_length] at h
        have hnil : ts = [] := by simpa using h.eq_lexFrom
        have hopener : opener (i + t.length) [⟨kind, t, i⟩] = t.head? := by simp [opener, stop]
        have hextend : ∀ w, extend (i + t.length) w ⟨kind, t, i⟩ = ⟨kind, t ++ w, i⟩ := fun w =>
          if_pos rfl
        rw [hnil, List.take_length, hopener, hextend, if_pos rfl, ← Nat.add_assoc,
          List.take_length_add_append, List.drop_length_add_append]
        rfl
      · have hlt : n < t.length := by omega
        have hstop : (⟨kind, t.take n, i⟩ : Token).stop ≠ i + t.length := by
          simp only [stop, List.length_take]
          omega
        have hend : i + n + (t.drop n).length = i + t.length := by
          rw [List.length_drop]
          omega
        have hopener : opener (i + t.length) (⟨kind, t.take n, i⟩ :: ts) =
            opener (i + t.length) ts := by
          simp [opener, hstop]
        have hrest := ih (Or.inr (hb.drop hlt))
        rw [hend] at hrest
        rw [if_neg hn, hopener, extend_of_ne hstop, List.take_append_of_le_length hle,
          List.drop_append_of_le_length hle, hrest]

/-- Only comments and strings are open behind a brace. -/
theorem Lexed.open_at_brace {i : Nat} {s : Text} {ts : List Token} (h : Lexed keywords i s ts)
    (hs : s = [] ∨ EndsInBrace s) {x : Token} (hx : x ∈ ts) (hstop : x.stop = i + s.length) :
    x.kind = .comment ∧ x.text.head? = some '-' ∨
      x.kind = .string ∧ (x.text.head? = some '\'' ∨ x.text.head? = some '"') := by
  induction h with
  | nil i => simp at hx
  | @skip i c t ts _ _ ih =>
      have hb : EndsInBrace (c :: t) := hs.resolve_left (by simp)
      refine ih hb.tail hx ?_
      rw [hstop, List.length_cons]
      omega
  | @token i n t kind ts hsome h ih =>
      obtain ⟨hpos, hle⟩ := lexeme?_length hsome
      have hb : EndsInBrace t := hs.resolve_left (List.ne_nil_of_length_pos (by omega))
      rcases List.mem_cons.1 hx with rfl | hx
      · simp only [stop, List.length_take] at hstop
        obtain rfl : n = t.length := by omega
        rw [List.take_length]
        exact (lexeme?_before_brace hb hsome).resolve_left (Nat.lt_irrefl _)
      · have hlt : n < t.length := by
          obtain ⟨hlo, hlt, -⟩ := h.slice_eq hx
          omega
        refine ih (Or.inr (hb.drop hlt)) hx ?_
        rw [hstop, List.length_drop]
        omega

end EmbeddedSql.Token
