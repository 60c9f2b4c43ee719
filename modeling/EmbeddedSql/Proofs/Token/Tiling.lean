/-
**What the lexer makes of every character.**

The lexer passes over what it does not know, so nothing in its definition says that it sees all it
should see.  Here its result is described without the scan: the tokens are stretches of the text, in
order; every character between them is one that no token starts with; and every token is as long as
its kind allows, given what follows it.  These facts leave no choice, so they are the lexer.

Main definitions:

* `Token.Starts` — a token can start at the beginning of a text;
* `Token.Doubled`, `Token.Numeral` — what stands inside strings, and what numbers are;
* `Token.Full` — a token that cannot be longer, given what follows it;
* `Token.Tiling` — tokens that leave nothing of a text out.

Main results:

* `Token.lexeme?_eq_none_iff` — where no lexeme starts;
* `Token.lexeme?_eq_some_iff` — **a lexeme is a full token**;
* `Token.Tiling.exists_operator` — an operator of two characters is not split;
* `Token.lex_tiles` — **the tokens of a text are its only tiling**.
-/

import EmbeddedSql.Proofs.Token.Lexed

set_option relaxedAutoImplicit false
set_option autoImplicit false

namespace EmbeddedSql.Token

open Text

variable {keywords : List String}

/-! ### Where tokens start -/

/-- A token can start at the beginning of a text. -/
def Starts (t : Text) : Prop :=
  ['-', '-'] <+: t ∨ (∃ op ∈ twoCharOperators, op <+: t) ∨
    ∃ c, t.head? = some c ∧ (c = '\'' ∨ c = '"' ∨ isDigit c = true ∨ isLetter c = true ∨ c = '_' ∨
      c ∈ oneCharOperators)

/-- No lexeme starts with a blank, nor where no token can start. -/
theorem lexeme?_eq_none_iff {t : Text} :
    lexeme? keywords t = none ↔ (∃ c, t.head? = some c ∧ isBlank c = true) ∨ ¬ Starts t := by
  cases t with
  | nil => simp [lexeme?, Starts, twoCharOperators]
  | cons c t =>
      have htwo : twoCharOperators.any (·.isPrefixOf (c :: t)) = true ↔
          ∃ op ∈ twoCharOperators, op <+: c :: t := by
        simp only [List.any_eq_true, List.isPrefixOf_iff_prefix]
      simp only [lexeme?, Starts, List.head?_cons, Option.some.injEq, exists_eq_left',
        List.isPrefixOf_iff_prefix, htwo]
      grind

/-! ### Runs of characters -/

theorem forall_mem_takeWhile {p : Char → Bool} {t : Text} : ∀ c ∈ t.takeWhile p, p c = true :=
  List.all_eq_true.1 List.all_takeWhile

theorem not_of_head?_dropWhile {p : Char → Bool} {t : Text} {c : Char}
    (h : (t.dropWhile p).head? = some c) : p c = false := by
  have hnot := List.head?_dropWhile_not p t
  rw [h] at hnot
  exact hnot

/-- A run ends where the test fails. -/
theorem takeWhile_append_of_stops {p : Char → Bool} {s rest : Text} (hs : ∀ c ∈ s, p c = true)
    (hrest : ∀ c, rest.head? = some c → p c = false) : (s ++ rest).takeWhile p = s := by
  rw [List.takeWhile_append_of_pos hs]
  cases rest with
  | nil => rw [List.takeWhile_nil, List.append_nil]
  | cons c rest => rw [List.takeWhile_cons_of_neg (by simp [hrest c rfl]), List.append_nil]

theorem take_length_takeWhile (p : Char → Bool) (t : Text) :
    t.take (t.takeWhile p).length = t.takeWhile p :=
  (List.prefix_iff_eq_take.1 (List.takeWhile_prefix p)).symm

theorem drop_length_takeWhile (p : Char → Bool) (t : Text) :
    t.drop (t.takeWhile p).length = t.dropWhile p := by
  conv => lhs; arg 2; rw [← List.takeWhile_append_dropWhile (p := p) (l := t)]
  rw [List.drop_left]

/-! ### Strings and numbers -/

/-- A text in which every quote is written twice. -/
inductive Doubled (quote : Char) : Text → Prop
  | nil : Doubled quote []
  | plain {c : Char} {t : Text} (hc : c ≠ quote) (h : Doubled quote t) : Doubled quote (c :: t)
  | pair {t : Text} (h : Doubled quote t) : Doubled quote (quote :: quote :: t)

theorem Doubled.stringTail_append {quote : Char} {body : Text} (h : Doubled quote body)
    (rest : Text) : stringTail quote (body ++ rest) = body.length + stringTail quote rest := by
  induction h with
  | nil => simp
  | plain hc _ ih =>
      rw [List.cons_append, stringTail_cons_of_ne hc, ih, List.length_cons]
      omega
  | pair _ ih =>
      rw [List.cons_append, List.cons_append, stringTail_double, ih, List.length_cons,
        List.length_cons]
      omega

/-- A text has a first quote that is not doubled, or none. -/
theorem doubled_or_closed (quote : Char) (t : Text) :
    Doubled quote t ∨ ∃ body rest, t = body ++ quote :: rest ∧ Doubled quote body ∧
      rest.head? ≠ some quote := by
  fun_induction stringTail quote t with
  | case1 => exact Or.inl Doubled.nil
  | case2 c =>
      by_cases hc : c = quote
      · exact Or.inr ⟨[], [], by rw [hc]; rfl, Doubled.nil, by simp⟩
      · exact Or.inl (Doubled.plain hc Doubled.nil)
  | case3 t ih =>
      rcases ih with h | ⟨body, rest, rfl, h, hrest⟩
      · exact Or.inl h.pair
      · exact Or.inr ⟨quote :: quote :: body, rest, rfl, h.pair, hrest⟩
  | case4 d t hd => exact Or.inr ⟨[], d :: t, rfl, Doubled.nil, by simpa using hd⟩
  | case5 c d t hc ih =>
      rcases ih with h | ⟨body, rest, heq, h, hrest⟩
      · exact Or.inl (h.plain hc)
      · exact Or.inr ⟨c :: body, rest, by rw [heq]; rfl, h.plain hc, hrest⟩

/-- What a number is: digits, or digits, a dot and more digits. -/
inductive Numeral : Text → Prop
  | whole {w : Text} (hw : w ≠ []) (hdigits : ∀ c ∈ w, isDigit c = true) : Numeral w
  | fraction {w f : Text} (hw : w ≠ []) (hf : f ≠ []) (hdigits : ∀ c ∈ w ++ f, isDigit c = true) :
      Numeral (w ++ '.' :: f)

theorem isDigit_dot : isDigit '.' = false := by decide +kernel

theorem takeWhile_isDigit_append {w : Text} (hw : ∀ c ∈ w, isDigit c = true) (t : Text) :
    (w ++ t).takeWhile isDigit = w ++ t.takeWhile isDigit :=
  List.takeWhile_append_of_pos hw

namespace Numeral

theorem exists_cons {s : Text} (h : Numeral s) : ∃ c t, s = c :: t ∧ isDigit c = true := by
  cases h with
  | whole hw hdigits =>
      obtain ⟨c, t, rfl⟩ := List.exists_cons_of_ne_nil hw
      exact ⟨c, t, rfl, hdigits c List.mem_cons_self⟩
  | @fraction w f hw _ hdigits =>
      obtain ⟨c, t, rfl⟩ := List.exists_cons_of_ne_nil hw
      exact ⟨c, t ++ '.' :: f, rfl, hdigits c (by simp)⟩

theorem isDigit_getLast {s : Text} {c : Char} (h : Numeral (s ++ [c])) :
    isDigit c = true := by
  generalize ht : s ++ [c] = t at h
  have hlast : t.getLast? = some c := by rw [← ht, List.getLast?_concat]
  cases h with
  | whole _ hdigits => exact hdigits c (List.mem_of_getLast? hlast)
  | @fraction w f _ hf hdigits =>
      rw [List.getLast?_append, List.getLast?_cons, Option.some_or, Option.some.injEq] at hlast
      have hd : f.getLast? = some (f.getLast hf) := List.getLast?_eq_some_getLast hf
      rw [hd, Option.getD_some] at hlast
      exact hdigits c (List.mem_append_right w (hlast ▸ List.mem_of_getLast? hd))

end Numeral

theorem length_takeWhile_le_numberLength (t : Text) :
    (t.takeWhile isDigit).length ≤ numberLength t := by
  unfold numberLength
  dsimp only
  split
  · split <;> omega
  · exact Nat.le_refl _

/-- What is read as a number is one. -/
theorem numeral_take_numberLength {c : Char} (hc : isDigit c = true) (t : Text) :
    Numeral ((c :: t).take (numberLength (c :: t))) := by
  have hne : (c :: t).takeWhile isDigit ≠ [] := by simp [hc]
  have hwhole := take_length_takeWhile isDigit (c :: t)
  unfold numberLength
  dsimp only
  split
  · next rest hrest =>
      split
      · rw [hwhole]
        exact Numeral.whole hne forall_mem_takeWhile
      · next hfraction =>
          -- digits, the dot, and digits again
          have hf : rest.takeWhile isDigit ≠ [] := fun hnil => hfraction (by rw [hnil]; rfl)
          rw [Nat.add_assoc, List.take_add, hrest, hwhole, Nat.add_comm 1, List.take_succ_cons,
            take_length_takeWhile]
          exact Numeral.fraction hne hf
            (List.forall_mem_append.2 ⟨forall_mem_takeWhile, forall_mem_takeWhile⟩)
  · rw [hwhole]
    exact Numeral.whole hne forall_mem_takeWhile

/-- No number at the start of a text is longer than the one that is read. -/
theorem Numeral.length_le {s t : Text} (h : Numeral s) (hs : s <+: t) :
    s.length ≤ numberLength t := by
  obtain ⟨u, rfl⟩ := hs
  cases h with
  | whole hw hdigits =>
      refine Nat.le_trans ?_ (length_takeWhile_le_numberLength _)
      rw [takeWhile_isDigit_append hdigits, List.length_append]
      exact Nat.le_add_right _ _
  | @fraction w f hw hf hdigits =>
      obtain ⟨hw', hf'⟩ := List.forall_mem_append.1 hdigits
      have hwhole : (w ++ '.' :: (f ++ u)).takeWhile isDigit = w := by
        rw [takeWhile_isDigit_append hw', List.takeWhile_cons_of_neg (by simp [isDigit_dot]),
          List.append_nil]
      have hpos := List.length_pos_iff.2 hf
      rw [List.append_assoc, List.cons_append, numberLength, hwhole]
      simp only [List.drop_left, takeWhile_isDigit_append hf', List.length_append,
        List.length_cons]
      split <;> omega

/-! ### Full tokens -/

/-- A token, by kind and text, that cannot be longer when the given text follows it. -/
inductive Full (keywords : List String) : TokenKind → Text → Text → Prop
  /-- A comment takes the rest of its line. -/
  | comment {text rest : Text} (htext : ['-', '-'] <+: text) (hline : '\n' ∉ text)
      (hrest : ∀ c, rest.head? = some c → c = '\n') : Full keywords .comment text rest
  /-- A closed string ends with the first quote that is not doubled. -/
  | closed {quote : Char} {body rest : Text} (hquote : quote = '\'' ∨ quote = '"')
      (hbody : Doubled quote body) (hrest : rest.head? ≠ some quote) :
      Full keywords .string (quote :: (body ++ [quote])) rest
  /-- An open string has no such quote and takes the whole text. -/
  | opened {quote : Char} {body : Text} (hquote : quote = '\'' ∨ quote = '"')
      (hbody : Doubled quote body) : Full keywords .string (quote :: body) []
  /-- No longer number starts where a number starts. -/
  | number {text rest : Text} (htext : Numeral text)
      (hrest : ∀ more, more ≠ [] → more <+: rest → ¬ Numeral (text ++ more)) :
      Full keywords .number text rest
  /-- A word starts with a letter or an underscore, and no character of a word follows it. -/
  | word {c : Char} {text rest : Text} (hletter : isLetter c = true ∨ c = '_')
      (hdigit : isDigit c = false) (htext : ∀ d ∈ text, isWord d = true)
      (hrest : ∀ d, rest.head? = some d → isWord d = false) :
      Full keywords (wordKind keywords (c :: text) rest) (c :: text) rest
  /-- Operators of two characters come first. -/
  | twoChars {op rest : Text} (hop : op ∈ twoCharOperators) : Full keywords .operator op rest
  /-- Neither a comment nor a longer operator starts with an operator of one character. -/
  | oneChar {c : Char} {rest : Text} (hc : c ∈ oneCharOperators)
      (hcomment : ¬ ['-', '-'] <+: c :: rest)
      (htwo : ∀ op ∈ twoCharOperators, ¬ op <+: c :: rest) : Full keywords .operator [c] rest

theorem full_comment {t : Text} (h : ['-', '-'] <+: t) :
    Full keywords .comment (t.take (t.takeWhile (· ≠ '\n')).length)
      (t.drop (t.takeWhile (· ≠ '\n')).length) := by
  rw [take_length_takeWhile, drop_length_takeWhile]
  refine Full.comment ?_ ?_ ?_
  · obtain ⟨u, rfl⟩ := h
    exact List.prefix_append _ _
  · intro hmem
    simpa using forall_mem_takeWhile _ hmem
  · intro c hc
    simpa using not_of_head?_dropWhile hc

theorem full_string {q : Char} (hq : q = '\'' ∨ q = '"') (t : Text) :
    Full keywords .string ((q :: t).take (stringTail q t + 1))
      ((q :: t).drop (stringTail q t + 1)) := by
  rw [List.take_succ_cons, List.drop_succ_cons]
  rcases doubled_or_closed q t with h | ⟨body, rest, rfl, h, hrest⟩
  · have hlen : stringTail q t = t.length := by
      have hall := h.stringTail_append []
      rwa [List.append_nil] at hall
    rw [hlen, List.take_length, List.drop_length]
    exact Full.opened hq h
  · have hlen : stringTail q (body ++ q :: rest) = (body ++ [q]).length := by
      rw [h.stringTail_append, stringTail_quote_of_ne hrest, List.length_append]
      rfl
    have hsplit : body ++ q :: rest = (body ++ [q]) ++ rest := by simp
    rw [hlen, hsplit, List.take_left, List.drop_left]
    exact Full.closed hq h hrest

theorem full_number {c : Char} (hc : isDigit c = true) (t : Text) :
    Full keywords .number ((c :: t).take (numberLength (c :: t)))
      ((c :: t).drop (numberLength (c :: t))) := by
  refine Full.number (numeral_take_numberLength hc t) ?_
  intro more hmore hpre hlonger
  have hstarts : (c :: t).take (numberLength (c :: t)) ++ more <+: c :: t := by
    conv => rhs; rw [← List.take_append_drop (numberLength (c :: t)) (c :: t)]
    exact (List.prefix_append_right_inj _).2 hpre
  have hle := hlonger.length_le hstarts
  have hpos := List.length_pos_iff.2 hmore
  rw [List.length_append, List.length_take, Nat.min_eq_left (numberLength_le _)] at hle
  omega

theorem full_word {c : Char} (hletter : isLetter c = true ∨ c = '_') (hdigit : isDigit c = false)
    (t : Text) :
    Full keywords
      (wordKind keywords ((c :: t).takeWhile isWord)
        ((c :: t).drop ((c :: t).takeWhile isWord).length))
      ((c :: t).take ((c :: t).takeWhile isWord).length)
      ((c :: t).drop ((c :: t).takeWhile isWord).length) := by
  have hword : isWord c = true := isWord_of_isLetter (by simpa using hletter)
  rw [take_length_takeWhile, drop_length_takeWhile, List.takeWhile_cons_of_pos hword,
    List.dropWhile_cons_of_pos hword]
  refine Full.word hletter hdigit ?_ ?_
  · exact forall_mem_takeWhile
  · intro d hd
    exact not_of_head?_dropWhile hd

theorem length_twoChars {op : Text} (h : op ∈ twoCharOperators) : op.length = 2 := by
  have hall : ∀ op ∈ twoCharOperators, op.length = 2 := by decide
  exact hall op h

/-- A lexeme is full. -/
theorem full_of_lexeme? {t : Text} {kind : TokenKind} {n : Nat}
    (h : lexeme? keywords t = some (kind, n)) : Full keywords kind (t.take n) (t.drop n) := by
  cases t with
  | nil => simp [lexeme?] at h
  | cons c t =>
      simp only [lexeme?] at h
      split at h
      · simp at h
      · split at h
        · next hcomment =>
            obtain ⟨rfl, rfl⟩ := Prod.mk.inj (Option.some.inj h)
            exact full_comment (List.isPrefixOf_iff_prefix.1 hcomment)
        · next hcomment =>
            split at h
            · next hquote =>
                obtain ⟨rfl, rfl⟩ := Prod.mk.inj (Option.some.inj h)
                exact full_string (by simpa using hquote) t
            · split at h
              · next hdigit =>
                  obtain ⟨rfl, rfl⟩ := Prod.mk.inj (Option.some.inj h)
                  exact full_number hdigit t
              · next hdigit =>
                  split at h
                  · next hletter =>
                      obtain ⟨rfl, rfl⟩ := Prod.mk.inj (Option.some.inj h)
                      exact full_word (by simpa using hletter) (by simpa using hdigit) t
                  · split at h
                    · next htwo =>
                        obtain ⟨rfl, rfl⟩ := Prod.mk.inj (Option.some.inj h)
                        obtain ⟨op, hop, hpre⟩ := List.any_eq_true.1 htwo
                        rw [List.isPrefixOf_iff_prefix, List.prefix_iff_eq_take,
                          length_twoChars hop] at hpre
                        exact Full.twoChars (hpre ▸ hop)
                    · next htwo =>
                        split at h
                        · next hone =>
                            obtain ⟨rfl, rfl⟩ := Prod.mk.inj (Option.some.inj h)
                            refine Full.oneChar hone ?_ ?_
                            · rwa [← List.isPrefixOf_iff_prefix]
                            · intro op hop hpre
                              exact htwo (List.any_eq_true.2
                                ⟨op, hop, List.isPrefixOf_iff_prefix.2 hpre⟩)
                        · simp at h

/-! ### Lexemes from full tokens -/

/-- Dashes and quotes are no digits and no letters. -/
theorem isDigit_isLetter_marks {c : Char} (hc : c ∈ ['-', '\'', '"']) :
    isDigit c = false ∧ isLetter c = false ∧ c ≠ '_' := by
  simp only [List.mem_cons, List.not_mem_nil, or_false] at hc
  rcases hc with rfl | rfl | rfl <;> decide +kernel

theorem isPrefixOf_dashes {c : Char} (hc : c ≠ '-') (t : Text) :
    ['-', '-'].isPrefixOf (c :: t) = false := by
  simp [List.isPrefixOf, Ne.symm hc]

theorem lexeme?_of_isDigit {c : Char} (hblank : isBlank c = false) (hc : isDigit c = true)
    (t : Text) : lexeme? keywords (c :: t) = some (.number, numberLength (c :: t)) := by
  have hne : ∀ d ∈ ['-', '\'', '"'], c ≠ d := by
    rintro d hd rfl
    exact absurd hc (by simp [(isDigit_isLetter_marks hd).1])
  simp [lexeme?, hblank, isPrefixOf_dashes (hne '-' (by simp)), hne '\'' (by simp),
    hne '"' (by simp), hc]

theorem lexeme?_of_isLetter {c : Char} (hblank : isBlank c = false) (hdigit : isDigit c = false)
    (hc : isLetter c = true ∨ c = '_') (t : Text) :
    lexeme? keywords (c :: t) = some (wordKind keywords ((c :: t).takeWhile isWord)
      ((c :: t).drop ((c :: t).takeWhile isWord).length), ((c :: t).takeWhile isWord).length) := by
  have hne : ∀ d ∈ ['-', '\'', '"'], c ≠ d := by
    rintro d hd rfl
    obtain ⟨-, hletter, hline⟩ := isDigit_isLetter_marks hd
    rcases hc with hc | hc
    · exact absurd hc (by simp [hletter])
    · exact hline hc
  have hletter : (isLetter c || decide (c = '_')) = true := by simpa using hc
  simp only [lexeme?, hblank, isPrefixOf_dashes (hne '-' (by simp)), hne '\'' (by simp),
    hne '"' (by simp), hdigit, hletter, Bool.false_eq_true, if_false, if_true, decide_false,
    Bool.or_false]

/-- Characters that operators are made of. -/
def signs : List Char :=
  oneCharOperators ++ ['!', '|']

/-- What operators are made of is neither blank nor part of another token, comments apart. -/
theorem of_mem_signs {c : Char} (hc : c ∈ signs) : isBlank c = false ∧ c ≠ '\n' ∧
    (decide (c = '\'') || decide (c = '"')) = false ∧ isDigit c = false ∧
    (isLetter c || decide (c = '_')) = false ∧ isWord c = false := by
  simp only [signs, oneCharOperators, List.cons_append, List.nil_append, List.mem_cons,
    List.not_mem_nil, or_false] at hc
  rcases hc with rfl | rfl | rfl | rfl | rfl | rfl | rfl | rfl | rfl | rfl <;> decide +kernel

/-- Operators start with nothing that another token starts with. -/
theorem lexeme?_of_sign {c : Char} (hc : c ∈ signs) {t : Text}
    (hcomment : ¬ ['-', '-'] <+: c :: t) :
    lexeme? keywords (c :: t) =
      if twoCharOperators.any (·.isPrefixOf (c :: t)) then some (.operator, 2)
      else if c ∈ oneCharOperators then some (.operator, 1) else none := by
  obtain ⟨hblank, -, hquote, hdigit, hletter, -⟩ := of_mem_signs hc
  rw [← List.isPrefixOf_iff_prefix, Bool.not_eq_true] at hcomment
  simp only [lexeme?, hblank, hcomment, hquote, hdigit, hletter, Bool.false_eq_true, if_false]

theorem exists_of_mem_twoCharOperators {op : Text} (h : op ∈ twoCharOperators) :
    ∃ c d, op = [c, d] ∧ c ∈ signs ∧ c ≠ '-' ∧ d ∈ signs := by
  simp only [twoCharOperators, List.mem_cons, List.not_mem_nil, or_false] at h
  rcases h with rfl | rfl | rfl | rfl | rfl <;> exact ⟨_, _, rfl, by decide, by decide, by decide⟩

/-- A full token is a lexeme, unless it starts with a blank. -/
theorem lexeme?_of_full {kind : TokenKind} {text rest : Text} (h : Full keywords kind text rest)
    (hblank : ∀ c, text.head? = some c → isBlank c = false) :
    lexeme? keywords (text ++ rest) = some (kind, text.length) := by
  cases h with
  | comment htext hline hrest =>
      obtain ⟨u, rfl⟩ := htext
      have hplain : ∀ c ∈ ['-', '-'] ++ u, (decide (c ≠ '\n')) = true := by
        intro c hc
        simp only [decide_eq_true_eq]
        rintro rfl
        exact hline hc
      have hstops : ∀ c, rest.head? = some c → decide (c ≠ '\n') = false := by
        intro c hc
        simp [hrest c hc]
      have htake := takeWhile_append_of_stops hplain hstops
      have hblank : isBlank '-' = false := by decide
      rw [← congrArg List.length htake]
      simp [lexeme?, hblank]
  | @closed q body rest hquote hbody hrest =>
      have hlen : stringTail q ((body ++ [q]) ++ rest) = (body ++ [q]).length := by
        rw [List.append_assoc, hbody.stringTail_append, List.singleton_append,
          stringTail_quote_of_ne hrest, List.length_append]
        rfl
      rw [List.cons_append, lexeme?_of_quote (by simpa using hquote), hlen, List.length_cons]
  | @opened q body hquote hbody =>
      have hlen := hbody.stringTail_append []
      rw [List.append_nil] at hlen
      rw [List.append_nil, lexeme?_of_quote (by simpa using hquote), hlen]
      rfl
  | number htext hrest =>
      obtain ⟨c, t, rfl, hc⟩ := htext.exists_cons
      have hstarts : c :: t <+: c :: (t ++ rest) := List.prefix_append (c :: t) rest
      have hle := htext.length_le hstarts
      have hread := numeral_take_numberLength hc (t ++ rest)
      rw [List.cons_append, lexeme?_of_isDigit (hblank c rfl) hc]
      refine congrArg (fun n => some (TokenKind.number, n)) (Nat.le_antisymm ?_ hle)
      -- a number that goes on would be a longer one
      refine Nat.le_of_not_lt fun hlt => ?_
      obtain ⟨k, hk⟩ := Nat.exists_eq_add_of_lt hlt
      have hmore : rest.take (k + 1) ≠ [] := by
        intro hnil
        have hlen := numberLength_le (c :: (t ++ rest))
        have hzero := congrArg List.length hnil
        simp only [List.length_take, List.length_cons, List.length_append, List.length_nil]
          at hzero hlen hk
        omega
      refine hrest _ hmore (List.take_prefix _ _) ?_
      rwa [hk, Nat.add_assoc, ← List.cons_append, List.take_length_add_append] at hread
  | @word c text rest hletter hdigit htext hrest =>
      have hword : ∀ d ∈ c :: text, isWord d = true :=
        List.forall_mem_cons.2 ⟨isWord_of_isLetter (by simpa using hletter), htext⟩
      rw [List.cons_append, lexeme?_of_isLetter (hblank c rfl) hdigit hletter, ← List.cons_append,
        takeWhile_append_of_stops hword hrest, List.drop_left]
  | twoChars hop =>
      obtain ⟨c, d, rfl, hc, hdash, -⟩ := exists_of_mem_twoCharOperators hop
      have htwo : twoCharOperators.any (·.isPrefixOf (c :: d :: rest)) = true :=
        List.any_eq_true.2 ⟨[c, d], hop, by simp [List.isPrefixOf]⟩
      have hcomment : ¬ ['-', '-'] <+: c :: d :: rest := by
        rw [List.cons_prefix_cons]
        exact fun h => hdash h.1.symm
      rw [List.cons_append, List.singleton_append, lexeme?_of_sign hc hcomment, if_pos htwo]
      rfl
  | @oneChar c rest hc hcomment htwo =>
      have hno : ¬ twoCharOperators.any (·.isPrefixOf (c :: rest)) = true := by
        simpa [List.isPrefixOf_iff_prefix] using htwo
      rw [List.singleton_append, lexeme?_of_sign (List.mem_append_left _ hc) hcomment, if_neg hno,
        if_pos hc]
      rfl

/-- **A lexeme is a full token.** -/
theorem lexeme?_eq_some_iff {t : Text} {kind : TokenKind} {n : Nat} :
    lexeme? keywords t = some (kind, n) ↔ n ≤ t.length ∧ Full keywords kind (t.take n) (t.drop n) ∧
      ∀ c, t.head? = some c → isBlank c = false := by
  constructor
  · intro h
    refine ⟨(lexeme?_length h).2, full_of_lexeme? h, ?_⟩
    intro c hc
    obtain ⟨t, rfl⟩ := List.head?_eq_some_iff.1 hc
    cases hblank : isBlank c with
    | false => rfl
    | true => simp [lexeme?_of_isBlank hblank] at h
  · rintro ⟨hn, hfull, hblank⟩
    have hlexeme := lexeme?_of_full hfull fun c hc => hblank c ?_
    · rwa [List.take_append_drop, List.length_take, Nat.min_eq_left hn] at hlexeme
    · rw [List.head?_take] at hc
      split at hc
      · simp at hc
      · exact hc

/-! ### Tilings -/

/-- Tokens that leave nothing out of a text, which stands at an offset. -/
structure Tiling (keywords : List String) (start : Nat) (t : Text) (ts : List Token) : Prop where
  /-- A token is a stretch of the text that is not empty. -/
  slice_eq : ∀ x ∈ ts, start ≤ x.offset ∧ x.offset < x.stop ∧ x.stop ≤ start + t.length ∧
    t.slice (x.offset - start) (x.stop - start) = x.text
  /-- Tokens stand in order and apart from each other. -/
  ordered : ts.Pairwise fun a b => a.stop ≤ b.offset
  /-- No token starts with a blank. -/
  visible : ∀ x ∈ ts, ∀ c, x.text.head? = some c → isBlank c = false
  /-- What no token covers is a blank, or no token can start there. -/
  uncovered : ∀ k, (∀ x ∈ ts, ¬ (x.offset ≤ start + k ∧ start + k < x.stop)) →
    (∃ c, (t.drop k).head? = some c ∧ isBlank c = true) ∨ ¬ Starts (t.drop k)
  /-- No token can be longer. -/
  full : ∀ x ∈ ts, Full keywords x.kind x.text (t.drop (x.stop - start))

/-- From the start of a token on, a text is the token and what is behind it. -/
theorem drop_offset {i : Nat} {t : Text} {x : Token}
    (h : t.slice (x.offset - i) (x.stop - i) = x.text) :
    t.drop (x.offset - i) = x.text ++ t.drop (x.stop - i) := by
  have hle : x.offset - i ≤ x.stop - i := Nat.sub_le_sub_right (Nat.le_add_right _ _) i
  have hdrop : t.drop (x.stop - i) =
      (t.drop (x.offset - i)).drop (x.stop - i - (x.offset - i)) := by
    rw [List.drop_drop, Nat.add_sub_cancel' hle]
  rw [← h, slice, hdrop, List.take_append_drop]

namespace Lexed

variable {i : Nat} {t : Text} {ts : List Token}

theorem lexeme?_at (h : Lexed keywords i t ts) {x : Token} (hx : x ∈ ts) :
    lexeme? keywords (t.drop (x.offset - i)) = some (x.kind, x.text.length) := by
  induction h with
  | nil => simp at hx
  | @skip i c t ts _ h ih =>
      have hlo := (h.slice_eq hx).1
      have hstart : x.offset - i = x.offset - (i + 1) + 1 := by omega
      rw [hstart, List.drop_succ_cons]
      exact ih hx
  | @token i n t kind ts hsome h ih =>
      rcases List.mem_cons.1 hx with rfl | hx
      · rw [Nat.sub_self, List.drop_zero, List.length_take,
          Nat.min_eq_left (lexeme?_length hsome).2]
        exact hsome
      · have hlo := (h.slice_eq hx).1
        have hstart : x.offset - i = n + (x.offset - (i + n)) := by omega
        rw [hstart, ← List.drop_drop]
        exact ih hx

/-- Where no token is, none starts. -/
theorem lexeme?_uncovered (h : Lexed keywords i t ts) {k : Nat}
    (hk : ∀ x ∈ ts, ¬ (x.offset ≤ i + k ∧ i + k < x.stop)) :
    lexeme? keywords (t.drop k) = none := by
  induction h generalizing k with
  | nil => simp [lexeme?]
  | @skip i c t ts hnone h ih =>
      cases k with
      | zero => exact hnone
      | succ k =>
          refine ih fun x hx hcovers => hk x hx ?_
          omega
  | @token i n t kind ts hsome h ih =>
      obtain ⟨hpos, hle⟩ := lexeme?_length hsome
      have hlen : (t.take n).length = n := by rw [List.length_take]; omega
      have hn : n ≤ k := by
        refine Nat.le_of_not_lt fun hlt => hk _ List.mem_cons_self ?_
        simp only [stop, hlen]
        omega
      obtain ⟨m, rfl⟩ := Nat.exists_eq_add_of_le hn
      rw [← List.drop_drop]
      refine ih fun x hx hcovers => hk x (List.mem_cons_of_mem _ hx) ?_
      omega

theorem tiling (h : Lexed keywords i t ts) : Tiling keywords i t ts where
  slice_eq x hx := h.slice_eq hx
  ordered := h.pairwise
  visible := by
    intro x hx c hc
    refine (lexeme?_eq_some_iff.1 (h.lexeme?_at hx)).2.2 c ?_
    rw [drop_offset (h.slice_eq hx).2.2.2, List.head?_append, hc]
    rfl
  uncovered k hk := lexeme?_eq_none_iff.1 (h.lexeme?_uncovered hk)
  full := by
    intro x hx
    have hfull := full_of_lexeme? (h.lexeme?_at hx)
    rwa [drop_offset (h.slice_eq hx).2.2.2, List.take_left, List.drop_left] at hfull

end Lexed

namespace Tiling

variable {i : Nat} {t : Text} {ts : List Token}

theorem lexeme?_at (h : Tiling keywords i t ts) {x : Token} (hx : x ∈ ts) :
    lexeme? keywords (t.drop (x.offset - i)) = some (x.kind, x.text.length) := by
  rw [drop_offset (h.slice_eq x hx).2.2.2]
  exact lexeme?_of_full (h.full x hx) (h.visible x hx)

/-- A token covers the place where a lexeme starts. -/
theorem exists_covering (h : Tiling keywords i t ts) {k : Nat} {lexeme : TokenKind × Nat}
    (hsome : lexeme? keywords (t.drop k) = some lexeme) :
    ∃ x ∈ ts, x.offset ≤ i + k ∧ i + k < x.stop := by
  refine Classical.byContradiction fun hno => ?_
  have hnone : lexeme? keywords (t.drop k) = none :=
    lexeme?_eq_none_iff.2 (h.uncovered k fun x hx hcovers => hno ⟨x, hx, hcovers⟩)
  rw [hsome] at hnone
  cases hnone

theorem skip {c : Char} (h : Tiling keywords i (c :: t) ts)
    (hnone : lexeme? keywords (c :: t) = none) : Tiling keywords (i + 1) t ts := by
  have hlo : ∀ x ∈ ts, i + 1 ≤ x.offset := by
    intro x hx
    refine Nat.lt_of_le_of_ne (h.slice_eq x hx).1 ?_
    intro heq
    have hsome := h.lexeme?_at hx
    rw [← heq, Nat.sub_self, List.drop_zero, hnone] at hsome
    cases hsome
  have hback : ∀ x ∈ ts, x.offset - i = x.offset - (i + 1) + 1 ∧
      x.stop - i = x.stop - (i + 1) + 1 := by
    intro x hx
    have hle := hlo x hx
    have hlt := (h.slice_eq x hx).2.1
    omega
  refine ⟨?_, h.ordered, h.visible, ?_, ?_⟩
  · intro x hx
    obtain ⟨-, hlt, hhi, hslice⟩ := h.slice_eq x hx
    rw [(hback x hx).1, (hback x hx).2, slice, List.drop_succ_cons, Nat.add_sub_add_right] at hslice
    rw [List.length_cons] at hhi
    exact ⟨hlo x hx, hlt, by omega, hslice⟩
  · intro k hk
    refine h.uncovered (k + 1) fun x hx hcovers => hk x hx ?_
    omega
  · intro x hx
    have hfull := h.full x hx
    rwa [(hback x hx).2, List.drop_succ_cons] at hfull

theorem tail {x : Token} (h : Tiling keywords i t (x :: ts)) (hx : x.offset = i) :
    Tiling keywords (i + x.text.length) (t.drop x.text.length) ts := by
  obtain ⟨hafter, hordered⟩ := List.pairwise_cons.1 h.ordered
  have hle : x.stop ≤ i + t.length := (h.slice_eq x List.mem_cons_self).2.2.1
  have hstop : x.stop = i + x.text.length := by rw [stop, hx]
  rw [hstop] at hafter hle
  refine ⟨?_, hordered, fun y hy => h.visible y (List.mem_cons_of_mem x hy), ?_, ?_⟩
  · intro y hy
    have hlo := hafter y hy
    obtain ⟨-, hlt, hhi, hslice⟩ := h.slice_eq y (List.mem_cons_of_mem x hy)
    refine ⟨hlo, hlt, by rw [List.length_drop]; omega, ?_⟩
    rw [← hslice, slice, slice, List.drop_drop]
    congr 1
    · omega
    · congr 1
      omega
  · intro k hk
    rw [List.drop_drop]
    refine h.uncovered _ ?_
    intro y hy hcovers
    rcases List.mem_cons.1 hy with rfl | hy
    · omega
    · exact hk y hy (by omega)
  · intro y hy
    have hlo := hafter y hy
    have hlt := (h.slice_eq y (List.mem_cons_of_mem x hy)).2.1
    have hfull := h.full y (List.mem_cons_of_mem x hy)
    have hback : y.stop - i = x.text.length + (y.stop - (i + x.text.length)) := by omega
    rwa [hback, ← List.drop_drop] at hfull

/-- The tokens are the lexemes, one after another. -/
theorem lexed (h : Tiling keywords i t ts) : Lexed keywords i t ts := by
  -- a token takes several characters at once, so the induction is on the length
  induction hlen : t.length using Nat.strongRecOn generalizing i t ts with
  | _ len ih =>
      cases hlexeme : lexeme? keywords t with
      | none =>
          cases t with
          | nil =>
              have hnil : ts = [] := by
                refine List.eq_nil_iff_forall_not_mem.2 fun x hx => ?_
                obtain ⟨hlo, hlt, hhi, -⟩ := h.slice_eq x hx
                rw [List.length_nil] at hhi
                omega
              rw [hnil]
              exact Lexed.nil i
          | cons c t =>
              rw [List.length_cons] at hlen
              exact Lexed.skip hlexeme (ih t.length (by omega) (h.skip hlexeme) rfl)
      | some lexeme =>
          obtain ⟨x, hx, hlo, hhi⟩ := h.exists_covering (k := 0) hlexeme
          have hoffset : x.offset = i := Nat.le_antisymm hlo (h.slice_eq x hx).1
          obtain ⟨before, behind, rfl⟩ := List.append_of_mem hx
          have hbefore : before = [] := by
            refine List.eq_nil_iff_forall_not_mem.2 fun y hy => ?_
            have hle := (List.pairwise_append.1 h.ordered).2.2 y hy x List.mem_cons_self
            obtain ⟨hlo, hlt, -⟩ := h.slice_eq y (List.mem_append_left _ hy)
            omega
          subst hbefore
          have hsome := h.lexeme?_at hx
          rw [hoffset, Nat.sub_self, List.drop_zero] at hsome
          obtain ⟨hpos, hle⟩ := lexeme?_length hsome
          have htext : t.take x.text.length = x.text := by
            have hslice := (h.slice_eq x hx).2.2.2
            rwa [slice, stop, hoffset, Nat.sub_self, Nat.add_sub_cancel_left, List.drop_zero,
              Nat.sub_zero] at hslice
          have htoken : x = ⟨x.kind, t.take x.text.length, i⟩ := by
            rw [htext, ← hoffset]
          rw [List.nil_append, htoken]
          refine Lexed.token hsome (ih _ ?_ (h.tail hoffset) rfl)
          rw [List.length_drop]
          omega

end Tiling

/-! ### Operators of two characters -/

/-- A full token does not end in the middle of an operator, unless it is another one. -/
theorem Full.mem_twoCharOperators {kind : TokenKind} {before u : Text} {c d : Char}
    (h : Full keywords kind (before ++ [c]) (d :: u)) (hop : [c, d] ∈ twoCharOperators) :
    before ++ [c] ∈ twoCharOperators := by
  obtain ⟨c', d', heq, hc, -, hd⟩ := exists_of_mem_twoCharOperators hop
  obtain ⟨rfl, rfl⟩ : c = c' ∧ d = d' := by simpa using heq
  obtain ⟨-, -, hmark, hdigit, -, hword⟩ := of_mem_signs hc
  generalize htext : before ++ [c] = text at h
  have hlast : text.getLast? = some c := by rw [← htext, List.getLast?_concat]
  generalize hrest : d :: u = rest at h
  cases h with
  | comment _ _ hbreak => exact absurd (hbreak d (by rw [← hrest]; rfl)) (of_mem_signs hd).2.1
  | @closed quote body _ hquote _ _ =>
      rw [← List.cons_append, List.getLast?_concat, Option.some.injEq] at hlast
      rw [hlast] at hquote
      exact absurd hquote (by simpa using hmark)
  | opened => cases hrest
  | number hnumeral _ =>
      rw [← htext] at hnumeral
      exact absurd hnumeral.isDigit_getLast (by simp [hdigit])
  | word hletter _ hall _ =>
      have hfirst := isWord_of_isLetter (by simpa using hletter)
      rcases List.mem_cons.1 (List.mem_of_getLast? hlast) with rfl | hmem
      · exact absurd hfirst (by simp [hword])
      · exact absurd (hall c hmem) (by simp [hword])
  | twoChars hmem => exact hmem
  | oneChar _ _ htwo =>
      obtain rfl : _ = c := by simpa using hlast
      exact absurd (hrest ▸ List.prefix_append [_, d] u) (htwo _ hop)

/-- An operator of two characters is not split: it is part of a token, or its first character is the
second one of another operator. -/
theorem Tiling.exists_operator {i : Nat} {t : Text} {ts : List Token}
    (h : Tiling keywords i t ts) {op : Text} (hop : op ∈ twoCharOperators) {k : Nat}
    (hk : op <+: t.drop k) :
    ∃ x ∈ ts, x.offset ≤ i + k ∧
      (i + k + 2 ≤ x.stop ∨ x.text ∈ twoCharOperators ∧ x.stop = i + k + 1) := by
  obtain ⟨c, d, rfl, hc, -⟩ := exists_of_mem_twoCharOperators hop
  obtain ⟨u, hu⟩ := hk
  have hsome : lexeme? keywords (t.drop k) = some (.operator, 2) := by
    rw [← hu]
    refine lexeme?_of_full (Full.twoChars hop) ?_
    intro e he
    obtain rfl : c = e := by simpa using he
    exact (of_mem_signs hc).1
  obtain ⟨x, hx, hlo, hhi⟩ := h.exists_covering hsome
  refine ⟨x, hx, hlo, ?_⟩
  rcases Nat.lt_or_ge (i + k + 1) x.stop with hlt | hge
  · exact Or.inl hlt
  · have hstop : x.stop = i + k + 1 := by omega
    refine Or.inr ⟨?_, hstop⟩
    obtain ⟨hstart, -, -, hslice⟩ := h.slice_eq x hx
    have hrest : t.drop (x.stop - i) = d :: u := by
      have hback : x.stop - i = k + 1 := by omega
      rw [hback, ← List.drop_drop, ← hu]
      rfl
    have hlast : t[k]? = some c := by
      rw [← Nat.add_zero k, ← List.getElem?_drop, ← hu]
      rfl
    have htext : x.text = (t.drop (x.offset - i)).take (k - (x.offset - i)) ++ [c] := by
      have hlen : x.stop - i - (x.offset - i) = k - (x.offset - i) + 1 := by omega
      have hplace : x.offset - i + (k - (x.offset - i)) = k := by omega
      rw [← hslice, slice, hlen, List.take_add_one, List.getElem?_drop, hplace, hlast]
      rfl
    have hfull := h.full x hx
    rw [hrest, htext] at hfull
    rw [htext]
    exact hfull.mem_twoCharOperators hop

/-- **The tokens of a text are its only tiling.**  They are stretches of the text in order; what is
between them is blank or starts no token; and each of them is as long as its kind allows.  Nor is an
operator of two characters split anywhere, unless its first character ends another one, as in
`<>=`. -/
theorem lex_tiles (keywords : List String) (sql : Text) :
    (∀ ts, Tiling keywords 0 sql ts ↔ ts = lex keywords sql) ∧
      ∀ k, ∀ op ∈ twoCharOperators, op <+: sql.drop k → ∃ x ∈ lex keywords sql, x.offset ≤ k ∧
        (k + 2 ≤ x.stop ∨ x.text ∈ twoCharOperators ∧ x.stop = k + 1) := by
  have htiling : Tiling keywords 0 sql (lex keywords sql) := (lexed_lex keywords sql).tiling
  refine ⟨?_, ?_⟩
  · intro ts
    constructor
    · intro h
      exact h.lexed.eq_lexFrom
    · rintro rfl
      exact htiling
  · intro k op hop hk
    have hoperator := htiling.exists_operator hop hk
    rwa [Nat.zero_add] at hoperator

/-- Two operators that share a character, a doubled quote, and a number with a second dot. -/
theorem lex_tiles_overlapping :
    let sql : Text := "a<>='it''s' 1.5.2--x".toList
    let ts : List Token :=
      [⟨.identifier, ['a'], 0⟩, ⟨.operator, ['<', '>'], 1⟩, ⟨.operator, ['='], 3⟩,
        ⟨.string, "'it''s'".toList, 4⟩, ⟨.number, "1.5".toList, 12⟩, ⟨.number, ['2'], 16⟩,
        ⟨.comment, "--x".toList, 17⟩]
    Tiling [] 0 sql ts ∧ ['>', '='] <+: sql.drop 2 ∧
      ∃ x ∈ ts, x.offset ≤ 2 ∧ (4 ≤ x.stop ∨ x.text ∈ twoCharOperators ∧ x.stop = 3) := by
  intro sql ts
  have hts : ts = lex [] sql := by decide +kernel
  have hpre : ['>', '='] <+: sql.drop 2 := by decide
  obtain ⟨htiling, hoperator⟩ := lex_tiles [] sql
  refine ⟨(htiling ts).2 hts, hpre, ?_⟩
  rw [hts]
  exact hoperator 2 ['>', '='] (by decide) hpre

end EmbeddedSql.Token
