/-
**The tokens of a text, one lexeme at a time.**

`Token.lexFrom` goes on character by character and counts the characters of a lexeme that are still
to be passed over.  `Token.Lexed` is the same reading with a whole lexeme as one step, and
`Token.lexed_iff` says that it describes the same lists.

Main definitions:

* `Token.Lexeme` — the kinds of lexemes, with what they start with and their lengths;
* `Token.Lexed` — the tokens of the text from an offset on, lexeme by lexeme;
* `Token.shift` — a token further back.

Main results:

* `Token.lexeme_of_eq_some` — all that a lexeme can be;
* `Token.lexeme?_length` — a lexeme is not empty and lies in the text;
* `Token.lexed_iff` — **the relation is the lexer**;
* `Token.Lexed.slice_eq`, `Token.Lexed.pairwise` — tokens are stretches of the text, in order and
  apart from each other;
* `Token.lexFrom_add` — tokens move with their text.
-/

import EmbeddedSql.Token

set_option relaxedAutoImplicit false
set_option autoImplicit false

namespace EmbeddedSql.Token

/-! ### Lexemes -/

theorem stringTail_cons_of_ne {quote c : Char} (hc : c ≠ quote) (t : Text) :
    stringTail quote (c :: t) = stringTail quote t + 1 := by
  cases t with
  | nil => rfl
  | cons d t => rw [stringTail, if_neg hc]

theorem stringTail_quote_of_ne {quote : Char} {t : Text} (ht : t.head? ≠ some quote) :
    stringTail quote (quote :: t) = 1 := by
  cases t with
  | nil => rfl
  | cons d t =>
      have hd : d ≠ quote := fun hd => ht (by rw [hd]; rfl)
      rw [stringTail, if_pos rfl, if_neg hd]

theorem stringTail_double (quote : Char) (t : Text) :
    stringTail quote (quote :: quote :: t) = stringTail quote t + 2 := by
  rw [stringTail, if_pos rfl, if_pos rfl]

theorem stringTail_le (quote : Char) (t : Text) : stringTail quote t ≤ t.length := by
  fun_induction stringTail quote t <;> simp_all

theorem numberLength_le (t : Text) : numberLength t ≤ t.length := by
  have hwhole : (t.takeWhile Text.isDigit).length ≤ t.length :=
    (List.takeWhile_sublist _).length_le
  unfold numberLength
  dsimp only
  split
  · next rest hrest =>
      have hfraction : (rest.takeWhile Text.isDigit).length ≤ rest.length :=
        (List.takeWhile_sublist _).length_le
      have hlen := congrArg List.length hrest
      rw [List.length_drop, List.length_cons] at hlen
      split <;> omega
  · exact hwhole

theorem length_takeWhile_pos {p : Char → Bool} {c : Char} (hc : p c = true) (t : Text) :
    0 < ((c :: t).takeWhile p).length := by
  simp [hc]

theorem numberLength_pos {c : Char} (hc : Text.isDigit c = true) (t : Text) :
    0 < numberLength (c :: t) := by
  have hwhole := length_takeWhile_pos hc t
  unfold numberLength
  dsimp only
  split
  · split <;> omega
  · exact hwhole

theorem isWord_of_isLetter {c : Char} (h : (Text.isLetter c || c == '_') = true) :
    Text.isWord c = true := by
  unfold Text.isWord Text.isAlphanumeric
  cases hc : Text.isLetter c <;> simp_all

/-- What a lexeme can be: the text it starts, its kind and its length. -/
inductive Lexeme (keywords : List String) : Text → TokenKind → Nat → Prop
  | comment {t : Text} (h : ['-', '-'] <+: t) :
      Lexeme keywords t .comment (t.takeWhile (· ≠ '\n')).length
  | string {c : Char} {t : Text} (h : c = '\'' ∨ c = '"') :
      Lexeme keywords (c :: t) .string (stringTail c t + 1)
  | number {c : Char} {t : Text} (h : Text.isDigit c = true) :
      Lexeme keywords (c :: t) .number (numberLength (c :: t))
  | word {c : Char} {t : Text} (h : Text.isWord c = true) :
      Lexeme keywords (c :: t)
        (wordKind keywords ((c :: t).takeWhile Text.isWord)
          ((c :: t).drop ((c :: t).takeWhile Text.isWord).length))
        ((c :: t).takeWhile Text.isWord).length
  | twoChars {op t : Text} (hop : op ∈ twoCharOperators) (h : op <+: t) :
      Lexeme keywords t .operator 2
  | oneChar {c : Char} {t : Text} (h : c ∈ oneCharOperators) : Lexeme keywords (c :: t) .operator 1

theorem lexeme_of_eq_some {keywords : List String} {t : Text} {kind : TokenKind} {n : Nat}
    (h : lexeme? keywords t = some (kind, n)) : Lexeme keywords t kind n := by
  cases t with
  | nil => simp [lexeme?] at h
  | cons c rest =>
      simp only [lexeme?] at h
      split at h
      · simp at h
      · split at h
        · next hcomment =>
            obtain ⟨rfl, rfl⟩ := Prod.mk.inj (Option.some.inj h)
            exact .comment (List.isPrefixOf_iff_prefix.1 hcomment)
        · split at h
          · next hquote =>
              obtain ⟨rfl, rfl⟩ := Prod.mk.inj (Option.some.inj h)
              exact .string (by simpa using hquote)
          · split at h
            · next hdigit =>
                obtain ⟨rfl, rfl⟩ := Prod.mk.inj (Option.some.inj h)
                exact .number hdigit
            · split at h
              · next hletter =>
                  obtain ⟨rfl, rfl⟩ := Prod.mk.inj (Option.some.inj h)
                  exact .word (isWord_of_isLetter (by simpa using hletter))
              · split at h
                · next htwo =>
                    obtain ⟨rfl, rfl⟩ := Prod.mk.inj (Option.some.inj h)
                    obtain ⟨op, hop, hpre⟩ := List.any_eq_true.1 htwo
                    exact .twoChars hop (List.isPrefixOf_iff_prefix.1 hpre)
                · split at h
                  · next hone =>
                      obtain ⟨rfl, rfl⟩ := Prod.mk.inj (Option.some.inj h)
                      exact .oneChar hone
                  · simp at h

/-- A lexeme is not empty and lies in the text. -/
theorem lexeme?_length {keywords : List String} {t : Text} {kind : TokenKind} {n : Nat}
    (h : lexeme? keywords t = some (kind, n)) : 0 < n ∧ n ≤ t.length := by
  cases lexeme_of_eq_some h with
  | comment hdash =>
      obtain ⟨rest, rfl⟩ := hdash
      exact ⟨length_takeWhile_pos (by decide) _, (List.takeWhile_sublist _).length_le⟩
  | @string c rest _ => exact ⟨Nat.succ_pos _, Nat.succ_le_succ (stringTail_le c rest)⟩
  | @number c rest hdigit => exact ⟨numberLength_pos hdigit rest, numberLength_le _⟩
  | @word c rest hword =>
      exact ⟨length_takeWhile_pos hword rest, (List.takeWhile_sublist _).length_le⟩
  | twoChars hop hpre =>
      have hlen : ∀ op ∈ twoCharOperators, op.length = 2 := by decide
      exact ⟨Nat.succ_pos _, hlen _ hop ▸ hpre.length_le⟩
  | oneChar _ => exact ⟨Nat.succ_pos _, Nat.succ_le_succ (Nat.zero_le _)⟩

theorem lexeme?_of_isBlank {keywords : List String} {c : Char} (hc : Text.isBlank c = true)
    (t : Text) : lexeme? keywords (c :: t) = none := by
  simp [lexeme?, hc]

theorem isBlank_of_quote {c : Char} (hc : (decide (c = '\'') || decide (c = '"')) = true) :
    Text.isBlank c = false := by
  simp only [Bool.or_eq_true, decide_eq_true_eq] at hc
  rcases hc with rfl | rfl <;> decide

theorem lexeme?_of_quote {keywords : List String} {c : Char}
    (hc : (decide (c = '\'') || decide (c = '"')) = true) (t : Text) :
    lexeme? keywords (c :: t) = some (.string, stringTail c t + 1) := by
  have hblank := isBlank_of_quote hc
  have hdash : ['-', '-'].isPrefixOf (c :: t) = false := by
    simp only [Bool.or_eq_true, decide_eq_true_eq] at hc
    rcases hc with rfl | rfl <;> rfl
  simp only [lexeme?, hblank, hdash, hc, Bool.false_eq_true, if_false, if_true]

theorem wordKind_congr {keywords : List String} {word rest rest' : Text}
    (h : (Text.trimLeft rest').head? = (Text.trimLeft rest).head?) :
    wordKind keywords word rest' = wordKind keywords word rest := by
  unfold wordKind
  split
  · rfl
  · rcases hl : Text.trimLeft rest with _ | ⟨c, s⟩ <;>
      rcases hr : Text.trimLeft rest' with _ | ⟨c', s'⟩
    · rfl
    · simp [hl, hr] at h
    · simp [hl, hr] at h
    · obtain rfl : c' = c := by simpa [hl, hr] using h
      by_cases hc : c' = '('
      · subst hc
        rfl
      · split
        · next heq => exact absurd (List.cons.inj heq).1 hc
        · split
          · next heq => exact absurd (List.cons.inj heq).1 hc
          · rfl

/-! ### Reading a lexeme at once -/

@[simp] theorem lexFrom_nil (keywords : List String) (k i : Nat) :
    lexFrom keywords k i [] = [] := by
  cases k <;> rfl

theorem lexFrom_succ (keywords : List String) (k i : Nat) (c : Char) (t : Text) :
    lexFrom keywords (k + 1) i (c :: t) = lexFrom keywords k (i + 1) t := rfl

theorem lexFrom_zero (keywords : List String) (i : Nat) (c : Char) (t : Text) :
    lexFrom keywords 0 i (c :: t) =
      match lexeme? keywords (c :: t) with
      | some (kind, n) => ⟨kind, (c :: t).take n, i⟩ :: lexFrom keywords (n - 1) (i + 1) t
      | none => lexFrom keywords 0 (i + 1) t := (rfl)

theorem lexFrom_of_none {keywords : List String} {c : Char} {t : Text}
    (h : lexeme? keywords (c :: t) = none) (i : Nat) :
    lexFrom keywords 0 i (c :: t) = lexFrom keywords 0 (i + 1) t := by
  rw [lexFrom_zero, h]

/-- Blanks hold no token. -/
theorem lexFrom_of_blank (keywords : List String) {t : Text} (h : Text.isAllBlank t = true)
    (i : Nat) : lexFrom keywords 0 i t = [] := by
  induction t generalizing i with
  | nil => rw [lexFrom_nil]
  | cons c t ih =>
      obtain ⟨hc, ht⟩ : Text.isBlank c = true ∧ Text.isAllBlank t = true := by
        simpa [Text.isAllBlank] using h
      rw [lexFrom_of_none (lexeme?_of_isBlank hc t), ih ht]

theorem lexFrom_of_some {keywords : List String} {c : Char} {t : Text} {kind : TokenKind} {n : Nat}
    (h : lexeme? keywords (c :: t) = some (kind, n)) (i : Nat) :
    lexFrom keywords 0 i (c :: t) =
      ⟨kind, (c :: t).take n, i⟩ :: lexFrom keywords (n - 1) (i + 1) t := by
  rw [lexFrom_zero, h]

theorem lexFrom_skip (keywords : List String) (k i : Nat) (t : Text) :
    lexFrom keywords k i t = lexFrom keywords 0 (i + k) (t.drop k) := by
  induction t generalizing k i with
  | nil => rw [List.drop_nil, lexFrom_nil, lexFrom_nil]
  | cons c t ih =>
      cases k with
      | zero => rw [Nat.add_zero, List.drop_zero]
      | succ k =>
          have hsum : i + 1 + k = i + (k + 1) := by omega
          rw [lexFrom_succ, ih, hsum, List.drop_succ_cons]

/-- The tokens of the text from an offset on, lexeme by lexeme. -/
inductive Lexed (keywords : List String) : Nat → Text → List Token → Prop
  /-- The text ends. -/
  | nil (i : Nat) : Lexed keywords i [] []
  /-- No lexeme starts here. -/
  | skip {i : Nat} {c : Char} {t : Text} {ts : List Token}
      (hnone : lexeme? keywords (c :: t) = none) (h : Lexed keywords (i + 1) t ts) :
      Lexed keywords i (c :: t) ts
  /-- A lexeme. -/
  | token {i n : Nat} {t : Text} {kind : TokenKind} {ts : List Token}
      (hsome : lexeme? keywords t = some (kind, n)) (h : Lexed keywords (i + n) (t.drop n) ts) :
      Lexed keywords i t (⟨kind, t.take n, i⟩ :: ts)

/-- A lexeme in front, and the tokens behind it. -/
theorem lexFrom_of_lexeme {keywords : List String} {t : Text} {kind : TokenKind} {n : Nat}
    (h : lexeme? keywords t = some (kind, n)) (i : Nat) :
    lexFrom keywords 0 i t = ⟨kind, t.take n, i⟩ :: lexFrom keywords 0 (i + n) (t.drop n) := by
  obtain ⟨hpos, -⟩ := lexeme?_length h
  obtain ⟨k, rfl⟩ : ∃ k, n = k + 1 := ⟨n - 1, by omega⟩
  cases t with
  | nil => simp [lexeme?] at h
  | cons c t =>
      have hsum : i + 1 + k = i + (k + 1) := by omega
      rw [lexFrom_of_some h, Nat.add_sub_cancel, lexFrom_skip, hsum, List.drop_succ_cons]

theorem lexed_lexFrom (keywords : List String) (i : Nat) (t : Text) :
    Lexed keywords i t (lexFrom keywords 0 i t) := by
  -- a lexeme takes several characters at once, so the induction is on the length
  induction hlen : t.length using Nat.strongRecOn generalizing i t with
  | _ len ih =>
      cases hlexeme : lexeme? keywords t with
      | none =>
          cases t with
          | nil => exact Lexed.nil i
          | cons c t =>
              rw [List.length_cons] at hlen
              rw [lexFrom_of_none hlexeme]
              exact Lexed.skip hlexeme (ih t.length (by omega) (i + 1) t rfl)
      | some lexeme =>
          obtain ⟨kind, n⟩ := lexeme
          obtain ⟨hpos, hle⟩ := lexeme?_length hlexeme
          rw [lexFrom_of_lexeme hlexeme]
          refine Lexed.token hlexeme (ih (t.drop n).length ?_ (i + n) (t.drop n) rfl)
          rw [List.length_drop]
          omega

theorem lexed_lex (keywords : List String) (t : Text) : Lexed keywords 0 t (lex keywords t) :=
  lexed_lexFrom keywords 0 t

namespace Lexed

variable {keywords : List String} {i : Nat} {t : Text} {ts : List Token}

theorem eq_lexFrom (h : Lexed keywords i t ts) : ts = lexFrom keywords 0 i t := by
  induction h with
  | nil i => rw [lexFrom_nil]
  | skip hnone _ ih => rw [lexFrom_of_none hnone, ih]
  | token hsome _ ih => rw [lexFrom_of_lexeme hsome, ih]

end Lexed

/-- **The relation is the lexer.** -/
theorem lexed_iff {keywords : List String} {i : Nat} {t : Text} {ts : List Token} :
    Lexed keywords i t ts ↔ ts = lexFrom keywords 0 i t :=
  ⟨Lexed.eq_lexFrom, fun h => h ▸ lexed_lexFrom keywords i t⟩

namespace Lexed

variable {keywords : List String} {i : Nat} {t : Text} {ts : List Token}

/-! ### Where tokens stand -/

/-- Tokens are stretches of the text that are not empty. -/
theorem slice_eq (h : Lexed keywords i t ts) {x : Token} (hx : x ∈ ts) :
    i ≤ x.offset ∧ x.offset < x.stop ∧ x.stop ≤ i + t.length ∧
      t.slice (x.offset - i) (x.stop - i) = x.text := by
  induction h with
  | nil i => simp at hx
  | @skip i c t ts _ _ ih =>
      obtain ⟨hlo, hlt, hhi, hslice⟩ := ih hx
      refine ⟨by omega, hlt, by rw [List.length_cons]; omega, ?_⟩
      have hstart : x.offset - i = x.offset - (i + 1) + 1 := by omega
      have hlen : x.stop - i - (x.offset - i) = x.stop - (i + 1) - (x.offset - (i + 1)) := by omega
      rw [Text.slice, hlen, hstart, List.drop_succ_cons]
      exact hslice
  | @token i n t kind ts hsome _ ih =>
      obtain ⟨hpos, hle⟩ := lexeme?_length hsome
      have htake : (t.take n).length = n := by rw [List.length_take]; omega
      rcases List.mem_cons.1 hx with rfl | hx
      · simp only [stop, htake, Nat.sub_self, Text.slice, List.drop_zero, Nat.sub_zero,
          Nat.add_sub_cancel_left, and_true]
        omega
      · obtain ⟨hlo, hlt, hhi, hslice⟩ := ih hx
        rw [List.length_drop] at hhi
        refine ⟨by omega, hlt, by omega, ?_⟩
        have hstart : x.offset - i = n + (x.offset - (i + n)) := by omega
        have hlen : x.stop - i - (x.offset - i) =
            x.stop - (i + n) - (x.offset - (i + n)) := by omega
        rw [Text.slice, hlen, hstart, ← List.drop_drop]
        exact hslice

/-- Tokens stand in order and apart from each other. -/
theorem pairwise (h : Lexed keywords i t ts) : ts.Pairwise fun a b => a.stop ≤ b.offset := by
  induction h with
  | nil i => exact List.Pairwise.nil
  | skip _ _ ih => exact ih
  | @token i n t kind ts hsome h ih =>
      obtain ⟨-, hle⟩ := lexeme?_length hsome
      refine List.Pairwise.cons (fun b hb => ?_) ih
      have hlo := (h.slice_eq hb).1
      have htake : (t.take n).length = n := by rw [List.length_take]; omega
      simpa [stop, htake] using hlo

end Lexed

/-! ### Tokens further back -/

/-- A token some characters further back. -/
def shift (n : Nat) (t : Token) : Token :=
  { t with offset := n + t.offset }

@[simp] theorem shift_offset (n : Nat) (t : Token) : (t.shift n).offset = n + t.offset := rfl

@[simp] theorem shift_stop (n : Nat) (t : Token) : (t.shift n).stop = n + t.stop :=
  Nat.add_assoc _ _ _

/-- Tokens move with their text. -/
theorem lexFrom_add {keywords : List String} (n i : Nat) (t : Text) :
    lexFrom keywords 0 (n + i) t = (lexFrom keywords 0 i t).map (shift n) := by
  have h := lexed_lexFrom keywords i t
  generalize lexFrom keywords 0 i t = ts at h
  induction h with
  | nil i => rw [lexFrom_nil, List.map_nil]
  | @skip i c t ts hnone _ ih => rw [lexFrom_of_none hnone, Nat.add_assoc, ih]
  | @token i k t kind ts hsome _ ih =>
      rw [lexFrom_of_lexeme hsome, Nat.add_assoc, ih, List.map_cons]
      rfl

end EmbeddedSql.Token
