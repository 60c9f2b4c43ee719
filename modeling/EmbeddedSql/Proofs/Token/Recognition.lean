/-
**Keywords change kinds, and the lexer forgets what it has read.**

A word is looked up among the keywords before the lexer looks for a parenthesis behind it.  Neither
look moves the place where the next token starts: with other keywords the same lexemes are read,
and a text that is read from a token on gives that token and the ones behind it.

Main definitions:

* `Token.recognised` — the kind of a token once its word is looked up;
* `Token.recognise` — the token with that kind.

Main results:

* `Token.lexeme?_recognised` — a set of keywords changes the kind of a lexeme only;
* `Token.Lexed.recognise` — it changes the kinds in a whole text only;
* `Token.Lexed.restart` — a reading holds from each of its tokens on;
* `Token.lex_reclassifies` — **keywords change kinds only, and a reading can start at a token**.
-/

import EmbeddedSql.Proofs.Token.Lexed

set_option relaxedAutoImplicit false
set_option autoImplicit false

namespace EmbeddedSql.Token

/-! ### Looking words up -/

/-- The kind of a token once its word is looked up: only an identifier or a function can turn out
to be a keyword. -/
def recognised (keywords : List String) (kind : TokenKind) (text : Text) : TokenKind :=
  if (kind = .identifier ∨ kind = .function) ∧ String.ofList (Text.upper text) ∈ keywords then
    .keyword
  else kind

/-- A token once its word is looked up. -/
def recognise (keywords : List String) (t : Token) : Token :=
  { t with kind := recognised keywords t.kind t.text }

theorem recognised_of_ne {keywords : List String} {kind : TokenKind} {text : Text}
    (hident : kind ≠ .identifier) (hfunction : kind ≠ .function) :
    recognised keywords kind text = kind := by
  rw [recognised, if_neg]
  rintro ⟨rfl | rfl, -⟩
  · exact hident rfl
  · exact hfunction rfl

theorem wordKind_nil (word rest : Text) :
    wordKind [] word rest = .identifier ∨ wordKind [] word rest = .function := by
  rw [wordKind, if_neg List.not_mem_nil]
  split
  · exact Or.inr rfl
  · exact Or.inl rfl

/-- The look for a parenthesis does not depend on the keywords. -/
theorem wordKind_recognised (keywords : List String) (word rest : Text) :
    wordKind keywords word rest = recognised keywords (wordKind [] word rest) word := by
  by_cases hword : String.ofList (Text.upper word) ∈ keywords
  · rw [wordKind, if_pos hword, recognised, if_pos ⟨wordKind_nil word rest, hword⟩]
  · rw [recognised, if_neg fun h => hword h.2, wordKind, wordKind, if_neg hword,
      if_neg List.not_mem_nil]

/-- A set of keywords changes the kind of a lexeme and leaves its length. -/
theorem lexeme?_recognised (keywords : List String) (t : Text) :
    lexeme? keywords t =
      (lexeme? [] t).map fun l => (recognised keywords l.1 (t.take l.2), l.2) := by
  -- a kind that no word has
  have hstays : ∀ {kind : TokenKind} {n : Nat}, kind ≠ .identifier → kind ≠ .function →
      some (kind, n) =
        (some (kind, n)).map fun l => (recognised keywords l.1 (t.take l.2), l.2) := by
    intro kind n hident hfunction
    rw [Option.map_some, recognised_of_ne hident hfunction]
  cases t with
  | nil => rfl
  | cons c rest =>
      simp only [lexeme?]
      split
      · rfl
      · split
        · exact hstays (by simp) (by simp)
        · split
          · exact hstays (by simp) (by simp)
          · split
            · exact hstays (by simp) (by simp)
            · split
              · have htake := List.prefix_iff_eq_take.1
                  (List.takeWhile_prefix (l := c :: rest) Text.isWord)
                rw [Option.map_some, ← htake, wordKind_recognised keywords]
              · split
                · exact hstays (by simp) (by simp)
                · split
                  · exact hstays (by simp) (by simp)
                  · rfl

namespace Lexed

/-- Other keywords give the same tokens with other kinds. -/
theorem recognise {i : Nat} {t : Text} {ts : List Token} (h : Lexed [] i t ts)
    (keywords : List String) : Lexed keywords i t (ts.map (Token.recognise keywords)) := by
  induction h with
  | nil i => exact Lexed.nil i
  | skip hnone _ ih =>
      refine Lexed.skip ?_ ih
      rw [lexeme?_recognised, hnone]
      rfl
  | token hsome _ ih =>
      refine Lexed.token ?_ ih
      rw [lexeme?_recognised, hsome]
      rfl

/-- Without keywords no token is one. -/
theorem kind_ne_keyword {i : Nat} {t : Text} {ts : List Token} (h : Lexed [] i t ts) {x : Token}
    (hx : x ∈ ts) : x.kind ≠ .keyword := by
  induction h with
  | nil i => simp at hx
  | skip _ _ ih => exact ih hx
  | token hsome _ ih =>
      rcases List.mem_cons.1 hx with rfl | hx
      · cases lexeme_of_eq_some hsome with
        | @word c t _ =>
            rcases wordKind_nil ((c :: t).takeWhile Text.isWord)
              ((c :: t).drop ((c :: t).takeWhile Text.isWord).length) with hkind | hkind <;>
              simp [hkind]
        | _ => simp
      · exact ih hx

/-! ### Starting at a token -/

variable {keywords : List String}

/-- A reading holds from each of its tokens on. -/
theorem restart {i : Nat} {s : Text} {before behind : List Token} {t : Token}
    (h : Lexed keywords i s (before ++ t :: behind)) :
    i ≤ t.offset ∧ Lexed keywords t.offset (s.drop (t.offset - i)) (t :: behind) := by
  generalize hts : before ++ t :: behind = ts at h
  induction h generalizing before with
  | nil i => simp at hts
  | @skip i c s ts _ _ ih =>
      obtain ⟨hle, hrest⟩ := ih hts
      have hdrop : t.offset - i = t.offset - (i + 1) + 1 := by omega
      refine ⟨by omega, ?_⟩
      rwa [hdrop, List.drop_succ_cons]
  | @token i n s kind ts hsome hnext ih =>
      cases before with
      | nil =>
          obtain ⟨rfl, rfl⟩ := List.cons.inj hts
          refine ⟨Nat.le_refl i, ?_⟩
          rw [Nat.sub_self, List.drop_zero]
          exact Lexed.token hsome hnext
      | cons x before =>
          obtain ⟨-, hts⟩ := List.cons.inj hts
          obtain ⟨hle, hrest⟩ := ih hts
          have hdrop : t.offset - i = n + (t.offset - (i + n)) := by omega
          refine ⟨by omega, ?_⟩
          rwa [hdrop, ← List.drop_drop]

end Lexed

/-- **Keywords change kinds only, and a reading can start at a token.**

With a set of keywords the tokens are those without keywords, each with its word looked up; no other
token is a keyword.  The text from a token on has the tokens from this one on, as far back as the
token stands. -/
theorem lex_reclassifies (keywords : List String) (sql : Text) :
    lex keywords sql = (lex [] sql).map (recognise keywords) ∧
      (∀ t ∈ lex [] sql, t.kind ≠ .keyword) ∧
      ∀ before t behind, lex keywords sql = before ++ t :: behind →
        t :: behind = (lex keywords (sql.drop t.offset)).map (shift t.offset) := by
  have hplain := lexed_lex [] sql
  refine ⟨(hplain.recognise keywords).eq_lexFrom.symm, fun t ht => hplain.kind_ne_keyword ht, ?_⟩
  intro before t behind hlex
  obtain ⟨-, hrest⟩ := (hlex ▸ lexed_lex keywords sql).restart
  calc t :: behind = lexFrom keywords 0 t.offset (sql.drop t.offset) := hrest.eq_lexFrom
    _ = (lex keywords (sql.drop t.offset)).map (shift t.offset) := lexFrom_add t.offset 0 _

/-- The keyword `F` hides one call, and the other one is still a call when it comes first. -/
theorem lex_reclassifies_call :
    let keywords := ["SELECT", "F"]
    let sql := "select f(x (1), 'a')".toList
    let before := [⟨.keyword, "select".toList, 0⟩, ⟨.keyword, ['f'], 7⟩]
    let behind := [⟨.number, ['1'], 12⟩, ⟨.string, "'a'".toList, 16⟩]
    lex keywords sql = before ++ ⟨.function, ['x'], 9⟩ :: behind ∧
      ⟨.function, ['x'], 9⟩ :: behind = (lex keywords (sql.drop 9)).map (shift 9) := by
  intro keywords sql before behind
  have hlex : lex keywords sql = before ++ ⟨.function, ['x'], 9⟩ :: behind := by decide +kernel
  exact ⟨hlex, (lex_reclassifies keywords sql).2.2 before ⟨.function, ['x'], 9⟩ behind hlex⟩

end EmbeddedSql.Token
