/-
**The database is asked with one literal.**

A question to the database is a call with one argument, and the argument is the text of a user
between quotes.  The text may hold quotes of its own in runs of any length, at its start, in the
middle and at its end; doubling every one of them makes each run even, so none of them can close the
literal, wherever it stands.

Main definitions:

* `Token.Caption` — words and blanks, and a parenthesis behind them;
* `Database.Encloses` — a statement in which a text stands in one literal and nowhere else;
* `Database.sent` — all statements that were sent.

Main results:

* `Token.doubled_replaceChar`, `Text.replaceAll_replaceChar` — doubled quotes do not close a
  literal, and can be made single again;
* `Token.lex_caption_append` — the lexer starts anew behind a caption;
* `Database.encloses_literal` — a caption and a literal enclose the text;
* `Database.statement_encloses` — **what is asked of the database stays in its literal**.
-/

import EmbeddedSql.Database
import EmbeddedSql.Proofs.Token.Tiling

set_option relaxedAutoImplicit false
set_option autoImplicit false

namespace EmbeddedSql

open Text

/-! ### Doubled quotes -/

namespace Token

/-- With every quote written twice, no quote stands alone. -/
theorem doubled_replaceChar (quote : Char) (t : Text) :
    Doubled quote (replaceChar quote [quote, quote] t) := by
  induction t with
  | nil => exact Doubled.nil
  | cons c t ih =>
      rw [replaceChar_cons]
      by_cases hc : c = quote
      · rw [if_pos hc]
        exact ih.pair
      · rw [if_neg hc]
        exact ih.plain hc

/-- A literal ends with the quote behind its content, unless another quote follows. -/
theorem Doubled.stringTail_closed {quote : Char} {body rest : Text} (h : Doubled quote body)
    (hrest : rest.head? ≠ some quote) :
    stringTail quote (body ++ quote :: rest) = body.length + 1 := by
  rw [h.stringTail_append, stringTail_quote_of_ne hrest]

end Token

/-- Every quote written twice, and every two of them once again. -/
theorem Text.replaceAll_replaceChar (quote : Char) (t : Text) :
    replaceAll [quote, quote] [quote] (replaceChar quote [quote, quote] t) = t := by
  rw [replaceAll, if_neg (by simp)]
  induction t with
  | nil => rfl
  | cons c t ih =>
      rw [replaceChar_cons]
      by_cases hc : c = quote
      · have hpair : [quote, quote].isPrefixOf
            (quote :: quote :: replaceChar quote [quote, quote] t) = true := by
          simp [List.isPrefixOf]
        rw [if_pos hc, List.cons_append, List.singleton_append, replaceFrom, if_pos hpair,
          List.singleton_append, hc]
        exact congrArg (quote :: ·) ih
      · have hplain : [quote, quote].isPrefixOf
            (c :: replaceChar quote [quote, quote] t) = false := by
          simp [List.isPrefixOf, Ne.symm hc]
        rw [if_neg hc, List.singleton_append, replaceFrom, hplain, if_neg Bool.false_ne_true, ih]

/-! ### Captions -/

namespace Token

variable {keywords : List String}

/-- A blank, or a character that a word can start with. -/
def isPlain (c : Char) : Bool :=
  isBlank c || (!isDigit c && (isLetter c || c = '_'))

/-- Words and blanks, and a parenthesis behind them. -/
def Caption (t : Text) : Prop :=
  ∃ words, t = words ++ ['('] ∧ words.all isPlain = true

theorem lexeme?_of_paren (t : Text) : lexeme? keywords ('(' :: t) = none := by
  simp +decide [lexeme?, twoCharOperators]

/-- Only blanks are looked through before a parenthesis. -/
theorem head?_trimLeft_paren (words rest : Text) :
    (trimLeft (words ++ '(' :: rest)).head? = (trimLeft (words ++ ['('])).head? := by
  have hparen : isBlank '(' = false := by decide +kernel
  unfold trimLeft
  rw [List.dropWhile_append, List.dropWhile_append]
  split
  · simp [hparen]
  · next hne =>
      obtain ⟨c, t, ht⟩ := List.exists_cons_of_ne_nil fun hnil => hne (List.isEmpty_iff.2 hnil)
      rw [ht]
      rfl

theorem takeWhile_isWord_paren (words rest : Text) :
    (words ++ '(' :: rest).takeWhile isWord = words.takeWhile isWord := by
  have hparen : isWord '(' = false := by decide +kernel
  rw [List.takeWhile_append]
  split
  · next hall =>
      rw [List.takeWhile_cons_of_neg (by simp [hparen]), List.append_nil,
        (List.takeWhile_prefix isWord).eq_of_length hall]
  · rfl

/-- What starts before the parenthesis of a caption ends there, whatever follows. -/
theorem lexeme?_before_paren {c : Char} (hc : isPlain c = true) (words rest : Text) :
    lexeme? keywords (c :: (words ++ '(' :: rest)) = lexeme? keywords (c :: (words ++ ['('])) ∧
      ∀ lexeme ∈ lexeme? keywords (c :: (words ++ ['('])), lexeme.2 ≤ words.length + 1 := by
  cases hblank : isBlank c with
  | true =>
      rw [lexeme?_of_isBlank hblank, lexeme?_of_isBlank hblank]
      exact ⟨rfl, by simp⟩
  | false =>
      obtain ⟨hdigit, hletter⟩ : isDigit c = false ∧ (isLetter c = true ∨ c = '_') := by
        simpa [isPlain, hblank] using hc
      have hword := takeWhile_isWord_paren (c :: words)
      have hle : ((c :: words).takeWhile isWord).length ≤ (c :: words).length :=
        (List.takeWhile_sublist isWord).length_le
      simp only [List.cons_append] at hword
      rw [lexeme?_of_isLetter hblank hdigit hletter, lexeme?_of_isLetter hblank hdigit hletter,
        hword, hword, ← List.cons_append, ← List.cons_append,
        List.drop_append_of_le_length hle, List.drop_append_of_le_length hle,
        wordKind_congr (head?_trimLeft_paren _ rest)]
      refine ⟨rfl, ?_⟩
      rintro lexeme ⟨⟩
      exact hle

/-- Behind a caption the lexer starts anew. -/
theorem Lexed.caption {i : Nat} {words : Text} {ts : List Token}
    (h : Lexed keywords i (words ++ ['(']) ts) (hwords : words.all isPlain = true) (rest : Text) :
    Lexed keywords i (words ++ '(' :: rest)
      (ts ++ lexFrom keywords 0 (i + (words.length + 1)) rest) := by
  generalize hcaption : words ++ ['('] = caption at h
  induction h generalizing words with
  | nil i => simp at hcaption
  | @skip i c t ts hnone h ih =>
      cases words with
      | nil =>
          obtain ⟨rfl, rfl⟩ : '(' = c ∧ [] = t := by simpa using hcaption
          obtain rfl : ts = [] := by simpa using h.eq_lexFrom
          exact Lexed.skip (lexeme?_of_paren rest) (lexed_lexFrom keywords (i + 1) rest)
      | cons d words =>
          obtain ⟨rfl, rfl⟩ : d = c ∧ words ++ ['('] = t := by simpa using hcaption
          obtain ⟨hd, hwords⟩ := Bool.and_eq_true_iff.1 (List.all_cons.symm.trans hwords)
          have hsum : i + (words.length + 1 + 1) = i + 1 + (words.length + 1) := by omega
          rw [List.cons_append, List.length_cons, hsum]
          exact Lexed.skip ((lexeme?_before_paren hd words rest).1.trans hnone) (ih hwords rfl)
  | @token i n t kind ts hsome h ih =>
      cases words with
      | nil =>
          obtain rfl : ['('] = t := by simpa using hcaption
          rw [lexeme?_of_paren] at hsome
          cases hsome
      | cons d words =>
          obtain rfl : d :: (words ++ ['(']) = t := by simpa using hcaption
          obtain ⟨hd, -⟩ := Bool.and_eq_true_iff.1 (List.all_cons.symm.trans hwords)
          obtain ⟨hsame, hle⟩ := @lexeme?_before_paren keywords d hd words rest
          have hn : n ≤ (d :: words).length := hle _ hsome
          have hdrop : ((d :: words).drop n).length = (d :: words).length - n := List.length_drop
          have hsum : i + ((d :: words).length + 1) =
              i + n + (((d :: words).drop n).length + 1) := by omega
          have hplain : ((d :: words).drop n).all isPlain = true :=
            List.all_eq_true.2 fun c hc => List.all_eq_true.1 hwords c (List.mem_of_mem_drop hc)
          have hrest := ih hplain (by rw [← List.cons_append, List.drop_append_of_le_length hn])
          rw [← List.drop_append_of_le_length hn, ← hsum] at hrest
          have htoken := Lexed.token (hsame.trans hsome) hrest
          rw [← List.cons_append, List.take_append_of_le_length hn] at htoken
          rw [← List.cons_append, List.take_append_of_le_length hn]
          exact htoken

/-- Behind a caption the lexer starts anew. -/
theorem lex_caption_append {caption : Text} (h : Caption caption) (rest : Text) :
    lex keywords (caption ++ rest) =
      lex keywords caption ++ lexFrom keywords 0 caption.length rest := by
  obtain ⟨words, rfl, hwords⟩ := h
  have hlexed := (lexed_lex keywords (words ++ ['('])).caption hwords rest
  rw [Nat.zero_add] at hlexed
  rw [List.length_append, List.length_singleton, List.append_assoc, List.singleton_append]
  exact hlexed.eq_lexFrom.symm

end Token

/-! ### Statements -/

namespace Database

/-- A statement in which a text stands in one literal and nowhere else. -/
structure Encloses (caption code content statement : Text) : Prop where
  /-- The literal is the only argument of a call. -/
  statement_eq : statement = caption ++ '\'' :: (content ++ ['\'', ')'])
  /-- It ends with the quote behind its content. -/
  stringTail_eq : Token.stringTail '\'' (content ++ ['\'', ')']) = content.length + 1
  /-- Its content stands for the text. -/
  content_eq : replaceAll ['\'', '\''] ['\''] content = code
  /-- Its tokens are those of the caption and the literal. -/
  lex_eq (keywords : List String) : Token.lex keywords statement =
    Token.lex keywords caption ++ [⟨.string, '\'' :: (content ++ ['\'']), caption.length⟩]

/-- The literal of a text, and the parenthesis behind it. -/
theorem lexFrom_literal (keywords : List String) (i : Nat) {content : Text}
    (h : Token.Doubled '\'' content) :
    Token.lexFrom keywords 0 i ('\'' :: (content ++ ['\'', ')'])) =
      [⟨.string, '\'' :: (content ++ ['\'']), i⟩] := by
  have hfull : Token.Full keywords .string ('\'' :: (content ++ ['\''])) [')'] :=
    Token.Full.closed (Or.inl rfl) h (by decide)
  have hlexeme := Token.lexeme?_of_full hfull (by simp +decide)
  have hsplit : '\'' :: (content ++ ['\'', ')']) = '\'' :: (content ++ ['\'']) ++ [')'] := by simp
  have hparen : Token.lexeme? keywords [')'] = none := by
    simp +decide [Token.lexeme?]
  rw [hsplit, Token.lexFrom_of_lexeme hlexeme, List.take_left, List.drop_left,
    Token.lexFrom_of_none hparen, Token.lexFrom_nil]

/-- A caption and a literal enclose the text. -/
theorem encloses_literal {caption : Text} (h : Token.Caption caption) (code : Text) :
    Encloses caption code (replaceChar '\'' ['\'', '\''] code)
      (caption ++ literal code ++ [')']) where
  statement_eq := by simp [literal]
  stringTail_eq := (Token.doubled_replaceChar '\'' code).stringTail_closed (by decide)
  content_eq := Text.replaceAll_replaceChar '\'' code
  lex_eq := by
    intro keywords
    have hsplit : caption ++ literal code ++ [')'] =
        caption ++ '\'' :: (replaceChar '\'' ['\'', '\''] code ++ ['\'', ')']) := by
      simp [literal]
    rw [hsplit, Token.lex_caption_append h,
      lexFrom_literal keywords _ (Token.doubled_replaceChar '\'' code)]

/-! ### What is sent -/

/-- All statements that were sent, oldest first. -/
def sent (d : Database) : List Statement :=
  d.connections.flatMap Connection.sent

theorem sent_send (d : Database) (s : Statement) :
    (d.send s).2.sent = d.sent ++ if d.active.isSome then [s] else [] := by
  cases hactive : d.active with
  | none => simp [send, hactive]
  | some c => simp [send, sent, connections, Connection.send, hactive]

theorem sent_verdict (depths : Depths) (d : Database) (code : Text) :
    (d.verdict depths code).2.sent =
      d.sent ++ if d.active.isSome && !code.isEmpty then [⟨String.ofList (reportQuery code), none⟩]
      else [] := by
  cases hcode : code.isEmpty with
  | true => simp [verdict, hcode]
  | false =>
      rw [verdict, hcode, if_neg Bool.false_ne_true, Bool.not_false, Bool.and_true]
      exact d.sent_send _

theorem sent_execute (d : Database) {query : String} (h : query.isEmpty = false) :
    (d.execute query .null).2.sent = d.sent ++ if d.active.isSome then [⟨query, none⟩] else [] := by
  have hnone : (if Value.null.truthy then some Value.null else none) = none := rfl
  rw [execute, h, if_neg Bool.false_ne_true, hnone, ← d.sent_send]
  dsimp only
  split <;> next hsend => rw [hsend]

theorem isEmpty_completionQuery (code : Text) :
    (String.ofList (completionQuery code)).isEmpty = false := by
  unfold completionQuery
  -- `simp` would take the characters of a literal apart
  generalize "SELECT suggestion FROM sql_auto_complete(".toList = caption
  simp

theorem sent_suggestions (depth : Nat) (d : Database) (code : Text) :
    (d.suggestions depth code).2.sent = d.sent ++ if d.active.isSome && !code.isEmpty
      then [⟨String.ofList (completionQuery code), none⟩] else [] := by
  cases hcode : code.isEmpty with
  | true => simp [suggestions, hcode]
  | false =>
      rw [suggestions, hcode, if_neg Bool.false_ne_true, Bool.not_false, Bool.and_true]
      exact d.sent_execute (isEmpty_completionQuery code)

/-! ### The two questions -/

theorem caption_report : Token.Caption "SELECT json_serialize_sql(".toList :=
  ⟨"SELECT json_serialize_sql".toList, by decide +kernel, by decide +kernel⟩

theorem caption_completion : Token.Caption "SELECT suggestion FROM sql_auto_complete(".toList :=
  ⟨"SELECT suggestion FROM sql_auto_complete".toList, by decide +kernel, by decide +kernel⟩

/-- **What is asked of the database stays in its literal.**  Whatever text it is asked about, the
question for a report and the question for completions hold the text in one literal, which ends with
the last quote of the question and has only the parenthesis behind it; with its quotes made single
again the content is the text, and the other tokens do not depend on it.  Nothing but this one
question is sent, and nothing at all without a connection or for an empty text. -/
theorem statement_encloses (depths : Depths) (d : Database) (code : Text) : ∃ content,
    Encloses "SELECT json_serialize_sql(".toList code content (reportQuery code) ∧
    Encloses "SELECT suggestion FROM sql_auto_complete(".toList code content
      (completionQuery code) ∧
    (d.verdict depths code).2.sent = d.sent ++ (if d.active.isSome && !code.isEmpty
      then [⟨String.ofList (reportQuery code), none⟩] else []) ∧
    (d.suggestions depths.display code).2.sent = d.sent ++ (if d.active.isSome && !code.isEmpty
      then [⟨String.ofList (completionQuery code), none⟩] else []) :=
  ⟨_, encloses_literal caption_report code, encloses_literal caption_completion code,
    d.sent_verdict depths code, d.sent_suggestions depths.display code⟩

/-- A text that tries to close the literal and to hide the rest in a comment. -/
example : Token.lex ["SELECT"] (reportQuery "a'') --".toList) =
    [⟨.keyword, "SELECT".toList, 0⟩, ⟨.function, "json_serialize_sql".toList, 7⟩,
      ⟨.string, "'a'''') --'".toList, 26⟩] := by
  decide +kernel

end Database

end EmbeddedSql
