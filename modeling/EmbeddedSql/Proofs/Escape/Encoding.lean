/-
**Writing text back into a literal.**

Encoding works on one character after another: a backslash and the quote of the literal get a
backslash in front, everything else stays.  So the encoded content decodes to the text it came from,
the first bare quote behind it is the closing one, and its lines are the encoded lines of the text.

Main definitions:

* `Escape.encodeChar` — the content for one character;
* `Escape.Written` — the content that encoding writes.

Main results:

* `Escape.encode_cons` — encoding, one character at a time;
* `Escape.decode_encode` — **decoding undoes encoding**;
* `Escape.closingDistance?_encode` — **encoded content never closes its literal**;
* `Escape.encode_decode_eq_iff` — which content comes back when it is decoded and encoded again;
* `Escape.lines_encode`, `Escape.encode_joinLines` — encoding keeps the lines apart.
-/

import EmbeddedSql.Escape
import EmbeddedSql.Proofs.Document.Lines
import EmbeddedSql.Proofs.Literal.Scan

set_option relaxedAutoImplicit false
set_option autoImplicit false

namespace EmbeddedSql.Escape

open Text

/-! ### One character at a time -/

/-- The content for one character. -/
def encodeChar (quote c : Char) : Text :=
  if c = '\\' then ['\\', '\\'] else if c = quote then ['\\', quote] else [c]

@[simp] theorem encode_nil (quote : Char) : encode quote [] = [] := rfl

variable {quote : Char}

theorem encode_append (quote : Char) (s t : Text) :
    encode quote (s ++ t) = encode quote s ++ encode quote t := by
  simp [encode, replaceChar_append]

theorem encode_cons (hquote : quote ≠ '\\') (c : Char) (t : Text) :
    encode quote (c :: t) = encodeChar quote c ++ encode quote t := by
  have hone : encode quote [c] = encodeChar quote c := by
    by_cases hc : c = '\\'
    · simp [encode, encodeChar, replaceChar_cons, hc, Ne.symm hquote]
    · simp [encode, encodeChar, replaceChar_cons, hc]
  rw [← List.singleton_append, encode_append, hone]

theorem mem_encodeChar {c d : Char} (h : d ∈ encodeChar quote c) : d = '\\' ∨ d = c := by
  unfold encodeChar at h
  split at h
  · exact Or.inl (by simpa using h)
  · split at h
    · next hc => simpa [hc] using h
    · exact Or.inr (by simpa using h)

/-- Encoding brings in nothing but backslashes. -/
theorem mem_of_mem_encode (hquote : quote ≠ '\\') {t : Text} {d : Char} (h : d ∈ encode quote t)
    (hd : d ≠ '\\') : d ∈ t := by
  induction t with
  | nil => simp at h
  | cons c t ih =>
      rw [encode_cons hquote, List.mem_append] at h
      rcases h with h | h
      · exact List.mem_cons.2 (Or.inl ((mem_encodeChar h).resolve_left hd))
      · exact List.mem_cons_of_mem c (ih h)

/-- A text without anything to escape stays as it is. -/
theorem encode_of_forall (hquote : quote ≠ '\\') {t : Text}
    (h : ∀ c ∈ t, c ≠ '\\' ∧ c ≠ quote) : encode quote t = t := by
  induction t with
  | nil => rfl
  | cons c t ih =>
      obtain ⟨⟨hbackslash, hc⟩, ht⟩ := List.forall_mem_cons.1 h
      rw [encode_cons hquote, ih ht]
      simp [encodeChar, hbackslash, hc]

/-! ### Decoding -/

theorem units_cons {c : Char} (hc : c ≠ '\\') (t : Text) : units (c :: t) = (c, 1) :: units t := by
  cases t with
  | nil => rfl
  | cons d t => rw [units, if_neg hc]

theorem units_escape {d e : Char} (h : meaning? d = some e) (t : Text) :
    units ('\\' :: d :: t) = (e, 2) :: units t := by
  simp [units, h]

theorem eq_of_meaning? {d e : Char} (h : meaning? d = some e) : e = d ∨ e = '\n' ∨ e = '\t' := by
  unfold meaning? at h
  split at h
  · exact Or.inl (Option.some.inj h).symm
  · split at h
    · exact Or.inr (Or.inl (Option.some.inj h).symm)
    · split at h
      · exact Or.inr (Or.inr (Option.some.inj h).symm)
      · simp at h

/-- Decoding brings in nothing but newlines and tabs. -/
theorem mem_of_mem_decode {raw : Text} {c : Char} (h : c ∈ decode raw) (hnewline : c ≠ '\n')
    (htab : c ≠ '\t') : c ∈ raw := by
  unfold decode at h
  fun_induction units raw with
  | case1 => simp at h
  | case2 d => simpa using h
  | case3 d rest e hmeaning ih =>
      rcases List.mem_cons.1 h with rfl | h
      · rcases eq_of_meaning? hmeaning with rfl | heq | heq
        · simp
        · exact absurd heq hnewline
        · exact absurd heq htab
      · simp [ih h]
  | case4 d rest hmeaning ih =>
      rcases List.mem_cons.1 h with rfl | h
      · simp
      · exact List.mem_cons_of_mem _ (ih h)
  | case5 c' d rest hc ih =>
      rcases List.mem_cons.1 h with rfl | h
      · simp
      · exact List.mem_cons_of_mem _ (ih h)

/-- **Decoding undoes encoding** for a quote that may be escaped. -/
theorem decode_encode (hquote : quote ≠ '\\') (hmeaning : meaning? quote = some quote) (t : Text) :
    decode (encode quote t) = t := by
  induction t with
  | nil => rfl
  | cons c t ih =>
      have hunits : (units (encode quote (c :: t))).map Prod.fst =
          c :: (units (encode quote t)).map Prod.fst := by
        rw [encode_cons hquote]
        unfold encodeChar
        split
        · next hc =>
            rw [hc, List.cons_append, List.singleton_append, units_escape rfl, List.map_cons]
        · next hc =>
            split
            · next hq =>
                rw [hq, List.cons_append, List.singleton_append, units_escape hmeaning,
                  List.map_cons]
            · rw [List.singleton_append, units_cons hc, List.map_cons]
      exact hunits.trans (congrArg (c :: ·) ih)

/-- **Encoded content never closes its literal**: the first bare quote is the one behind it. -/
theorem closingDistance?_encode (hquote : quote ≠ '\\') (t rest : Text) :
    Literal.closingDistance? quote (encode quote t ++ quote :: rest) =
      some (encode quote t).length := by
  induction t with
  | nil => exact Literal.closingDistance?_quote hquote rest
  | cons c t ih =>
      rw [encode_cons hquote]
      unfold encodeChar
      split
      · rw [List.append_assoc, List.cons_append, List.singleton_append,
          Literal.closingDistance?_escape, ih]
        simp
      · next hc =>
          split
          · rw [List.append_assoc, List.cons_append, List.singleton_append,
              Literal.closingDistance?_escape, ih]
            simp
          · next hq =>
              rw [List.append_assoc, List.singleton_append,
                Literal.closingDistance?_other hc hq, ih]
              simp

/-- In a text, the search from behind the opening quote finds the quote behind encoded content. -/
theorem closingQuote?_encode (hquote : quote ≠ '\\') (before t behind : Text) :
    let text := before ++ quote :: (encode quote t ++ quote :: behind)
    Literal.closingQuote? text (before.length + 1) quote text.length =
      some (before.length + 1 + (encode quote t).length) := by
  intro text
  have hdrop : text.drop (before.length + 1) = encode quote t ++ quote :: behind := by
    have htext : text = before ++ [quote] ++ (encode quote t ++ quote :: behind) := by simp [text]
    rw [htext, List.drop_left' (by simp)]
  have hslice : text.slice (before.length + 1) text.length =
      encode quote t ++ quote :: behind := by
    have hlength := congrArg List.length hdrop
    rw [List.length_drop] at hlength
    rw [Text.slice, hdrop, List.take_of_length_le (by omega)]
  rw [Literal.closingQuote?, hslice, closingDistance?_encode hquote]
  rfl

/-! ### What encoding writes -/

/-- Content in which every backslash hides a backslash or the quote of the literal, and in which
that quote stands nowhere else. -/
inductive Written (quote : Char) : Text → Prop
  | nil : Written quote []
  | plain {c : Char} {raw : Text} (hslash : c ≠ '\\') (hbare : c ≠ quote) :
      Written quote raw → Written quote (c :: raw)
  | escape {c : Char} {raw : Text} (hc : c = '\\' ∨ c = quote) :
      Written quote raw → Written quote ('\\' :: c :: raw)

theorem written_encode (hquote : quote ≠ '\\') (t : Text) : Written quote (encode quote t) := by
  induction t with
  | nil => exact Written.nil
  | cons c t ih =>
      rw [encode_cons hquote]
      unfold encodeChar
      split
      · exact Written.escape (Or.inl rfl) ih
      · next hslash =>
          split
          · exact Written.escape (Or.inr rfl) ih
          · next hbare => exact Written.plain hslash hbare ih

/-- Such content comes back when it is decoded and encoded again. -/
theorem Written.encode_decode (hquote : quote ≠ '\\') (hmeaning : meaning? quote = some quote)
    {raw : Text} (h : Written quote raw) : encode quote (decode raw) = raw := by
  induction h with
  | nil => rfl
  | @plain c raw hslash hbare _ ih =>
      have hdecode : decode (c :: raw) = c :: decode raw := by
        rw [decode, units_cons hslash]
        rfl
      rw [hdecode, encode_cons hquote, ih]
      simp [encodeChar, hslash, hbare]
  | @escape c raw hc _ ih =>
      have hself : meaning? c = some c := by
        rcases hc with rfl | rfl
        · rfl
        · exact hmeaning
      have hdecode : decode ('\\' :: c :: raw) = c :: decode raw := by
        rw [decode, units_escape hself]
        rfl
      rw [hdecode, encode_cons hquote, ih]
      rcases hc with rfl | rfl
      · rfl
      · simp [encodeChar, hquote]

/-- **Content survives decoding and encoding exactly if encoding wrote it.** -/
theorem encode_decode_eq_iff (hquote : quote ≠ '\\') (hmeaning : meaning? quote = some quote)
    (raw : Text) : encode quote (decode raw) = raw ↔ Written quote raw := by
  constructor
  · intro h
    rw [← h]
    exact written_encode hquote _
  · intro h
    exact h.encode_decode hquote hmeaning

/-! ### Lines -/

theorem encode_newline (hnewline : quote ≠ '\n') : encode quote ['\n'] = ['\n'] := by
  simp [encode, replaceChar_cons, Ne.symm hnewline]

/-- Encoding keeps the lines apart. -/
theorem lines_encode (hquote : quote ≠ '\\') (hnewline : quote ≠ '\n') (t : Text) :
    Text.lines (encode quote t) = (Text.lines t).map (encode quote) := by
  induction t with
  | nil => rfl
  | cons c t ih =>
      obtain ⟨l, ls, hlines⟩ := List.exists_cons_of_ne_nil (lines_ne_nil t)
      rw [hlines, List.map_cons] at ih
      rw [encode_cons hquote, lines_cons, hlines]
      by_cases hc : c = '\n'
      · simp [encodeChar, hc, Ne.symm hnewline, lines_cons, ih, consLine]
      · rw [consLine, if_neg hc, List.map_cons, encode_cons hquote]
        unfold encodeChar
        split
        · simp [lines_cons, ih, consLine]
        · split
          · simp [lines_cons, ih, consLine, hnewline]
          · simp [lines_cons, ih, consLine, hc]

theorem encode_joinLines (hnewline : quote ≠ '\n') (ls : List Text) :
    encode quote (joinLines ls) = joinLines (ls.map (encode quote)) := by
  induction ls with
  | nil => rfl
  | cons l ls ih =>
      by_cases hls : ls = []
      · simp [hls, joinLines_singleton]
      · rw [joinLines_cons hls, List.map_cons, joinLines_cons (by simpa using hls), ← ih,
          encode_append, ← List.singleton_append, encode_append, encode_newline hnewline]
        rfl

/-- Encoding neither makes nor hides blanks. -/
theorem isAllBlank_encode (hquote : quote ≠ '\\') (hblank : isBlank quote = false) (t : Text) :
    isAllBlank (encode quote t) = isAllBlank t := by
  induction t with
  | nil => rfl
  | cons c t ih =>
      have hone : (encodeChar quote c).all isBlank = isBlank c := by
        have hbackslash : isBlank '\\' = false := by decide
        unfold encodeChar
        split
        · next hc => simp [hc, hbackslash]
        · split
          · next hc => simp [hc, hbackslash, hblank]
          · simp
      unfold isAllBlank at ih ⊢
      rw [encode_cons hquote, List.all_append, hone, ih, List.all_cons]

end EmbeddedSql.Escape
