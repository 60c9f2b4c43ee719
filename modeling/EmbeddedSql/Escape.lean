/-
**Escapes in the content of R strings.**

Six escapes are decoded: the backslash, the three quotes, newline and tab.  Any other backslash
stands for itself.

* `Escape.units` — the decoded characters, each with the number of raw characters it takes;
* `Escape.decode` — the decoded text;
* `Escape.offsets` — where each decoded character starts in the raw text, and where the raw text
  ends;
* `Escape.encode` — content that decodes to a given text and holds no bare quote.
-/

import EmbeddedSql.Text.Basic

set_option relaxedAutoImplicit false
set_option autoImplicit false

namespace EmbeddedSql.Escape

/-- What a character stands for after a backslash, if the pair is an escape. -/
def meaning? (c : Char) : Option Char :=
  if c = '\\' || c = '"' || c = '\'' || c = '\x60' then some c
  else if c = 'n' then some '\n'
  else if c = 't' then some '\t'
  else none

/-- The decoded characters of a raw text with their raw widths, from left to right. -/
def units : Text → List (Char × Nat)
  | [] => []
  | [c] => [(c, 1)]
  | c :: d :: rest =>
    if c = '\\' then
      match meaning? d with
      | some e => (e, 2) :: units rest
      | none => (c, 1) :: units (d :: rest)
    else (c, 1) :: units (d :: rest)

/-- The units of a raw text cover it. -/
theorem sum_units (raw : Text) : (units raw).foldr (fun u n => u.2 + n) 0 = raw.length := by
  fun_induction units raw <;> simp_all <;> omega

/-- The decoded text. -/
def decode (raw : Text) : Text :=
  (units raw).map Prod.fst

/-- The start of every unit, and the end of the last one. -/
def offsetsFrom (start : Nat) : List (Char × Nat) → List Nat
  | [] => [start]
  | u :: rest => start :: offsetsFrom (start + u.2) rest

/-- For every decoded character the raw offset where it starts, then the length of the raw text. -/
def offsets (raw : Text) : List Nat :=
  offsetsFrom 0 (units raw)

theorem length_offsetsFrom (start : Nat) (us : List (Char × Nat)) :
    (offsetsFrom start us).length = us.length + 1 := by
  induction us generalizing start with
  | nil => rfl
  | cons u us ih => simp [offsetsFrom, ih]

/-- There is an offset for every decoded character and one for the end. -/
theorem length_offsets (raw : Text) : (offsets raw).length = (decode raw).length + 1 := by
  simp [offsets, decode, length_offsetsFrom]

/-- The content of a literal with the given quote that decodes to `text`: backslashes are doubled,
then every quote gets a backslash.  Newlines stay as they are. -/
def encode (quote : Char) (text : Text) : Text :=
  Text.replaceChar quote ['\\', quote] (Text.replaceChar '\\' ['\\', '\\'] text)

/-- The query a literal holds: its content decoded and without blanks at the ends. -/
def query (raw : Text) : Text :=
  (decode raw).trim

end EmbeddedSql.Escape
