/-
**Quoted scalars as they are written.**

Line ends inside a quoted scalar are folded, and the blanks around them are dropped.  Between double
quotes a backslash starts an escape, between single ones a doubled quote stands for a quote.

* `Yaml.escapes` — the escapes of one letter;
* `Yaml.escape` — what an escape stands for;
* `Yaml.quotedGap` — blanks and line ends in a quoted scalar;
* `Yaml.quoted` — a whole scalar.
-/

import EmbeddedSql.Value.Json
import EmbeddedSql.Yaml.Error
import EmbeddedSql.Yaml.Place

set_option relaxedAutoImplicit false
set_option autoImplicit false

namespace EmbeddedSql.Yaml

/-! ### Line ends -/

/-- Passes over blanks and further line ends; a mark between documents may not come up. -/
def quotedBreaks (p : Place) : Except Error (Text × Place) :=
  if isSeparator p.rest then .error .malformed
  else
    let q := p.skipWhile isBlank
    match _ : q.rest with
    | [] => .ok ([], q)
    | c :: _ =>
      if isBreak c then (quotedBreaks (q.advance 1)).map fun r => (breakText c ++ r.1, r.2)
      else .ok ([], q)
termination_by p.left
decreasing_by
  have hq := Place.left_skipWhile_le isBlank p
  grind [Place.left, Place.left_advance]

/-- Passing over line ends never adds characters. -/
theorem left_quotedBreaks_le {p q : Place} {breaks : Text}
    (h : quotedBreaks p = .ok (breaks, q)) : q.left ≤ p.left := by
  fun_induction quotedBreaks p generalizing breaks with
  | case1 => simp at h
  | case2 p => grind [Place.left_skipWhile_le isBlank p]
  | case3 p _ s c rest hs hc =>
    rename_i ih
    -- the line end, and then further ones
    cases hb : quotedBreaks (s.advance 1) with
    | error e => simp [hb, Except.map] at h
    | ok r =>
      obtain ⟨more, q'⟩ := r
      obtain rfl : q' = q := by grind [Except.map]
      have hle := ih hb
      grind [Place.left_advance, Place.left_skipWhile_le isBlank p]
  | case4 p => grind [Place.left_skipWhile_le isBlank p]

/-- The same, whatever is made of the line ends. -/
theorem left_of_map_quotedBreaks {p q : Place} {text : Text} {f : Text → Text}
    (h : (quotedBreaks p).map (fun r => (f r.1, r.2)) = .ok (text, q)) : q.left ≤ p.left := by
  cases hb : quotedBreaks p with
  | error e => simp [hb, Except.map] at h
  | ok r =>
    obtain ⟨breaks, q'⟩ := r
    obtain rfl : q' = q := by grind [Except.map]
    exact left_quotedBreaks_le hb

/-- Blanks, or a folded line end, in a quoted scalar. -/
def quotedGap (p : Place) : Except Error (Text × Place) :=
  let blanks := p.rest.takeWhile isBlank
  let p := p.advance blanks.length
  match p.rest with
  | [] => .error .malformed
  | c :: _ =>
    if isBreak c then
      (quotedBreaks (p.advance 1)).map fun r => (folded c r.1, r.2)
    else .ok (blanks, p)

/-- A gap takes characters away. -/
theorem left_quotedGap_lt {p q : Place} {c : Char} {rest gap : Text} (hp : p.rest = c :: rest)
    (hc : isGap c) (h : quotedGap p = .ok (gap, q)) : q.left < p.left := by
  have hl : 0 < p.left := by simp [Place.left, hp]
  have hb : isBlank c → 0 < (p.rest.takeWhile isBlank).length := by simp_all
  simp only [quotedGap] at h
  split at h
  · simp at h
  split at h
  · have hle := left_of_map_quotedBreaks h
    simp only [Place.left_advance] at hle
    omega
  · -- without a line end there is a blank in front
    have hblank : isBlank c := by
      cases hn : isBlank c
      · simp_all [isGap]
      · rfl
    grind [Place.left_advance]

/-! ### Escapes -/

/-- What the escapes of one letter stand for. -/
def escapes : List (Char × Char) :=
  [('0', '\x00'), ('a', '\x07'), ('b', '\x08'), ('t', '\t'), ('\t', '\t'), ('n', '\n'),
   ('v', '\x0b'), ('f', '\x0c'), ('r', '\r'), ('e', '\x1b'), (' ', ' '), ('"', '"'), ('\\', '\\'),
   ('/', '/'), ('N', '\u0085'), ('_', '\u00a0'), ('L', '\u2028'), ('P', '\u2029')]

/-- How many hexadecimal digits follow the letter of an escape. -/
def codeLengths : List (Char × Nat) :=
  [('x', 2), ('u', 4), ('U', 8)]

/-- The character with a code. -/
def character (code : Nat) : Except Error Char :=
  if code < 0x110000 then .ok (Char.ofNat code) else .error (.noCharacter code)

/-- What an escape stands for; the place is after the backslash. -/
def escape (p : Place) : Except Error (Text × Place) :=
  match p.rest with
  | [] => .error .malformed
  | c :: rest =>
    match escapes.lookup c, codeLengths.lookup c with
    | some d, _ => .ok ([d], p.advance 1)
    | none, some n =>
      let digits := (rest.take n).filterMap Json.hexDigit?
      if digits.length = n then
        (character (Text.ofDigits 16 digits)).map fun d => ([d], p.advance (n + 1))
      else .error .malformed
    | none, none =>
      if isBreak c then quotedBreaks (p.advance 1) else .error .malformed

/-- An escape never adds characters. -/
theorem left_escape_le {p q : Place} {text : Text} (h : escape p = .ok (text, q)) :
    q.left ≤ p.left := by
  unfold escape at h
  split at h
  · simp at h
  split at h
  · grind [Place.left_advance]
  · simp only at h
    split at h
    · unfold character at h
      grind [Except.map, Place.left_advance]
    · simp at h
  · split at h
    · have hle := left_quotedBreaks_le h
      grind [Place.left_advance]
    · simp at h

/-! ### Scalars -/

/-- The rest of a quoted scalar, given what was read of it, last character first. -/
def quotedFrom (double : Bool) (read : Text) (p : Place) : Except Error (Text × Place) :=
  match _ : p.rest with
  | [] => .error .malformed
  | c :: rest =>
    if isGap c then
      match _ : quotedGap p with
      | .ok (gap, q) => quotedFrom double (gap.reverse ++ read) q
      | .error e => .error e
    else if double && c = '\\' then
      match _ : escape (p.advance 1) with
      | .ok (text, q) => quotedFrom double (text.reverse ++ read) q
      | .error e => .error e
    else if double && c = '"' then .ok (read.reverse, p.advance 1)
    else if !double && c = '\'' then
      if rest.head? = some '\'' then quotedFrom double ('\'' :: read) (p.advance 2)
      else .ok (read.reverse, p.advance 1)
    else quotedFrom double (c :: read) (p.advance 1)
termination_by p.left
decreasing_by
  · exact left_quotedGap_lt ‹_› ‹_› ‹_›
  · have hle := left_escape_le ‹_›
    grind [Place.left, Place.left_advance]
  all_goals grind [Place.left, Place.left_advance]

/-- The quoted scalar whose opening quote stands at a place. -/
def quoted (double : Bool) (p : Place) : Except Error (Text × Place) :=
  quotedFrom double [] (p.advance 1)

end EmbeddedSql.Yaml
