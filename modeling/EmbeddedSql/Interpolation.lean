/-
**Interpolations `{expr}` in SQL text.**

A query of an interpolating call holds R expressions in braces.  Whether a brace opens one depends
on what came before: braces in a SQL comment are plain text, braces in a SQL string are not, and an
R string inside an expression hides its braces.  To cut a text a character automaton keeps track of
this; it finds what the scanner finds, without looking ahead.

* `Interpolation.Mode`, `Interpolation.Mode.step` — the automaton;
* `Interpolation.Template` — a text cut into the gaps between its complete interpolations and the
  interpolations themselves, which are called holes; an interpolation that never closes is part of
  the last gap;
* `Interpolation.strip` — every hole filled with the same text;
* `Interpolation.extract`, `Interpolation.restore` — every hole exchanged for a placeholder of its
  own, and back;
* `Interpolation.verify` — whether a text in which the placeholders were moved around was restored
  without loss.
-/

import EmbeddedSql.Interpolation.Scanner

set_option relaxedAutoImplicit false
set_option autoImplicit false

namespace EmbeddedSql.Interpolation

/-! ### The automaton -/

/-- Where the automaton stands inside an expression. -/
inductive ExprMode where
  /-- In R code. -/
  | code
  /-- In an R string. -/
  | string (quote : Char)
  /-- In an R string, after a backslash. -/
  | escaped (quote : Char)
  /-- After a quote that closes the R string unless the same quote follows. -/
  | quoteSeen (quote : Char)
  deriving Repr, DecidableEq

/-- Where the automaton stands. -/
inductive Mode where
  /-- In plain query text. -/
  | sql
  /-- In plain query text, after one hyphen. -/
  | dash
  /-- In a SQL string. -/
  | string (quote : Char)
  /-- In a SQL comment. -/
  | comment
  /-- In an interpolation with `nested` further braces open; `outer` is the quote of the SQL string
  around it, if there is one. -/
  | hole (outer : Option Char) (nested : Nat) (expr : ExprMode)
  deriving Repr, DecidableEq

namespace Mode

/-- The mode after an interpolation. -/
def resume : Option Char → Mode
  | none => .sql
  | some q => .string q

/-- The next mode in plain query text. -/
def stepSql (c : Char) : Mode :=
  if c = '-' then .dash
  else if c ∈ sqlQuotes then .string c
  else if c = '{' then .hole none 0 .code
  else .sql

/-- The next mode in the code of an expression. -/
def stepExpr (outer : Option Char) (nested : Nat) (c : Char) : Mode :=
  if c ∈ exprQuotes then .hole outer nested (.string c)
  else if c = '{' then .hole outer (nested + 1) .code
  else if c = '}' then
    match nested with
    | 0 => resume outer
    | k + 1 => .hole outer k .code
  else .hole outer nested .code

/-- The mode after one more character. -/
def step : Mode → Char → Mode
  | .sql, c => stepSql c
  | .dash, c => if c = '-' then .comment else stepSql c
  | .string q, c =>
    if c = q then .sql
    else if c = '{' then .hole (some q) 0 .code
    else .string q
  | .comment, c => if c = '\n' then .sql else .comment
  | .hole outer n .code, c => stepExpr outer n c
  | .hole outer n (.string q), c =>
    if c = '\\' then .hole outer n (.escaped q)
    else if c = q then .hole outer n (.quoteSeen q)
    else .hole outer n (.string q)
  | .hole outer n (.escaped q), _ => .hole outer n (.string q)
  | .hole outer n (.quoteSeen q), c =>
    if c = q then .hole outer n (.string q) else stepExpr outer n c

/-- Whether an interpolation is open. -/
def isHole : Mode → Bool
  | .hole .. => true
  | _ => false

/-- The mode after a text. -/
def run (m : Mode) (t : Text) : Mode :=
  t.foldl step m

@[simp] theorem run_nil (m : Mode) : m.run [] = m := rfl

theorem run_append (m : Mode) (s t : Text) : m.run (s ++ t) = (m.run s).run t := by
  simp [run]

theorem run_snoc (m : Mode) (s : Text) (c : Char) : m.run (s ++ [c]) = (m.run s).step c := by
  simp [run]

end Mode

/-! ### Gaps and holes -/

/-- A text cut at its complete interpolations: every hole with the gap before it, then what is
left. -/
structure Template where
  parts : List (Text × Text)
  rest : Text
  deriving Repr, DecidableEq

namespace Template

/-- Cuts a text.  `gap` and `hole` hold, last character first, what was read of the current gap and
of the interpolation that is open. -/
def ofTextFrom : Mode → (gap hole : Text) → Text → Template
  | _, gap, hole, [] => ⟨[], (hole ++ gap).reverse⟩
  | m, gap, hole, c :: rest =>
    let next := m.step c
    if next.isHole then ofTextFrom next gap (c :: hole) rest
    else if m.isHole then
      let tail := ofTextFrom next [] [] rest
      ⟨(gap.reverse, (c :: hole).reverse) :: tail.parts, tail.rest⟩
    else ofTextFrom next (c :: gap) [] rest

/-- The template of a text. -/
def ofText (t : Text) : Template :=
  ofTextFrom .sql [] [] t

section Equations

variable {m : Mode} {c : Char}

/-- The character belongs to the hole that is open behind it. -/
theorem ofTextFrom_inside (h : (m.step c).isHole = true) (gap hole t : Text) :
    ofTextFrom m gap hole (c :: t) = ofTextFrom (m.step c) gap (c :: hole) t := by
  simp [ofTextFrom, h]

/-- The character closes the hole. -/
theorem ofTextFrom_closes (hm : m.isHole = true) (h : (m.step c).isHole = false)
    (gap hole t : Text) :
    ofTextFrom m gap hole (c :: t) =
      ⟨(gap.reverse, (c :: hole).reverse) :: (ofTextFrom (m.step c) [] [] t).parts,
        (ofTextFrom (m.step c) [] [] t).rest⟩ := by
  simp [ofTextFrom, hm, h]

/-- The character belongs to the gap. -/
theorem ofTextFrom_outside (hm : m.isHole = false) (h : (m.step c).isHole = false)
    (gap hole t : Text) :
    ofTextFrom m gap hole (c :: t) = ofTextFrom (m.step c) (c :: gap) [] t := by
  simp [ofTextFrom, hm, h]

end Equations

/-- The text of a template: every gap with the hole after it, then what is left. -/
def text (t : Template) : Text :=
  (t.parts.flatMap fun p => p.1 ++ p.2) ++ t.rest

theorem text_ofTextFrom (m : Mode) (gap hole t : Text) (h : m.isHole = false → hole = []) :
    (ofTextFrom m gap hole t).text = gap.reverse ++ hole.reverse ++ t := by
  induction t generalizing m gap hole with
  | nil => simp [ofTextFrom, text]
  | cons c t ih =>
    cases hn : (m.step c).isHole with
    | true => simp [ofTextFrom, hn, ih]
    | false =>
      cases hm : m.isHole with
      | true =>
        have tail := ih (m.step c) [] [] fun _ => rfl
        simp_all [ofTextFrom, text]
      | false => simp [ofTextFrom, hn, hm, ih, h hm]

/-- The gaps and holes of a text make up the text. -/
@[simp] theorem text_ofText (t : Text) : (ofText t).text = t :=
  text_ofTextFrom .sql [] [] t fun _ => rfl

/-- The holes, braces included. -/
def holes (t : Template) : List Text :=
  t.parts.map Prod.snd

/-- The text with the `k`-th hole exchanged for the `k`-th filling. -/
def fill (t : Template) (fillings : List Text) : Text :=
  ((t.parts.zip fillings).flatMap fun p => p.1.1 ++ p.2) ++ t.rest

theorem text_cons (part : Text × Text) (parts : List (Text × Text)) (rest : Text) :
    text ⟨part :: parts, rest⟩ = part.1 ++ part.2 ++ text ⟨parts, rest⟩ := by
  simp [text]

theorem fill_cons (part : Text × Text) (parts : List (Text × Text)) (rest s : Text)
    (fillings : List Text) :
    fill ⟨part :: parts, rest⟩ (s :: fillings) = part.1 ++ s ++ fill ⟨parts, rest⟩ fillings := by
  simp [fill]

theorem flatMap_zip_holes (parts : List (Text × Text)) :
    ((parts.zip (parts.map Prod.snd)).flatMap fun p => p.1.1 ++ p.2) =
      parts.flatMap fun p => p.1 ++ p.2 := by
  induction parts with
  | nil => rfl
  | cons p ps ih => simp [ih]

/-- Filling every hole with itself gives the text back. -/
theorem fill_holes (t : Template) : t.fill t.holes = t.text := by
  simp [fill, holes, text, flatMap_zip_holes]

/-- The offsets of the holes when the first gap starts at `start`. -/
def spansFrom (start : Nat) : List (Text × Text) → List (Nat × Nat)
  | [] => []
  | (gap, hole) :: parts =>
    let opening := start + gap.length
    let stop := opening + hole.length
    (opening, stop) :: spansFrom stop parts

/-- First offset of every hole and the offset after its last character. -/
def spans (t : Template) : List (Nat × Nat) :=
  spansFrom 0 t.parts

end Template

/-- The value that stands for an expression when only the shape of the query matters. -/
def neutralValue : Text := "PLACEHOLDER_VALUE".toList

/-- Every complete interpolation exchanged for the same filling. -/
def strip (filling text : Text) : Text :=
  let t := Template.ofText text
  t.fill (List.replicate t.parts.length filling)

/-! ### Placeholders -/

/-- A placeholder and the interpolation it stands for. -/
structure Placeholder where
  mark : Text
  hole : Text
  deriving Repr, DecidableEq

/-- Candidates for the common start of all placeholders. -/
def stem : Nat → Text
  | 0 => "GLUE_INTERPOLATION_".toList
  | k + 1 => "GLUE".toList ++ (Nat.repr (k + 1)).toList ++ "_INTERPOLATION_".toList

/-- The first candidate that does not stand in the text.  Different candidates cannot start at the
same offset, so one of the first `text.length + 1` is free. -/
def freshStem (text : Text) : Text :=
  stem (((List.range (text.length + 1)).find? fun k => !Text.occurs (stem k) text).getD
    (text.length + 1))

/-- A number in decimal with zeros in front up to the given width. -/
def padded (width n : Nat) : Text :=
  let digits := (Nat.repr n).toList
  List.replicate (width - digits.length) '0' ++ digits

/-- The placeholders for some holes: a common stem and an index.  All indices have the same width,
so no placeholder starts with another one. -/
def placeholders (common : Text) (holes : List Text) : List Placeholder :=
  let width := (Nat.repr (holes.length - 1)).length
  holes.zipIdx.map fun h => ⟨common ++ padded width h.2, h.1⟩

/-- The text with every complete interpolation exchanged for a placeholder that does not stand in
it, and the placeholders in order. -/
def extract (text : Text) : Text × List Placeholder :=
  let t := Template.ofText text
  let ps := placeholders (freshStem text) t.holes
  (t.fill (ps.map (·.mark)), ps)

/-- Every placeholder in turn exchanged for its interpolation where it stands first. -/
def restore (text : Text) (ps : List Placeholder) : Text :=
  ps.foldl (fun t p => Text.replaceFirst p.mark p.hole t) text

/-! ### Verification -/

/-- Why a restored text cannot be trusted. -/
inductive RoundTripError where
  /-- A placeholder is gone. -/
  | missing (mark : Text)
  /-- A placeholder is still there. -/
  | leftOver (mark : Text)
  /-- The number of some brace changed. -/
  | braces (brace : Char) (before after : Nat)
  deriving Repr, DecidableEq

/-- The wording of a failed verification. -/
def RoundTripError.message : RoundTripError → String
  | .missing m => "Placeholder " ++ String.ofList m ++ " not found in processed SQL"
  | .leftOver m => "Placeholder " ++ String.ofList m ++ " still present after restoration"
  | .braces b before after =>
    "Brace count mismatch for '" ++ b.toString ++ "': original " ++ Nat.repr before ++
      ", restored " ++ Nat.repr after

/-- Every placeholder must stand in the transformed text and in the restored one no more. -/
def verifyMarks (transformed restored : Text) : List Placeholder → Except RoundTripError Unit
  | [] => .ok ()
  | p :: ps =>
    if !Text.occurs p.mark transformed then .error (.missing p.mark)
    else if Text.occurs p.mark restored then .error (.leftOver p.mark)
    else verifyMarks transformed restored ps

/-- The number of a brace must be the same before and after. -/
def verifyBrace (text restored : Text) (brace : Char) : Except RoundTripError Unit :=
  let before := text.count brace
  let after := restored.count brace
  if before = after then .ok () else .error (.braces brace before after)

/-- Whether restoring the placeholders in a transformed text lost nothing of the text before. -/
def verify (text transformed restored : Text) (ps : List Placeholder) :
    Except RoundTripError Unit := do
  verifyMarks transformed restored ps
  verifyBrace text restored '{'
  verifyBrace text restored '}'

end EmbeddedSql.Interpolation
