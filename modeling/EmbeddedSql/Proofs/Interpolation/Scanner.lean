/-
**The scanner and the automaton.**

The scanner reads two characters at once where the second one decides about the first, and may read
past the offset at which it is to stop.  The automaton reads one character at a time and remembers
what it has to decide, so a text can be cut anywhere and read on.  Whenever the scanner comes to the
end of a move, both stand at the same place, unless the scanner has read past its end; but then
nothing more is opened or closed.  So both find the same interpolations before every offset.

Main definitions:

* `Interpolation.Mode.depth` — the number of braces that the automaton holds open;
* `Interpolation.closingsFrom` — the interpolations that a text closes;
* `Interpolation.unclosed?` — where the interpolation starts that never closes;
* `Interpolation.Scan.At`, `Interpolation.Scan.Agrees` — scanner and automaton hold the same
  interpolation open, and stand at the same place;
* `Interpolation.Scan.Found` — what a scan has to find in a text.

Main results:

* `Interpolation.Scan.Agrees.moves` — **one move** of the scanner, of one character or two;
* `Interpolation.Scan.Agrees.found` — a scan up to an offset, by induction on its moves;
* `Interpolation.inside_eq`, `Interpolation.spans_eq`, `Interpolation.unclosed?_eq` — **the scanner
  finds what the automaton finds**.
-/

import EmbeddedSql.Interpolation

set_option relaxedAutoImplicit false
set_option autoImplicit false

namespace EmbeddedSql.Interpolation

/-! ### What the automaton finds -/

/-- The number of braces that are open. -/
def Mode.depth : Mode → Nat
  | .hole _ nested _ => nested + 1
  | _ => 0

theorem Mode.isHole_iff {m : Mode} : m.isHole = true ↔ 0 < m.depth := by
  cases m <;> simp [Mode.isHole, Mode.depth]

/-- The interpolation that a character closes at offset `i`, if it closes the one that starts at
`start`. -/
def closingAt (m : Mode) (start i : Nat) (c : Char) : List (Nat × Nat) :=
  if m.isHole && !(m.step c).isHole then [(start, i + 1)] else []

/-- The interpolations that the text from offset `i` on closes; the one that is open before that
text starts at `start`. -/
def closingsFrom : Mode → (start i : Nat) → Text → List (Nat × Nat)
  | _, _, _, [] => []
  | m, start, i, c :: t =>
    closingAt m start i c ++ closingsFrom (m.step c) (if m.isHole then start else i) (i + 1) t

/-- Where the interpolation starts that is open behind the text from offset `i` on; the one that is
open before that text starts at `start`. -/
def unclosedFrom : Mode → (start i : Nat) → Text → Option Nat
  | m, start, _, [] => if m.isHole then some start else none
  | m, start, i, c :: t => unclosedFrom (m.step c) (if m.isHole then start else i) (i + 1) t

/-- Where the interpolation starts that is still open at the end of a text. -/
def unclosed? (t : Text) : Option Nat :=
  unclosedFrom .sql 0 0 t

/-- Outside of an interpolation it does not matter where one would start. -/
theorem closingsFrom_congr {m : Mode} (hm : m.isHole = false) (start start' i : Nat) (t : Text) :
    closingsFrom m start i t = closingsFrom m start' i t := by
  cases t with
  | nil => rfl
  | cons c t => simp [closingsFrom, closingAt, hm]

/-- The offsets of the holes of a template are those of the interpolations that are closed. -/
theorem Template.spansFrom_ofTextFrom (before : Nat) {m : Mode} {gap hole : Text}
    (h : m.isHole = false → hole = []) (t : Text) :
    spansFrom before (ofTextFrom m gap hole t).parts =
      closingsFrom m (before + gap.length) (before + gap.length + hole.length) t := by
  induction t generalizing before m gap hole with
  | nil => rfl
  | cons c t ih =>
      rw [closingsFrom, closingAt]
      cases hnext : (m.step c).isHole with
      | true =>
          rw [ofTextFrom_inside hnext, ih before (by simp [hnext])]
          cases hm : m.isHole with
          | true => simp [Nat.add_assoc]
          | false => simp [h hm]
      | false =>
          cases hm : m.isHole with
          | true =>
              rw [ofTextFrom_closes hm hnext, spansFrom, ih _ fun _ => rfl]
              simp only [Bool.not_false, Bool.and_true, if_true, List.singleton_append,
                List.length_nil, List.length_reverse, List.length_cons, Nat.add_zero, Nat.add_assoc]
              rw [closingsFrom_congr hnext]
          | false =>
              rw [ofTextFrom_outside hm hnext, ih before fun _ => rfl, h hm]
              simp only [Bool.false_and, Bool.false_eq_true, if_false, List.nil_append,
                List.length_cons, List.length_nil, Nat.add_zero, Nat.add_assoc]
              rw [closingsFrom_congr hnext]

/-! ### The same place -/

namespace Scan

/-- The place in which the scanner goes on behind an interpolation. -/
def outside : Option Char → Place
  | none => .sql
  | some _ => .sqlString

/-- The scanner stands where the automaton does. -/
def Stands (s : Scan) : Mode → Prop
  | .sql => s.place = .sql
  | .dash => s.place = .sql
  | .string q => s.place = .sqlString ∧ s.sqlQuote = some q
  | .comment => s.place = .sqlComment
  | .hole outer _ expr =>
    (s.resume = outside outer ∧ ∀ q ∈ outer, s.sqlQuote = some q) ∧
      match expr with
      | .code => s.place = .expr
      | .string q => s.place = .exprString ∧ s.exprQuote = some q
      | .escaped _ => False
      | .quoteSeen _ => s.place = .expr

/-- Scanner and automaton hold the same interpolation open, which starts at `start`. -/
structure At (s : Scan) (m : Mode) (start : Nat) : Prop where
  depth : s.depth = m.depth
  start : m.isHole = true → s.start = start

/-- Scanner and automaton stand at the same place in the same interpolation. -/
structure Agrees (s : Scan) (m : Mode) (start : Nat) : Prop extends At s m start where
  stands : s.Stands m

end Scan

/-- The next character does not decide about the one before it. -/
def Mode.Settled (m : Mode) (next : Option Char) : Prop :=
  match m with
  | .dash => next ≠ some '-'
  | .hole _ _ (.quoteSeen q) => next ≠ some q
  | _ => True

namespace Scan

variable {s : Scan} {m : Mode} {start stop i : Nat} {c : Char} {next : Option Char} {t : Text}

/-- What one character makes of scanner and automaton. -/
structure One (s s' : Scan) (m : Mode) (start stop i : Nat) (c : Char) (next : Option Char) :
    Prop where
  agrees : s'.Agrees (m.step c) (if m.isHole then start else i)
  spans : s'.spans = s.spans ++ closingAt m start i c
  settled : i + 1 < stop → (m.step c).Settled next

/-- What two characters make of scanner and automaton.  The first one may be the last before the
end; the second one makes nothing of the scanner. -/
structure Two (s s' : Scan) (m : Mode) (start stop i : Nat) (c : Char) (next : Option Char) :
    Prop where
  at_end : s'.At (m.step c) (if m.isHole then start else i)
  spans : s'.spans = s.spans ++ closingAt m start i c
  second : ∀ d e, next = some d → i + 1 < stop →
    One s' s' (m.step c) (if m.isHole then start else i) stop (i + 1) d e

/-- Where the scanner stands and which interpolation is open decides about one move. -/
def Moves (s : Scan) (m : Mode) (start stop i : Nat) (c : Char) (next : Option Char) : Prop :=
  (s.move stop i c next).2 = 1 ∧ One s (s.move stop i c next).1 m start stop i c next ∨
    (s.move stop i c next).2 = 2 ∧ Two s (s.move stop i c next).1 m start stop i c next

/-! ### One move -/

/-- Outside of an interpolation nothing is open in either. -/
theorem at_outside (hdepth : s.depth = 0) (hm : m.isHole = false) : s.At m start := by
  refine ⟨?_, fun h => absurd (hm.symm.trans h) Bool.false_ne_true⟩
  rw [hdepth]
  cases m with
  | hole outer nested expr => cases hm
  | _ => rfl

section One

variable {s' : Scan} {m' : Mode}

/-- One character outside of an interpolation, which closes nothing. -/
theorem One.of_outside (hm : m.isHole = false) (hstep : m.step c = m') (h : s'.Agrees m' i)
    (hspans : s'.spans = s.spans) (hsettled : i + 1 < stop → m'.Settled next) :
    One s s' m start stop i c next := by
  subst hstep
  refine ⟨?_, by simp [hspans, closingAt, hm], hsettled⟩
  rw [hm]
  exact h

/-- One character inside of an interpolation that stays open. -/
theorem One.of_inside (hm : m.isHole = true) (hstep : m.step c = m') (hm' : m'.isHole = true)
    (h : s'.Agrees m' start) (hspans : s'.spans = s.spans)
    (hsettled : i + 1 < stop → m'.Settled next) : One s s' m start stop i c next := by
  subst hstep
  refine ⟨?_, by simp [hspans, closingAt, hm'], hsettled⟩
  rw [hm]
  exact h

end One

/-- In plain query text. -/
theorem moves_sql (hplace : s.place = .sql) (hdepth : s.depth = 0) (hm : m.isHole = false)
    (hstep : m.step c = Mode.stepSql c) : s.Moves m start stop i c next := by
  by_cases hcomment : c = '-' ∧ next = some '-'
  · -- the first hyphen makes nothing of the automaton yet, the second one starts the comment
    obtain ⟨rfl, rfl⟩ := hcomment
    have hdash : m.step '-' = .dash := hstep
    refine Or.inr ⟨by simp [move, hplace], ?_⟩
    simp only [move, hplace, and_self, if_true]
    refine ⟨at_outside hdepth (by simp [hdash, Mode.isHole]), by simp [closingAt, hm], ?_⟩
    rintro d e hd -
    obtain rfl := Option.some.inj hd
    rw [hdash]
    exact .of_outside rfl rfl ⟨at_outside hdepth rfl, rfl⟩ rfl fun _ => trivial
  · refine Or.inl ?_
    by_cases hquote : c ∈ sqlQuotes
    · have hne : c ≠ '-' := by
        rintro rfl
        exact absurd hquote (by decide)
      have hnext : m.step c = .string c := by simp [hstep, Mode.stepSql, hne, hquote]
      simp only [move, hplace, hcomment, hquote, if_true, if_false, true_and]
      exact .of_outside hm hnext ⟨at_outside hdepth rfl, rfl, rfl⟩ rfl fun _ => trivial
    · by_cases hbrace : c = '{'
      · subst hbrace
        have hnext : m.step '{' = .hole none 0 .code := hstep
        simp only [move, hplace, hcomment, hquote, if_true, if_false, true_and]
        exact .of_outside hm hnext
          ⟨⟨rfl, fun _ => rfl⟩, ⟨hplace, fun q hq => by simp at hq⟩, rfl⟩ rfl fun _ => trivial
      · simp only [move, hplace, hcomment, hquote, hbrace, if_false, true_and]
        by_cases hdash : c = '-'
        · have hnext : m.step c = .dash := by rw [hstep, Mode.stepSql, if_pos hdash]
          exact .of_outside hm hnext ⟨at_outside hdepth rfl, hplace⟩ rfl
            fun _ hnext => hcomment ⟨hdash, hnext⟩
        · have hnext : m.step c = .sql := by simp [hstep, Mode.stepSql, hdash, hquote, hbrace]
          exact .of_outside hm hnext ⟨at_outside hdepth rfl, hplace⟩ rfl fun _ => trivial

/-- In a SQL string. -/
theorem moves_string {q : Char} (h : s.Agrees (.string q) start) :
    s.Moves (.string q) start stop i c next := by
  obtain ⟨hplace, hsql⟩ := h.stands
  have hdepth : s.depth = 0 := h.depth
  refine Or.inl ?_
  by_cases hquote : c = q
  · subst hquote
    have hnext : (Mode.string c).step c = .sql := by simp [Mode.step]
    simp only [move, hplace, hsql, if_true, true_and]
    exact .of_outside rfl hnext ⟨at_outside hdepth rfl, rfl⟩ rfl fun _ => trivial
  · have hne : s.sqlQuote ≠ some c := by simpa [hsql] using Ne.symm hquote
    by_cases hbrace : c = '{'
    · subst hbrace
      have hnext : (Mode.string q).step '{' = .hole (some q) 0 .code := by
        simp [Mode.step, hquote]
      have houter : ∀ q' ∈ some q, (s.enter i).sqlQuote = some q' := fun q' hq => by
        simpa [enter, hsql] using hq
      simp only [move, hplace, hne, if_true, if_false, true_and]
      exact .of_outside rfl hnext ⟨⟨rfl, fun _ => rfl⟩, ⟨hplace, houter⟩, rfl⟩ rfl fun _ => trivial
    · have hnext : (Mode.string q).step c = .string q := by simp [Mode.step, hquote, hbrace]
      simp only [move, hplace, hne, hbrace, if_false, true_and]
      exact .of_outside rfl hnext ⟨at_outside hdepth rfl, hplace, hsql⟩ rfl fun _ => trivial

/-- In a SQL comment. -/
theorem moves_comment (h : s.Agrees .comment start) : s.Moves .comment start stop i c next := by
  have hplace : s.place = .sqlComment := h.stands
  have hdepth : s.depth = 0 := h.depth
  refine Or.inl ?_
  by_cases hnewline : c = '\n'
  · subst hnewline
    simp only [move, hplace, if_true, true_and]
    exact .of_outside rfl rfl ⟨at_outside hdepth rfl, rfl⟩ rfl fun _ => trivial
  · have hnext : Mode.comment.step c = .comment := by simp [Mode.step, hnewline]
    simp only [move, hplace, hnewline, if_false, true_and]
    exact .of_outside rfl hnext ⟨at_outside hdepth rfl, hplace⟩ rfl fun _ => trivial

section Hole

variable {outer : Option Char} {nested : Nat}

/-- The brace that closes an interpolation: the scanner is where the interpolation started. -/
theorem One.of_closing (hm : m.isHole = true) (hstart : s.start = start) (hdepth : s.depth = 1)
    (houter : s.resume = outside outer ∧ ∀ q ∈ outer, s.sqlQuote = some q)
    (hstep : m.step '}' = .resume outer) : One s (s.leave i) m start stop i '}' next := by
  have hclosed : (m.step '}').isHole = false := by
    rw [hstep]
    cases outer <;> rfl
  have hleave : s.leave i = { s with
      place := s.resume, depth := 0, spans := s.spans ++ [(s.start, i + 1)] } := by
    simp [leave, hdepth]
  rw [hleave]
  refine ⟨?_, by simp [closingAt, hm, hclosed, hstart], fun _ => ?_⟩
  · rw [hstep]
    cases outer with
    | none => exact ⟨at_outside rfl rfl, houter.1⟩
    | some q => exact ⟨at_outside rfl rfl, houter.1, houter.2 q rfl⟩
  · rw [hstep]
    cases outer <;> trivial

/-- In the code of an expression. -/
theorem moves_expr (hm : m.isHole = true) (hstart : s.start = start) (hdepth : s.depth = nested + 1)
    (hplace : s.place = .expr)
    (houter : s.resume = outside outer ∧ ∀ q ∈ outer, s.sqlQuote = some q)
    (hstep : m.step c = Mode.stepExpr outer nested c) : s.Moves m start stop i c next := by
  refine Or.inl ?_
  by_cases hquote : c ∈ exprQuotes
  · have hnext : m.step c = .hole outer nested (.string c) := by
      simp [hstep, Mode.stepExpr, hquote]
    simp only [move, hplace, hquote, if_true, true_and]
    exact .of_inside hm hnext rfl ⟨⟨hdepth, fun _ => hstart⟩, houter, rfl, rfl⟩ rfl fun _ => trivial
  · by_cases hopen : c = '{'
    · subst hopen
      have hnext : m.step '{' = .hole outer (nested + 1) .code := hstep
      simp only [move, hplace, hquote, if_true, if_false, true_and]
      exact .of_inside hm hnext rfl ⟨⟨congrArg (· + 1) hdepth, fun _ => hstart⟩, houter, rfl⟩ rfl
        fun _ => trivial
    · by_cases hclose : c = '}'
      · subst hclose
        simp only [move, hplace, hquote, hopen, if_true, if_false, true_and]
        cases nested with
        | zero => exact .of_closing hm hstart hdepth houter hstep
        | succ nested =>
            have hnext : m.step '}' = .hole outer nested .code := hstep
            have hleave : s.leave i = { s with depth := s.depth - 1 } := by simp [leave, hdepth]
            have hless : s.depth - 1 = nested + 1 := by omega
            rw [hleave]
            exact .of_inside hm hnext rfl ⟨⟨hless, fun _ => hstart⟩, houter, hplace⟩ rfl
              fun _ => trivial
      · have hnext : m.step c = .hole outer nested .code := by
          simp [hstep, Mode.stepExpr, hquote, hopen, hclose]
        simp only [move, hplace, hquote, hopen, hclose, if_false, true_and]
        exact .of_inside hm hnext rfl ⟨⟨hdepth, fun _ => hstart⟩, houter, hplace⟩ rfl
          fun _ => trivial

/-- In an R string. -/
theorem moves_exprString {q : Char} (h : s.Agrees (.hole outer nested (.string q)) start) :
    s.Moves (.hole outer nested (.string q)) start stop i c next := by
  obtain ⟨houter, hplace, hexpr⟩ := h.stands
  have hat : ∀ expr, s.At (.hole outer nested expr) start := fun _ =>
    ⟨h.depth, fun _ => h.start rfl⟩
  by_cases hslash : c = '\\'
  · -- whatever is escaped, the string goes on behind it
    subst hslash
    have hnext : (Mode.hole outer nested (.string q)).step '\\' =
        .hole outer nested (.escaped q) := by simp [Mode.step]
    refine Or.inr ⟨by simp [move, hplace], ?_⟩
    simp only [move, hplace, if_true]
    refine ⟨hnext ▸ hat _, by simp [closingAt, hnext, Mode.isHole], ?_⟩
    intro d e hd hlt
    rw [hnext]
    exact .of_inside rfl rfl rfl ⟨hat _, houter, hplace, hexpr⟩ rfl fun _ => trivial
  · by_cases hquote : c = q
    · subst hquote
      have hnext : (Mode.hole outer nested (.string c)).step c =
          .hole outer nested (.quoteSeen c) := by simp [Mode.step, hslash]
      by_cases hdoubled : i + 1 < stop ∧ next = some c
      · refine Or.inr ⟨by simp [move, hplace, hslash, hexpr, hdoubled], ?_⟩
        simp only [move, hplace, hslash, hexpr, hdoubled, and_self, if_true, if_false]
        refine ⟨hnext ▸ hat _, by simp [closingAt, hnext, Mode.isHole], ?_⟩
        rintro d e hd -
        obtain rfl := Option.some.inj hd
        have hback : (Mode.hole outer nested (.quoteSeen c)).step c =
            .hole outer nested (.string c) := by simp [Mode.step]
        rw [hnext]
        exact .of_inside rfl hback rfl ⟨hat _, houter, hplace, hexpr⟩ rfl fun _ => trivial
      · refine Or.inl ?_
        simp only [move, hplace, hslash, hexpr, hdoubled, if_true, if_false, true_and]
        exact .of_inside rfl hnext rfl ⟨⟨h.depth, fun _ => h.start rfl⟩, houter, rfl⟩ rfl
          fun hlt hsame => hdoubled ⟨hlt, hsame⟩
    · have hnext : (Mode.hole outer nested (.string q)).step c =
          .hole outer nested (.string q) := by simp [Mode.step, hslash, hquote]
      have hne : s.exprQuote ≠ some c := by simpa [hexpr] using Ne.symm hquote
      refine Or.inl ?_
      simp only [move, hplace, hslash, hne, if_false, true_and]
      exact .of_inside rfl hnext rfl ⟨hat _, houter, hplace, hexpr⟩ rfl fun _ => trivial

end Hole

/-- **One move** of the scanner takes it where one or two characters take the automaton. -/
theorem Agrees.moves (h : s.Agrees m start) (hm : m.Settled (some c)) :
    s.Moves m start stop i c next := by
  cases m with
  | sql => exact moves_sql h.stands h.depth rfl rfl
  | dash =>
      have hne : c ≠ '-' := fun hc => hm (congrArg some hc)
      exact moves_sql h.stands h.depth rfl (by simp [Mode.step, hne])
  | string q => exact moves_string h
  | comment => exact moves_comment h
  | hole outer nested expr =>
      obtain ⟨houter, hexpr⟩ := h.stands
      cases expr with
      | code => exact moves_expr rfl (h.start rfl) h.depth hexpr houter rfl
      | string q => exact moves_exprString h
      | escaped q => exact absurd hexpr id
      | quoteSeen q =>
          have hne : c ≠ q := fun hc => hm (congrArg some hc)
          exact moves_expr rfl (h.start rfl) h.depth hexpr houter (by simp [Mode.step, hne])

/-! ### A scan -/

/-- Behind its end the scanner reads nothing. -/
theorem run_of_le {skip : Nat} (h : stop ≤ i + skip) (t : Text) : run stop skip i s t = s := by
  induction t generalizing skip i with
  | nil => rw [run]
  | cons d t ih =>
      cases skip with
      | zero => rw [run, if_neg (by omega)]
      | succ skip => rw [run, ih (by omega)]

/-- What a scan has found is what the automaton finds in a text: the same braces are open behind it,
the same interpolations were closed, and the one that is open starts at the same offset. -/
structure Found (before after : Scan) (m : Mode) (start i : Nat) (t : Text) : Prop where
  depth : after.depth = (m.run t).depth
  spans : after.spans = before.spans ++ closingsFrom m start i t
  unclosed : unclosedFrom m start i t = if 0 < after.depth then some after.start else none

theorem At.found (h : s.At m start) {before : Scan} (hspans : s.spans = before.spans) :
    Found before s m start i [] := by
  refine ⟨h.depth, by simp [closingsFrom, hspans], ?_⟩
  rw [unclosedFrom, h.depth]
  by_cases hopen : m.isHole = true
  · rw [if_pos hopen, if_pos (Mode.isHole_iff.1 hopen), h.start hopen]
  · rw [if_neg hopen, if_neg fun hpos => hopen (Mode.isHole_iff.2 hpos)]

/-- One character in front. -/
theorem Found.cons {before s' after : Scan} {t : Text}
    (hspans : s'.spans = before.spans ++ closingAt m start i c)
    (h : Found s' after (m.step c) (if m.isHole then start else i) (i + 1) t) :
    Found before after m start i (c :: t) := by
  refine ⟨h.depth, ?_, h.unclosed⟩
  rw [h.spans, hspans, List.append_assoc, closingsFrom]

/-- What is decided by the next character is decided by the next one before the end. -/
theorem settled_head? (h : i + 1 < stop → m.Settled t.head?) :
    m.Settled (t.take (stop - (i + 1))).head? := by
  by_cases hlt : i + 1 < stop
  · have hpos : stop - (i + 1) ≠ 0 := by omega
    simpa [List.head?_take, hpos] using h hlt
  · have hnil : t.take (stop - (i + 1)) = [] := by
      rw [Nat.sub_eq_zero_of_le (Nat.not_lt.1 hlt), List.take_zero]
    rw [hnil]
    unfold Mode.Settled
    split <;> simp

/-- **A scan up to an offset** finds what the automaton finds in the text before it. -/
theorem Agrees.found (h : s.Agrees m start) (t : Text)
    (hm : m.Settled (t.take (stop - i)).head?) :
    Found s (run stop 0 i s t) m start i (t.take (stop - i)) := by
  induction hn : t.length using Nat.strongRecOn generalizing t s m start i with
  | ind n ih =>
      subst hn
      cases t with
      | nil => simpa [run] using h.toAt.found rfl
      | cons c t =>
          by_cases hlt : i < stop
          · have htake : (c :: t).take (stop - i) = c :: t.take (stop - (i + 1)) := by
              rw [show stop - i = stop - (i + 1) + 1 by omega, List.take_succ_cons]
            rw [htake] at hm ⊢
            rw [run, if_pos hlt]
            dsimp only
            have hmoves : s.Moves m start stop i c t.head? := h.moves hm
            rcases hmoves with ⟨hread, one⟩ | ⟨hread, two⟩
            · rw [hread]
              refine Found.cons one.spans (ih t.length (by simp) one.agrees t ?_ rfl)
              exact settled_head? one.settled
            · rw [hread]
              refine Found.cons two.spans ?_
              cases t with
              | nil => simpa [run] using two.at_end.found rfl
              | cons d t =>
                  rw [run]
                  by_cases hlt' : i + 1 < stop
                  · have one := two.second d t.head? rfl hlt'
                    have htake' : (d :: t).take (stop - (i + 1)) =
                        d :: t.take (stop - (i + 1 + 1)) := by
                      rw [show stop - (i + 1) = stop - (i + 1 + 1) + 1 by omega,
                        List.take_succ_cons]
                    rw [htake']
                    have hshorter : t.length < (c :: d :: t).length := by
                      simp only [List.length_cons]
                      omega
                    exact Found.cons one.spans
                      (ih t.length hshorter one.agrees t (settled_head? one.settled) rfl)
                  · have hnil : (d :: t).take (stop - (i + 1)) = [] := by
                      rw [Nat.sub_eq_zero_of_le (Nat.not_lt.1 hlt'), List.take_zero]
                    rw [hnil, run_of_le (by omega)]
                    exact two.at_end.found rfl
          · have hnil : (c :: t).take (stop - i) = [] := by
              rw [Nat.sub_eq_zero_of_le (Nat.not_lt.1 hlt), List.take_zero]
            rw [hnil, run_of_le (Nat.not_lt.1 hlt)]
            exact h.toAt.found rfl

end Scan

/-! ### A text -/

/-- The scan of a text up to an offset finds what the automaton finds before that offset. -/
theorem scan_found (t : Text) (o : Nat) : Scan.Found {} (scan t o) .sql 0 0 (t.take o) := by
  have hstart : Scan.Agrees {} .sql 0 := ⟨Scan.at_outside rfl rfl, rfl⟩
  have htake : t.take (min o t.length - 0) = t.take o := by
    rw [Nat.sub_zero, ← List.take_take, List.take_length]
  have hfound : Scan.Found {} (scan t o) .sql 0 0 (t.take (min o t.length - 0)) :=
    hstart.found t trivial
  rwa [htake] at hfound

/-- An offset is inside exactly if the automaton has an interpolation open there. -/
theorem inside_eq (t : Text) (o : Nat) : inside t o = (Mode.sql.run (t.take o)).isHole := by
  rw [Bool.eq_iff_iff, Mode.isHole_iff, ← (scan_found t o).depth, inside, decide_eq_true_iff]

/-- The spans of a text are the offsets of the holes of its template. -/
theorem spans_eq (t : Text) : spans t = (Template.ofText t).spans := by
  have hfound := (scan_found t t.length).spans
  rw [List.take_length] at hfound
  have hholes : Template.spansFrom 0 (Template.ofText t).parts = closingsFrom .sql 0 0 t :=
    Template.spansFrom_ofTextFrom 0 (fun _ => rfl) t
  rw [spans, hfound, Template.spans, hholes]
  rfl

/-- The interpolation that never closes is the one that the scanner holds open in the end. -/
theorem unclosed?_eq (t : Text) :
    unclosed? t =
      if 0 < (scan t t.length).depth then some (scan t t.length).start else none := by
  have hfound := (scan_found t t.length).unclosed
  rwa [List.take_length] at hfound

end EmbeddedSql.Interpolation
