/-
**Texts with their interpolations exchanged.**

Before a query is checked or formatted, its interpolations are exchanged for other texts: for one
neutral value, or for placeholders.  The automaton that found the interpolations then reads a text
it has not seen.  It does not matter: a filling without hyphens, quotes and opening braces leads the
automaton to where the interpolation led it, so everything else is read as before.  No interpolation
is left, none is made, and one that never closes stays open.

Main definitions:

* `Interpolation.Neutral` — a filling that starts and ends nothing;
* `Interpolation.outside`, `Interpolation.weave` — what stands between the interpolations of a text,
  and texts put between it.

Main results:

* `Interpolation.Neutral.run_eq` — a filling leads to where the interpolation led;
* `Interpolation.exists_fill_eq` — the run over a filled text, by induction over the text;
* `Interpolation.fill_eq_weave` — filling keeps what stands between the interpolations;
* `Interpolation.filled_text_settled` — **a text with its interpolations exchanged has none left**,
  so a second exchange changes nothing, and nothing else is touched.
-/

import EmbeddedSql.Proofs.Interpolation.Inside

set_option relaxedAutoImplicit false
set_option autoImplicit false

namespace EmbeddedSql.Interpolation

/-! ### Quotes of SQL strings -/

namespace Mode

/-- A string that is open, around an interpolation as well, is a SQL string. -/
def Quoted (m : Mode) : Prop :=
  ∀ q, m.enclosing = some q → q ∈ sqlQuotes

@[simp] theorem enclosing_resume (outer : Option Char) : (resume outer).enclosing = outer := by
  cases outer <;> rfl

theorem isHole_resume (outer : Option Char) : (resume outer).isHole = false := by
  cases outer <;> rfl

theorem Quoted.resume {m : Mode} (h : m.Quoted) : (resume m.enclosing).Quoted := by
  intro q hq
  rw [enclosing_resume] at hq
  exact h q hq

theorem quoted_stepSql (c : Char) : (stepSql c).Quoted := by
  intro q hq
  unfold stepSql at hq
  split at hq
  · cases hq
  · split at hq
    · next hc =>
        obtain rfl : c = q := Option.some.inj hq
        exact hc
    · split at hq <;> cases hq

theorem Quoted.step {m : Mode} (h : m.Quoted) (c : Char) : (m.step c).Quoted := by
  cases hm : m.isHole with
  | true =>
      -- an interpolation stays in its string, and ends in it
      intro q hq
      rcases step_hole hm c with ⟨-, hstay⟩ | ⟨-, hend⟩
      · exact h q (hstay ▸ hq)
      · rw [hend] at hq
        exact h.resume q hq
  | false =>
      cases m with
      | sql => exact quoted_stepSql c
      | dash =>
          rw [Mode.step]
          split
          · intro q hq
            cases hq
          · exact quoted_stepSql c
      | string s =>
          intro q hq
          refine h q ?_
          rw [Mode.step] at hq
          split at hq
          · cases hq
          · split at hq <;> exact hq
      | comment =>
          rw [Mode.step]
          intro q hq
          split at hq <;> cases hq
      | hole outer n e => cases hm

end Mode

/-! ### Neutral fillings -/

/-- A filling that starts and ends nothing in query text or in a SQL string.  It is not empty, since
else two hyphens could meet. -/
structure Neutral (filling : Text) : Prop where
  ne_nil : filling ≠ []
  plain : ∀ c ∈ filling, c ≠ '-' ∧ c ≠ '{' ∧ c ∉ sqlQuotes

/-- What is made of the characters of placeholders is neutral. -/
theorem neutral_of_isMarkChar {filling : Text} (hne : filling ≠ [])
    (h : ∀ c ∈ filling, isMarkChar c = true) : Neutral filling where
  ne_nil := hne
  plain := by
    intro c hc
    have hchar := h c hc
    refine ⟨?_, ?_, ?_⟩
    · rintro rfl
      exact absurd hchar (by decide)
    · rintro rfl
      exact absurd hchar (by decide)
    · intro hquote
      simp only [sqlQuotes, List.mem_cons, List.not_mem_nil, or_false] at hquote
      rcases hquote with rfl | rfl <;> exact absurd hchar (by decide)

theorem neutral_neutralValue : Neutral neutralValue := by
  have hall : neutralValue.all isMarkChar = true := by decide
  exact neutral_of_isMarkChar (List.cons_ne_nil _ _) (List.all_eq_true.1 hall)

/-- Placeholders are neutral. -/
theorem neutral_mark {text : Text} {p : Placeholder} (hp : p ∈ (extract text).2) :
    Neutral p.mark := by
  obtain ⟨s, hmark, -⟩ := exists_mark_eq_of_mem_extract hp
  refine neutral_of_isMarkChar (by simp [hmark]) ?_
  intro c hc
  exact isMarkChar_of_mem_mark hp hc

namespace Neutral

variable {m : Mode} {filling : Text}

/-- Where an interpolation can be opened, a plain character goes on with the query or the string. -/
theorem step_eq (hm : m.isHole = false) (hquoted : m.Quoted) (hopens : (m.step '{').isHole = true)
    {c : Char} (hc : c ≠ '-' ∧ c ≠ '{' ∧ c ∉ sqlQuotes) :
    m.step c = Mode.resume m.enclosing := by
  obtain ⟨hdash, hbrace, hquote⟩ := hc
  have hsql : Mode.stepSql c = .sql := by simp [Mode.stepSql, hdash, hbrace, hquote]
  cases m with
  | sql => exact hsql
  | dash => simp [Mode.step, hdash, hsql, Mode.enclosing, Mode.resume]
  | string q =>
      have hne : c ≠ q := by
        rintro rfl
        exact hquote (hquoted c rfl)
      simp [Mode.step, hne, hbrace, Mode.enclosing, Mode.resume]
  | comment => cases hopens
  | hole outer n e => cases hm

theorem opens_resume (hquoted : m.Quoted) :
    ((Mode.resume m.enclosing).step '{').isHole = true := by
  cases h : m.enclosing with
  | none => rfl
  | some q =>
      have hne : '{' ≠ q := by
        rintro rfl
        exact absurd (hquoted _ h) (by decide)
      simp [Mode.resume, Mode.step, hne, Mode.isHole]

theorem run_resume (hquoted : m.Quoted) {s : Text}
    (hs : ∀ c ∈ s, c ≠ '-' ∧ c ≠ '{' ∧ c ∉ sqlQuotes) :
    (Mode.resume m.enclosing).run s = Mode.resume m.enclosing := by
  induction s with
  | nil => rfl
  | cons c s ih =>
      obtain ⟨hc, hs⟩ := List.forall_mem_cons.1 hs
      have hstep := step_eq (Mode.isHole_resume m.enclosing) hquoted.resume
        (opens_resume hquoted) hc
      rw [Mode.enclosing_resume] at hstep
      calc (Mode.resume m.enclosing).run (c :: s)
          = ((Mode.resume m.enclosing).step c).run s := rfl
        _ = (Mode.resume m.enclosing).run s := by rw [hstep]
        _ = Mode.resume m.enclosing := ih hs

/-- **A filling leads to where the interpolation led.** -/
theorem run_eq (h : Neutral filling) (hm : m.isHole = false) (hquoted : m.Quoted)
    (hopens : (m.step '{').isHole = true) : m.run filling = Mode.resume m.enclosing := by
  obtain ⟨c, s, rfl⟩ := List.exists_cons_of_ne_nil h.ne_nil
  obtain ⟨hc, hs⟩ := List.forall_mem_cons.1 h.plain
  calc m.run (c :: s) = (m.step c).run s := rfl
    _ = (Mode.resume m.enclosing).run s := by rw [step_eq hm hquoted hopens hc]
    _ = Mode.resume m.enclosing := run_resume hquoted hs

end Neutral

/-! ### Cuts outside of interpolations -/

section Cut

variable {m : Mode} {s : Text} (hs : (m.run s).isHole = false)

include hs

/-- Two texts without a hole make up one, if no interpolation is open between them. -/
theorem spansIn_append_eq_nil (hm : m.isHole = false) (hleft : spansIn m s = []) {v : Text}
    (hright : spansIn (m.run s) v = []) : spansIn m (s ++ v) = [] := by
  rw [spansIn_eq_nil_iff hm] at hleft ⊢
  rw [spansIn_eq_nil_iff hs] at hright
  intro lo hi hhole
  rcases hhole.left_or_right hs with hhi | hlo
  · exact hleft lo hi ((holeAt_append_left hhi v).1 hhole)
  · have hlt := hhole.lt
    obtain ⟨k, rfl⟩ := Nat.exists_eq_add_of_le hlo
    obtain ⟨n, rfl⟩ := Nat.exists_eq_add_of_le (show s.length ≤ hi by omega)
    exact hright k n ((holeAt_append_right s v k n).1 hhole)

/-- The interpolation that never closes lies behind the cut. -/
theorem endsOpen_append_iff {v w : Text} : EndsOpen m (s ++ v) w ↔ EndsOpen (m.run s) v w := by
  constructor
  · rintro ⟨u, hopen, rfl⟩
    obtain ⟨k, rfl⟩ := Nat.exists_eq_add_of_le (hopen.length_le hs)
    exact ⟨k, (openAt_append_right s v k).1 hopen, by rw [List.drop_length_add_append]⟩
  · rintro ⟨k, hopen, rfl⟩
    refine ⟨s.length + k, (openAt_append_right s v k).2 hopen, ?_⟩
    rw [List.drop_length_add_append]

end Cut

/-! ### The run over a filled text -/

/-- Read from a mode on, the interpolations of a text are gone from another one: none is left there,
and both end in the same open interpolation. -/
structure Settles (m : Mode) (text filled : Text) : Prop where
  spans_eq : spansIn m filled = []
  ends_iff : ∀ w, EndsOpen m filled w ↔ EndsOpen m text w

/-- Different texts in front do not matter if both lead to the same mode. -/
theorem Settles.append {m : Mode} {s s' text filled : Text} (hm : m.isHole = false)
    (hs : (m.run s).isHole = false) (hspans : spansIn m s = []) (heq : m.run s' = m.run s)
    (h : Settles (m.run s) text filled) : Settles m (s' ++ text) (s ++ filled) where
  spans_eq := spansIn_append_eq_nil hs hm hspans h.spans_eq
  ends_iff := by
    intro w
    rw [endsOpen_append_iff hs, endsOpen_append_iff (heq ▸ hs), heq]
    exact h.ends_iff w

/-- An open interpolation stays as it is. -/
theorem settles_of_read {m : Mode} (hm : m.isHole = false) {hole : Text}
    (h : Template.Read m hole.reverse [] hole 0) : Settles m hole.reverse hole.reverse where
  spans_eq := by
    rw [spansIn_eq_nil_iff hm]
    intro lo hi hhole
    have hlt := hhole.lt
    cases hopen : (m.run hole.reverse).isHole with
    | true =>
        have hwithin := (h.opened hopen).2 hi (by simp; omega) hhole.le
        rw [hhole.behind] at hwithin
        cases hwithin
    | false =>
        have hle := hhole.le
        rw [h.closed hopen, List.reverse_nil, List.length_nil] at hle
        omega
  ends_iff := fun _ => Iff.rfl

theorem spansIn_singleton {m : Mode} (hm : m.isHole = false) (c : Char) : spansIn m [c] = [] := by
  rw [spansIn_eq_nil_iff hm]
  intro lo hi hhole
  have hlt := hhole.lt
  have hle := hhole.le
  simp only [List.length_cons, List.length_nil] at hle
  omega

theorem Neutral.spansIn_eq_nil {m : Mode} {filling : Text} (h : Neutral filling)
    (hm : m.isHole = false) : spansIn m filling = [] := by
  refine Interpolation.spansIn_eq_nil hm ?_
  intro hmem
  exact (h.plain _ hmem).2.1 rfl

/-- Whatever was read of a gap stands in front of the filled text, and the interpolations of what
follows are gone.

The induction is on the text that is still to be read; `hole` is what was read of the interpolation
that is open, and `outer` the mode in front of it. -/
theorem exists_fill_eq {outer : Mode} (houter : outer.isHole = false) (hquoted : outer.Quoted)
    {hole : Text} (hread : Template.Read outer hole.reverse [] hole 0) (gap t : Text)
    {fillings : List Text} (hneutral : ∀ f ∈ fillings, Neutral f)
    (hlength : fillings.length =
      (Template.ofTextFrom (outer.run hole.reverse) gap hole t).parts.length) :
    ∃ tail, (Template.ofTextFrom (outer.run hole.reverse) gap hole t).fill fillings =
      gap.reverse ++ tail ∧ Settles outer (hole.reverse ++ t) tail := by
  induction t generalizing outer gap hole fillings with
  | nil =>
      refine ⟨hole.reverse, by simp [Template.ofTextFrom, Template.fill], ?_⟩
      rw [List.append_nil]
      exact settles_of_read houter hread
  | cons c t ih =>
      have happend : hole.reverse ++ c :: t = (c :: hole).reverse ++ t := by simp
      have hrun : outer.run (c :: hole).reverse = (outer.run hole.reverse).step c := by
        rw [List.reverse_cons, Mode.run_snoc]
      cases hnext : ((outer.run hole.reverse).step c).isHole with
      | true =>
          have hgrown : Template.Read outer (c :: hole).reverse [] (c :: hole) 0 := by
            rw [List.reverse_cons]
            exact hread.grow hnext
          rw [Template.ofTextFrom_inside hnext, ← hrun] at hlength ⊢
          rw [happend]
          exact ih houter hquoted hgrown gap hneutral hlength
      | false =>
          have hanew : Template.Read ((outer.run hole.reverse).step c) [].reverse [] [] 0 :=
            Template.Read.nil hnext
          cases hm : (outer.run hole.reverse).isHole with
          | true =>
              -- the interpolation is closed, and its filling leads to the same mode
              rw [Template.ofTextFrom_closes hm hnext] at hlength ⊢
              cases fillings with
              | nil => cases hlength
              | cons f fillings =>
                  obtain ⟨hf, hneutral⟩ := List.forall_mem_cons.1 hneutral
                  have hhole := hread.holeAt hm hnext t
                  have hbehind : (outer.run hole.reverse).step c = Mode.resume outer.enclosing := by
                    have hresume := hhole.run_eq
                    rw [run_take_succ outer (c := c) (by simp), List.take_left] at hresume
                    simpa using hresume
                  have hfill : outer.run f = (outer.run hole.reverse).step c := by
                    rw [hbehind]
                    exact hf.run_eq houter hquoted (by simpa using hhole.opens)
                  obtain ⟨tail, htail, hsettles⟩ := ih hnext (hbehind ▸ hquoted.resume) hanew
                    [] hneutral (Nat.succ.inj hlength)
                  refine ⟨f ++ tail, ?_, ?_⟩
                  · rw [Template.fill_cons, List.append_assoc]
                    exact congrArg (fun rest => gap.reverse ++ (f ++ rest)) htail
                  · rw [happend]
                    exact Settles.append houter (hfill ▸ hnext) (hf.spansIn_eq_nil houter)
                      (hrun.trans hfill.symm) (hfill ▸ hsettles)
          | false =>
              obtain rfl := hread.closed hm
              rw [Template.ofTextFrom_outside hm hnext] at hlength ⊢
              obtain ⟨tail, htail, hsettles⟩ := ih hnext (hquoted.step c) hanew (c :: gap)
                hneutral hlength
              refine ⟨[c] ++ tail, by simpa using htail, ?_⟩
              change Settles outer ([c] ++ t) ([c] ++ tail)
              exact Settles.append houter hnext (spansIn_singleton houter c) rfl hsettles

/-- **A text filled with neutral texts has no interpolation left**, and ends in the same open one as
before. -/
theorem settles_fill (text : Text) {fillings : List Text} (hneutral : ∀ f ∈ fillings, Neutral f)
    (hlength : fillings.length = (Template.ofText text).parts.length) :
    Settles .sql text ((Template.ofText text).fill fillings) := by
  have hread : Template.Read .sql [].reverse [] [] 0 := Template.Read.nil rfl
  have hquoted : Mode.sql.Quoted := by
    intro q hq
    cases hq
  obtain ⟨tail, htail, hsettles⟩ := exists_fill_eq rfl hquoted hread [] text hneutral hlength
  have heq : (Template.ofText text).fill fillings = tail := htail
  rw [heq]
  exact hsettles

/-! ### Texts without interpolations -/

section Plain

variable {t : Text} (h : spans t = [])

include h

theorem ofText_of_spans_eq_nil : Template.ofText t = ⟨[], t⟩ := by
  have htext := Template.text_ofText t
  cases hT : Template.ofText t with
  | mk parts rest =>
      rw [hT] at htext
      cases parts with
      | nil =>
          obtain rfl : rest = t := htext
          rfl
      | cons part parts =>
          rw [spans_eq, Template.spans, hT, Template.spansFrom] at h
          cases h

theorem strip_of_spans_eq_nil (filling : Text) : strip filling t = t := by
  simp [strip, ofText_of_spans_eq_nil h, Template.fill]

theorem extract_of_spans_eq_nil : extract t = (t, []) := by
  simp [extract, ofText_of_spans_eq_nil h, Template.fill, Template.holes, placeholders]

end Plain

/-! ### What stands between interpolations -/

/-- The parts of a text between spans, from an offset on. -/
def outsideFrom (t : Text) (start : Nat) : List (Nat × Nat) → List Text
  | [] => [t.drop start]
  | s :: ss => t.slice start s.1 :: outsideFrom t s.2 ss

/-- The parts of a text before, between and behind its complete interpolations. -/
def outside (t : Text) : List Text :=
  outsideFrom t 0 (spans t)

/-- Parts of a text with other texts put between them. -/
def weave : List Text → List Text → Text
  | part :: parts, filling :: fillings => part ++ filling ++ weave parts fillings
  | parts, _ => parts.flatten

theorem Template.outsideFrom_spansFrom (before : Text) (parts : List (Text × Text)) (rest : Text) :
    outsideFrom (before ++ Template.text ⟨parts, rest⟩) before.length
      (spansFrom before.length parts) = parts.map Prod.fst ++ [rest] := by
  induction parts generalizing before with
  | nil => simp [outsideFrom, spansFrom, Template.text]
  | cons part parts ih =>
      obtain ⟨gap, hole⟩ := part
      have hrest := ih (before ++ gap ++ hole)
      have hslice := Text.slice_append_append before gap (hole ++ Template.text ⟨parts, rest⟩)
      simp only [List.append_assoc, List.length_append, ← Nat.add_assoc] at hrest
      rw [text_cons, List.append_assoc, spansFrom, outsideFrom, hslice, hrest, List.map_cons,
        List.cons_append]

theorem outside_eq (t : Text) :
    outside t = (Template.ofText t).parts.map Prod.fst ++ [(Template.ofText t).rest] := by
  have h := Template.outsideFrom_spansFrom [] (Template.ofText t).parts (Template.ofText t).rest
  have htext : Template.text ⟨(Template.ofText t).parts, (Template.ofText t).rest⟩ = t :=
    Template.text_ofText t
  rw [htext] at h
  rw [outside, spans_eq]
  exact h

theorem Template.fill_eq_weave (parts : List (Text × Text)) (rest : Text) {fillings : List Text}
    (hlength : fillings.length = parts.length) :
    fill ⟨parts, rest⟩ fillings = weave (parts.map Prod.fst ++ [rest]) fillings := by
  induction parts generalizing fillings with
  | nil =>
      obtain rfl := List.length_eq_zero_iff.1 hlength
      simp [Template.fill, weave]
  | cons part parts ih =>
      cases fillings with
      | nil => cases hlength
      | cons f fillings =>
          rw [Template.fill_cons, ih (Nat.succ.inj hlength), List.map_cons, List.cons_append, weave]

/-- Filling keeps what stands between the interpolations, in order. -/
theorem fill_eq_weave (text : Text) {fillings : List Text}
    (hlength : fillings.length = (Template.ofText text).parts.length) :
    (Template.ofText text).fill fillings = weave (outside text) fillings := by
  rw [outside_eq]
  exact Template.fill_eq_weave _ _ hlength

/-! ### Stripping and extraction -/

theorem length_expressions (text : Text) :
    (expressions text).length = (Template.ofText text).parts.length := by
  rw [expressions_eq_holes, Template.holes, List.length_map]

theorem length_extract (text : Text) :
    (extract text).2.length = (Template.ofText text).parts.length := by
  have hholes := congrArg List.length (map_hole_placeholders (freshStem text)
    (Template.ofText text).holes)
  rwa [List.length_map, Template.holes, List.length_map] at hholes

theorem settles_strip {filling : Text} (h : Neutral filling) (text : Text) :
    Settles .sql text (strip filling text) := by
  refine settles_fill text ?_ List.length_replicate
  intro f hf
  rw [(List.mem_replicate.1 hf).2]
  exact h

theorem settles_extract (text : Text) : Settles .sql text (extract text).1 := by
  refine settles_fill text ?_ ?_
  · intro f hf
    obtain ⟨p, hp, rfl⟩ := List.mem_map.1 hf
    exact neutral_mark hp
  · rw [List.length_map]
    exact length_extract text

/-- Whatever the interpolations of a text are exchanged for, none is left and none can be found any
more, and an interpolation that never closes is still there.  What stands between the interpolations
is kept as it is. -/
theorem filled_text_settled (text : Text) :
    (∀ filling, Neutral filling →
      spans (strip filling text) = [] ∧ pending (strip filling text) = pending text ∧
        ∀ other, strip other (strip filling text) = strip filling text) ∧
    (extract (extract text).1 = ((extract text).1, []) ∧
      pending (extract text).1 = pending text) ∧
    weave (outside text) (expressions text) = text ∧
    (∀ filling, strip filling text =
      weave (outside text) ((expressions text).map fun _ => filling)) ∧
    (extract text).1 = weave (outside text) ((extract text).2.map (·.mark)) ∧
    (extract text).2.map (·.hole) = expressions text := by
  refine ⟨?_, ?_, ?_, ?_, ?_, ?_⟩
  · intro filling hneutral
    have hsettles := settles_strip hneutral text
    have hspans := (spans_eq_spansIn _).trans hsettles.spans_eq
    refine ⟨hspans, pending_eq_of_endsOpen hsettles.ends_iff, ?_⟩
    intro other
    exact strip_of_spans_eq_nil hspans other
  · have hsettles := settles_extract text
    have hspans := (spans_eq_spansIn _).trans hsettles.spans_eq
    exact ⟨extract_of_spans_eq_nil hspans, pending_eq_of_endsOpen hsettles.ends_iff⟩
  · rw [← fill_eq_weave text (length_expressions text), expressions_eq_holes, Template.fill_holes,
      Template.text_ofText]
  · intro filling
    have hmap : (expressions text).map (fun _ => filling) =
        List.replicate (Template.ofText text).parts.length filling := by
      rw [List.map_const', length_expressions]
    rw [hmap, ← fill_eq_weave text List.length_replicate]
    rfl
  · rw [← fill_eq_weave text (by rw [List.length_map]; exact length_extract text)]
    rfl
  · rw [expressions_eq_holes]
    exact map_hole_placeholders _ _

/-- Interpolations next to a hyphen and in a string, and one that never closes although braces and
quotes are closed in it. -/
theorem filled_text_settled_at_hyphens :
    let text := "-\x7ba\x7d- '\x7b'b'\x7d' \x7bf(\x7bc\x7d) 'd'".toList
    let stripped := "-PLACEHOLDER_VALUE- 'PLACEHOLDER_VALUE' \x7bf(\x7bc\x7d) 'd'".toList
    Neutral neutralValue ∧ strip neutralValue text = stripped ∧ spans stripped = [] ∧
      strip neutralValue stripped = stripped ∧
      pending stripped = "\x7bf(\x7bc\x7d) 'd'".toList := by
  intro text stripped
  have hstrip : strip neutralValue text = stripped := by decide +kernel
  have hpending : pending text = "\x7bf(\x7bc\x7d) 'd'".toList := by decide +kernel
  obtain ⟨hspans, hkept, hother⟩ := (filled_text_settled text).1 neutralValue neutral_neutralValue
  rw [hstrip] at hspans hkept hother
  exact ⟨neutral_neutralValue, hstrip, hspans, hother neutralValue, hkept.trans hpending⟩

end EmbeddedSql.Interpolation
