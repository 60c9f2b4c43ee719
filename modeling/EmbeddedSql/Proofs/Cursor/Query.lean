/-
**What the cursor finds.**

`Cursor.query?` stops its scan at the cursor, looks for names up to the opening quote only, and
takes the innermost call before it asks whether that call accepts the literal.  On a document that
a detection covers, none of the windows leaves anything out: the search is about the literals of
the whole text and about all calls around them.

Main definitions:

* `Cursor.Touches` — the literal around a position, or the one just before it;
* `Cursor.contentWindow` — where the search for it starts;
* `Cursor.queryOf` — the query of a literal inside a call.

Main results:

* `Cursor.content?_eq_some_iff` — **the literal under the cursor**, when the window starts in code;
* `Region.Covers.mem_callsAround_iff` — the calls that the cursor sees around a literal;
* `Region.Covers.function?_eq_some_iff` — **the innermost call decides**;
* `Region.Covers.query?_eq_some_iff`, `Region.Covers.query?_of_touches` — the two together.
-/

import EmbeddedSql.Proofs.Literal.Window
import EmbeddedSql.Proofs.Region.Survey

set_option relaxedAutoImplicit false
set_option autoImplicit false

namespace EmbeddedSql

namespace Cursor

/-- A closed string literal of the document that the offset stands in, or just behind. -/
structure Touches (d : Detection) (doc : Document) (offset : Nat) (l : Literal) : Prop where
  mem : l ∈ Literal.scanAll d.marks doc.text
  string : l.kind = .string ∧ l.closed = true
  start_lt : l.start < offset
  le_stop : offset ≤ l.stop + 1

/-- An offset touches one literal only. -/
theorem Touches.unique {d : Detection} {doc : Document} {offset : Nat} {x y : Literal}
    (hx : Touches d doc offset x) (hy : Touches d doc offset y) : x = y := by
  obtain ⟨after, heq, hbefore, hafter⟩ := Literal.exists_scanAll_eq hx.mem
  have hmem := hy.mem
  have hx₁ := hx.start_lt
  have hx₂ := hx.le_stop
  have hy₁ := hy.start_lt
  have hy₂ := hy.le_stop
  rw [heq, List.mem_append, List.mem_cons] at hmem
  rcases hmem with hmem | rfl | hmem
  · obtain ⟨-, -, hlt⟩ := hbefore y hmem
    omega
  · rfl
  · have hlt := hafter y hmem
    omega

/-- The content of the last literal that a scan up to the cursor has seen. -/
def contentIn? (d : Detection) (doc : Document) (offset : Nat) (l : Literal) : Option Content :=
  match l.kind, l.closed with
  | .string, true =>
    if l.stop + 1 = offset then some (contentOf doc l.start l.stop l.mark) else none
  | .string, false =>
    (Literal.closingQuote? doc.text (l.start + 1) l.mark
      (l.start + 1 + d.limits.callLength)).map fun closing => contentOf doc l.start closing l.mark
  | .comment, _ => none

/-- Where the search for a literal starts that a position may be in. -/
def contentWindow (d : Detection) (doc : Document) (p : Position) : Nat :=
  windowStart doc (min p.line (doc.lineCount - 1)) d.limits.lineLookback

/-- The window starts before the position. -/
theorem contentWindow_le (d : Detection) (doc : Document) (p : Position) :
    contentWindow d doc p ≤ doc.offsetOf p := by
  refine doc.offsetOf_le (Position.le_iff.2 ?_)
  dsimp only
  omega

theorem content?_eq_bind (d : Detection) (doc : Document) (p : Position) :
    content? d doc p =
      (Literal.scan d.marks doc.text (contentWindow d doc p)
        (doc.offsetOf p)).getLast?.bind (contentIn? d doc (doc.offsetOf p)) := by
  dsimp only [content?, contentWindow]
  cases (Literal.scan d.marks doc.text
    (windowStart doc (min p.line (doc.lineCount - 1)) d.limits.lineLookback)
    (doc.offsetOf p)).getLast? with
  | none => rfl
  | some l =>
      obtain ⟨kind, start, stop, mark, closed⟩ := l
      cases kind <;> cases closed <;> rfl

/-- What the scan has seen of a literal gives its content, unless the closing quote is behind the
cursor and too far away. -/
theorem contentIn?_cutAt_eq_some_iff {d : Detection} {doc : Document} {offset : Nat} {l : Literal}
    (hl : l ∈ Literal.scanAll d.marks doc.text) (hlt : l.start < offset) {c : Content} :
    contentIn? d doc offset (l.cutAt offset) = some c ↔
      Touches d doc offset l ∧
        (offset = l.stop + 1 ∨ l.stop < l.start + 1 + d.limits.callLength) ∧
        c = contentOf doc l.start l.stop l.mark := by
  unfold contentIn?
  cases hk : l.kind with
  | comment =>
      have hnot : ¬ Touches d doc offset l := by
        intro htouch
        exact absurd (hk.symm.trans htouch.string.1) (by simp)
      simp [hk, hnot]
  | string =>
      by_cases hcut : l.closed = true ∧ l.stop < offset
      · -- the literal is closed before the cursor
        rw [Literal.cutAt_of_lt hcut.1 hcut.2]
        simp only [hk, hcut.1]
        constructor
        · intro hc
          split at hc
          · next hstop =>
              obtain rfl := Option.some.inj hc
              exact ⟨⟨hl, ⟨hk, hcut.1⟩, hlt, by omega⟩, Or.inl hstop.symm, rfl⟩
          · simp at hc
        · rintro ⟨htouch, -, rfl⟩
          have hle := htouch.le_stop
          rw [if_pos (by omega)]
      · -- the scan stops inside the literal
        have hopen : (l.cutAt offset).closed = false := by simpa using hcut
        rw [Literal.cutAt_kind, hk, hopen]
        simp only [Literal.cutAt_start, Literal.cutAt_mark, Literal.closingQuote?_eq hl hk]
        constructor
        · intro hc
          obtain ⟨closing, hclosing, rfl⟩ := Option.map_eq_some_iff.1 hc
          split at hclosing
          · next hreach =>
              obtain rfl := Option.some.inj hclosing
              simp only [Bool.and_eq_true, decide_eq_true_eq] at hreach
              have hle : ¬ l.stop < offset := fun hlt => hcut ⟨hreach.1, hlt⟩
              exact ⟨⟨hl, ⟨hk, hreach.1⟩, hlt, by omega⟩, Or.inr hreach.2, rfl⟩
          · simp at hclosing
        · rintro ⟨htouch, hreach, rfl⟩
          have hle : ¬ l.stop < offset := fun hlt => hcut ⟨htouch.string.2, hlt⟩
          have hnear : l.stop < l.start + 1 + d.limits.callLength := by omega
          simp [htouch.string.2, hnear]

/-- **The literal under the cursor**: one that starts in the window and whose closing quote is
found. -/
theorem content?_eq_some_iff {d : Detection} {doc : Document} {p : Position}
    (hout : Literal.Outside (Literal.scanAll d.marks doc.text) (contentWindow d doc p))
    {c : Content} :
    content? d doc p = some c ↔
      ∃ l, Touches d doc (doc.offsetOf p) l ∧ contentWindow d doc p ≤ l.start ∧
        (doc.offsetOf p = l.stop + 1 ∨ l.stop < l.start + 1 + d.limits.callLength) ∧
        c = contentOf doc l.start l.stop l.mark := by
  rw [content?_eq_bind, Option.bind_eq_some_iff]
  constructor
  · rintro ⟨x, hlast, hc⟩
    have hx := List.mem_of_getLast? hlast
    rw [Literal.scan_eq_filter hout (contentWindow_le d doc p)] at hx
    obtain ⟨l, hl, rfl⟩ := List.mem_map.1 hx
    obtain ⟨hl, hstart⟩ := List.mem_filter.1 hl
    obtain ⟨hmem, hfirst⟩ := List.mem_filter.1 hl
    obtain ⟨htouch, hc⟩ :=
      (contentIn?_cutAt_eq_some_iff hmem (of_decide_eq_true hstart)).1 hc
    exact ⟨l, htouch, of_decide_eq_true hfirst, hc⟩
  · rintro ⟨l, htouch, hfirst, hc⟩
    refine ⟨l.cutAt (doc.offsetOf p), ?_, ?_⟩
    · exact Literal.getLast?_scan hout htouch.mem hfirst htouch.start_lt htouch.le_stop
    · exact (contentIn?_cutAt_eq_some_iff htouch.mem htouch.start_lt).2 ⟨htouch, hc⟩

/-- The query of a literal inside a call. -/
def queryOf (d : Detection) (doc : Document) (l : Literal) (call : Call) : Query where
  text := Escape.query (doc.text.slice (l.start + 1) l.stop)
  range := doc.rangeOf (l.start + 1) l.stop
  function := call.function
  multiline := (doc.rangeOf (l.start + 1) l.stop).isMultiline
  interpolating := d.isInterpolating call.function
  quote := l.mark

theorem query?_eq_some_iff_content {d : Detection} {doc : Document} {p : Position} {q : Query} :
    query? d doc p = some q ↔ ∃ c f, content? d doc p = some c ∧ function? d doc c = some f ∧
      q = ⟨Escape.query (doc.text.slice c.start c.stop), c.range, f, c.range.isMultiline,
        d.isInterpolating f, c.quote⟩ := by
  simp only [query?, Option.bind_eq_bind, Option.bind_eq_some_iff, Option.pure_def,
    Option.some.injEq]
  constructor
  · rintro ⟨c, hc, f, hf, rfl⟩
    exact ⟨c, f, hc, hf, rfl⟩
  · rintro ⟨c, f, hc, hf, rfl⟩
    exact ⟨c, hc, f, hf, rfl⟩

end Cursor

namespace Region.Covers

variable {d : Detection} {doc : Document} (h : Covers d doc)

include h

/-! ### The literal -/

theorem windowStart_eq_zero {line : Nat} (hline : line < doc.lineCount) :
    Cursor.windowStart doc line d.limits.lineLookback = 0 := by
  have hlines := h.lines
  rw [Cursor.windowStart, show line - d.limits.lineLookback = 0 by omega, doc.offsetOf_origin]

/-- The window before a position is the whole text before it. -/
theorem contentWindow_eq_zero (p : Position) : Cursor.contentWindow d doc p = 0 := by
  have hpos := doc.line_positionOf_lt 0
  exact h.windowStart_eq_zero (by omega)

/-- The literal under the cursor; no window leaves it out. -/
theorem content?_eq_some_iff {p : Position} {c : Content} :
    Cursor.content? d doc p = some c ↔
      ∃ l, Cursor.Touches d doc (doc.offsetOf p) l ∧
        (doc.offsetOf p = l.stop + 1 ∨ l.stop < l.start + 1 + d.limits.callLength) ∧
        c = Cursor.contentOf doc l.start l.stop l.mark := by
  have hwindow := h.contentWindow_eq_zero p
  have hout : Literal.Outside (Literal.scanAll d.marks doc.text)
      (Cursor.contentWindow d doc p) := by
    rw [hwindow]
    intro l _
    omega
  simp only [Cursor.content?_eq_some_iff hout, hwindow, Nat.zero_le, true_and]

/-! ### The owner -/

/-- The calls that the cursor sees around a literal are all calls around it: a name before a
parenthesis before the literal ends before the literal too. -/
theorem mem_callsAround_iff {l : Literal} (hl : l ∈ Literal.scanAll d.marks doc.text)
    (call : Call) :
    call ∈ d.functions.flatMap (Cursor.callsAround d doc.text
        (Literal.scan d.marks doc.text 0 l.start) 0 (Cursor.contentOf doc l.start l.stop l.mark)) ↔
      Call.Around d doc.text l.start l.stop call := by
  have hopening : (Cursor.contentOf doc l.start l.stop l.mark).opening = l.start := rfl
  have hstop : (Cursor.contentOf doc l.start l.stop l.mark).stop = l.stop := rfl
  simp only [List.mem_flatMap, Cursor.callsAround, List.mem_filterMap, List.mem_filter, hopening,
    hstop, Option.bind_eq_some_iff, Option.isNone_iff_eq_none]
  constructor
  · rintro ⟨f, hf, start, ⟨hocc, hcode⟩, opening, hopen, hcall⟩
    have hstands := (Call.mem_occurrences_iff (h.words f hf) doc.text l.start start).1 hocc
    -- the name ends before its parenthesis, so the text behind the literal has no say in it
    have hend := (Call.isBlank_of_openingAt? hopen).1
    have hlen := String.length_toList (s := f)
    split at hcall
    · next hlt =>
        split at hcall
        · next hinside =>
            obtain rfl := Option.some.inj hcall
            rw [Literal.containing?_scan hl (by omega)] at hcode
            exact ⟨⟨hf, ⟨start, hstands.of_take (by omega), hcode, hopen⟩, rfl⟩, hlt, hinside⟩
        · simp at hcall
    · simp at hcall
  · intro haround
    obtain ⟨start, hstands, hcode, hopen⟩ := haround.found.exists_start
    have hf := haround.found.mem_functions
    have hend := (Call.isBlank_of_openingAt? hopen).1
    have hlt := haround.opening_lt
    have hlen := String.length_toList (s := call.function)
    refine ⟨call.function, hf, start, ⟨?_, ?_⟩, call.opening, hopen, ?_⟩
    · rw [Call.mem_occurrences_iff (h.words _ hf)]
      exact hstands.take (by omega)
    · rw [Literal.containing?_scan hl (by omega)]
      exact hcode
    · rw [if_pos hlt, ← haround.found.stop_eq, if_pos haround.lt_stop]

/-- A literal with a call around it has an innermost one. -/
theorem exists_innermost {l : Literal} (hl : l ∈ Literal.scanAll d.marks doc.text) {call : Call}
    (haround : Call.Around d doc.text l.start l.stop call) :
    ∃ inner, Call.Innermost d doc.text l.start l.stop inner := by
  have hmem := h.mem_callsAround_iff hl
  obtain ⟨inner, hinner⟩ := Call.exists_innermost?_eq_some ((hmem call).2 haround)
  exact ⟨inner, Call.innermost?_eq_some hmem hinner⟩

/-- The window before a literal is the whole text before it. -/
theorem windowStart_of_content (opening closing : Nat) (quote : Char) :
    Cursor.windowStart doc (Cursor.contentOf doc opening closing quote).range.start.line
      d.limits.lineLookback = 0 :=
  h.windowStart_eq_zero (doc.line_positionOf_lt (opening + 1))

/-- **The innermost call decides** whether a literal is query text, and of which function. -/
theorem function?_eq_some_iff {l : Literal} (hl : l ∈ Literal.scanAll d.marks doc.text)
    {f : String} :
    Cursor.function? d doc (Cursor.contentOf doc l.start l.stop l.mark) = some f ↔
      ∃ call, Call.Innermost d doc.text l.start l.stop call ∧
        Call.acceptsArgument d call.function
          (Call.namedArgument? doc.text l.start d.limits.argumentLookback) = true ∧
        call.function = f := by
  have hmem := h.mem_callsAround_iff hl
  have hopening : (Cursor.contentOf doc l.start l.stop l.mark).opening = l.start := rfl
  simp only [Cursor.function?, h.windowStart_of_content, hopening]
  constructor
  · intro hf
    split at hf
    · simp at hf
    · next call hinner =>
        split at hf
        · next hacc =>
            exact ⟨call, Call.innermost?_eq_some hmem hinner, hacc, Option.some.inj hf⟩
        · simp at hf
  · rintro ⟨call, hcall, hacc, rfl⟩
    obtain ⟨inner, hinner⟩ := Call.exists_innermost?_eq_some ((hmem call).2 hcall.around)
    obtain rfl := (Call.innermost?_eq_some hmem hinner).unique h.words hcall
    simp only [hinner, hacc, if_true]

/-! ### The query -/

/-- The query at a position.  The bound on the length of a literal is no loss, because a call that
contains it is bounded as well. -/
theorem query?_eq_some_iff {p : Position} {q : Query} :
    Cursor.query? d doc p = some q ↔
      ∃ l call, Cursor.Touches d doc (doc.offsetOf p) l ∧
        Call.Innermost d doc.text l.start l.stop call ∧
        Call.acceptsArgument d call.function
          (Call.namedArgument? doc.text l.start d.limits.argumentLookback) = true ∧
        q = Cursor.queryOf d doc l call := by
  rw [Cursor.query?_eq_some_iff_content]
  constructor
  · rintro ⟨c, f, hc, hf, rfl⟩
    obtain ⟨l, htouch, -, rfl⟩ := h.content?_eq_some_iff.1 hc
    obtain ⟨call, hcall, hacc, rfl⟩ := (h.function?_eq_some_iff htouch.mem).1 hf
    exact ⟨l, call, htouch, hcall, hacc, rfl⟩
  · rintro ⟨l, call, htouch, hcall, hacc, rfl⟩
    refine ⟨Cursor.contentOf doc l.start l.stop l.mark, call.function, ?_, ?_, rfl⟩
    · -- the call reaches over the literal and is itself bounded
      refine h.content?_eq_some_iff.2 ⟨l, htouch, Or.inr ?_, rfl⟩
      have hopen := hcall.around.opening_lt
      have hinside := hcall.around.lt_stop
      have hreach := Call.stopOf_le d doc.text call.opening
      rw [hcall.around.found.stop_eq] at hinside
      omega
    · exact (h.function?_eq_some_iff htouch.mem).2 ⟨call, hcall, hacc, rfl⟩

/-- The query at a position that touches a literal inside a call. -/
theorem query?_of_touches {p : Position} {l : Literal} {call : Call}
    (htouch : Cursor.Touches d doc (doc.offsetOf p) l)
    (hcall : Call.Innermost d doc.text l.start l.stop call) :
    Cursor.query? d doc p =
      if Call.acceptsArgument d call.function
          (Call.namedArgument? doc.text l.start d.limits.argumentLookback) then
        some (Cursor.queryOf d doc l call)
      else none := by
  split
  · next hacc => exact h.query?_eq_some_iff.2 ⟨l, call, htouch, hcall, hacc, rfl⟩
  · next hacc =>
      rw [Option.eq_none_iff_forall_ne_some]
      intro q hq
      obtain ⟨l', call', htouch', hcall', hacc', rfl⟩ := h.query?_eq_some_iff.1 hq
      obtain rfl := htouch.unique htouch'
      obtain rfl := hcall.unique h.words hcall'
      exact hacc hacc'

end Region.Covers

end EmbeddedSql
