/-
**What an undisturbed survey finds.**

`Region.survey` can be cancelled and stops following a name after a number of occurrences.  When
nobody cancels it and no name occurs too often, it looks at all calls of the configured functions
that stand in code, and every literal goes to the innermost call that accepts it.

Main definitions:

* `Signal.Gives` — a computation that gives a value and is not cancelled;
* `Region.codeOccurrences` — where a name stands in code;
* `Region.callsIn` — the calls that the survey follows;
* `Region.Owns` — the innermost call that accepts a literal;
* `Region.Complete` — no cap cuts the survey of a document short;
* `Region.Covers` — and none cuts short what the cursor looks at;
* `Region.Covered` — the content of a literal, as a region has it.

Main results:

* `Region.all_eq` — **the survey as one expression** over the literals of the document;
* `Region.Complete.mem_callsIn_iff` — the survey follows all calls;
* `Region.Complete.owner?_eq_some_iff` — **the owner of a literal**;
* `Region.Complete.mem_all_iff`, `Region.Complete.filter_range` — the regions, and the only region
  with the range of a literal;
* `Region.exists_covered_of_mem_all`, `Region.pairwise_all` — **regions are contents of literals**,
  in order, whatever the caps.
-/

import EmbeddedSql.Proofs.Call.Innermost
import EmbeddedSql.Proofs.Document.Offset
import EmbeddedSql.Proofs.Literal.Splice

set_option relaxedAutoImplicit false
set_option autoImplicit false

namespace EmbeddedSql

/-! ### Computations that are not cancelled -/

namespace Signal

variable {α β : Type}

/-- A computation that gives a value, however many questions were asked before. -/
def Gives (x : Watched α) (v : α) : Prop :=
  ∀ asked, ∃ asked', x.run asked = some (v, asked')

theorem gives_pure (v : α) : Gives (pure v) v :=
  fun asked => ⟨asked, rfl⟩

theorem Gives.bind {x : Watched α} {f : α → Watched β} {v : α} {w : β} (hx : Gives x v)
    (hf : Gives (f v) w) : Gives (x >>= f) w := by
  intro asked
  obtain ⟨asked', hx⟩ := hx asked
  obtain ⟨asked'', hf⟩ := hf asked'
  exact ⟨asked'', by simp [StateT.run_bind, hx, hf]⟩

theorem Gives.map {x : Watched α} {v : α} (hx : Gives x v) (f : α → β) : Gives (f <$> x) (f v) := by
  intro asked
  obtain ⟨asked', hx⟩ := hx asked
  exact ⟨asked', by simp [StateT.run_map, hx]⟩

theorem gives_poll_silent : Gives (poll silent) () :=
  fun asked => ⟨asked + 1, rfl⟩

theorem gives_mapM {f : α → Watched β} {g : α → β} (h : ∀ a, Gives (f a) (g a)) (as : List α) :
    Gives (as.mapM f) (as.map g) := by
  induction as with
  | nil => exact gives_pure []
  | cons a as ih =>
      rw [List.mapM_cons]
      exact (h a).bind (ih.bind (gives_pure _))

end Signal

namespace Region

open Signal

/-! ### The survey -/

/-- The offsets at which a name stands in code. -/
def codeOccurrences (d : Detection) (text : Text) (function : String) : List Nat :=
  (Call.occurrences function text 0 text.length).filter
    fun o => (Literal.containing? (Literal.scanAll d.marks text) o).isNone

theorem gives_inCode (literals : List Literal) (left : Nat) (os : List Nat) :
    Gives (inCode silent literals left os)
      ((os.filter fun o => (Literal.containing? literals o).isNone).take left,
        decide (left < (os.filter fun o => (Literal.containing? literals o).isNone).length)) := by
  induction os generalizing left with
  | nil =>
      rw [inCode.eq_def]
      simpa using gives_pure ([], false)
  | cons o os ih =>
      rw [inCode.eq_def]
      refine gives_poll_silent.bind ?_
      cases h : Literal.containing? literals o with
      | some l => simpa [h] using ih left
      | none =>
          cases left with
          | zero => simpa [h] using gives_pure _
          | succ n => simpa [h] using (ih n).map fun r => (o :: r.1, r.2)

/-- The calls of one function that the survey follows. -/
def callsTo (d : Detection) (text : Text) (function : String) : List Call :=
  ((codeOccurrences d text function).take d.limits.functionMatches).filterMap
    (Call.at? d text function)

/-- The calls that the survey follows. -/
def callsIn (d : Detection) (text : Text) : List Call :=
  d.functions.flatMap (callsTo d text)

theorem gives_callsOf (d : Detection) (text : Text) (function : String) :
    Gives (callsOf silent d text (Literal.scanAll d.marks text) function)
      (callsTo d text function,
        decide (d.limits.functionMatches < (codeOccurrences d text function).length)) :=
  gives_poll_silent.bind ((gives_inCode _ _ _).bind (gives_pure _))

/-- **The survey as one expression** over the literals of the document. -/
theorem all_eq {d : Detection} {doc : Document} (h : doc.text.length ≤ d.limits.documentSize) :
    all d doc = (Literal.scanAll d.marks doc.text).filterMap
      (ofLiteral? d doc (Literal.scanAll d.marks doc.text) (callsIn d doc.text)) := by
  have hcalls := gives_mapM (gives_callsOf d doc.text) d.functions
  obtain ⟨asked, hrun⟩ := (hcalls.bind (gives_pure _) : Gives (do
    let found ← d.functions.mapM (callsOf silent d doc.text (Literal.scanAll d.marks doc.text))
    let calls := found.flatMap Prod.fst
    let warnings := (d.functions.zip found).filterMap fun f =>
      if f.2.2 then some (Warning.tooManyCalls f.1) else none
    return ((Literal.scanAll d.marks doc.text).filterMap
      (ofLiteral? d doc (Literal.scanAll d.marks doc.text) calls), warnings)) _) 0
  have hsize : ¬ d.limits.documentSize < doc.text.length := by omega
  simp only [all, surveyAll, survey, hsize, if_false]
  rw [hrun]
  simp [callsIn, List.flatMap_map]

/-! ### All calls -/

/-- No cap of a detection cuts the survey of a document short, and its names are words. -/
structure Complete (d : Detection) (doc : Document) : Prop where
  words : ∀ f ∈ d.functions, Call.IsWord f.toList
  size : doc.text.length ≤ d.limits.documentSize
  calls : ∀ f ∈ d.functions, (codeOccurrences d doc.text f).length ≤ d.limits.functionMatches

instance (d : Detection) (doc : Document) : Decidable (Complete d doc) :=
  decidable_of_iff
    ((∀ f ∈ d.functions, Call.IsWord f.toList) ∧ doc.text.length ≤ d.limits.documentSize ∧
      ∀ f ∈ d.functions, (codeOccurrences d doc.text f).length ≤ d.limits.functionMatches)
    ⟨fun h => ⟨h.1, h.2.1, h.2.2⟩, fun h => ⟨h.words, h.size, h.calls⟩⟩

/-- The caps of a detection do not bite on a document, and its names are words. -/
structure Covers (d : Detection) (doc : Document) : Prop where
  words : ∀ f ∈ d.functions, Call.IsWord f.toList
  size : doc.text.length ≤ d.limits.documentSize
  lines : doc.lineCount ≤ d.limits.lineLookback + 1
  calls : ∀ f ∈ d.functions, (codeOccurrences d doc.text f).length ≤ d.limits.functionMatches

instance (d : Detection) (doc : Document) : Decidable (Covers d doc) :=
  decidable_of_iff
    ((∀ f ∈ d.functions, Call.IsWord f.toList) ∧ doc.text.length ≤ d.limits.documentSize ∧
      doc.lineCount ≤ d.limits.lineLookback + 1 ∧
      ∀ f ∈ d.functions, (codeOccurrences d doc.text f).length ≤ d.limits.functionMatches)
    ⟨fun h => ⟨h.1, h.2.1, h.2.2.1, h.2.2.2⟩, fun h => ⟨h.words, h.size, h.lines, h.calls⟩⟩

theorem mem_codeOccurrences_iff {d : Detection} {text : Text} {f : String}
    (hf : Call.IsWord f.toList) (start : Nat) :
    start ∈ codeOccurrences d text f ↔ Call.StandsAt f.toList text start ∧
      Literal.containing? (Literal.scanAll d.marks text) start = none := by
  rw [codeOccurrences, List.mem_filter, Call.mem_occurrences_iff hf, List.take_length,
    Option.isNone_iff_eq_none]

theorem at?_eq_some_iff (d : Detection) (text : Text) (f : String) (start : Nat) (call : Call) :
    Call.at? d text f start = some call ↔ call.function = f ∧
      Call.openingAt? d text f start = some call.opening ∧
      call.stop = Call.stopOf d text call.opening := by
  obtain ⟨g, opening, stop⟩ := call
  simp only [Call.at?, Option.map_eq_some_iff, Call.mk.injEq]
  constructor
  · rintro ⟨o, ho, rfl, rfl, rfl⟩
    exact ⟨rfl, ho, rfl⟩
  · rintro ⟨rfl, ho, rfl⟩
    exact ⟨opening, ho, rfl, rfl, rfl⟩

/-- The calls that the survey follows, by the occurrences of their names. -/
theorem mem_callsIn_iff_exists (d : Detection) (text : Text) (call : Call) :
    call ∈ callsIn d text ↔ ∃ f ∈ d.functions,
      ∃ start ∈ (codeOccurrences d text f).take d.limits.functionMatches, call.function = f ∧
        Call.openingAt? d text f start = some call.opening ∧
        call.stop = Call.stopOf d text call.opening := by
  simp only [callsIn, callsTo, List.mem_flatMap, List.mem_filterMap, at?_eq_some_iff]

namespace Complete

variable {d : Detection} {doc : Document} (h : Complete d doc)

include h

/-- The survey follows all calls. -/
theorem mem_callsIn_iff (call : Call) : call ∈ callsIn d doc.text ↔ Call.Found d doc.text call := by
  rw [mem_callsIn_iff_exists]
  constructor
  · rintro ⟨f, hf, start, hstart, rfl, hopen, hstop⟩
    have hstart := (mem_codeOccurrences_iff (h.words _ hf) start).1 (List.mem_of_mem_take hstart)
    exact ⟨hf, ⟨start, hstart.1, hstart.2, hopen⟩, hstop⟩
  · intro hfound
    obtain ⟨start, hstands, hcode, hopen⟩ := hfound.exists_start
    have hf := hfound.mem_functions
    refine ⟨call.function, hf, start, ?_, rfl, hopen, hfound.stop_eq⟩
    rw [List.take_of_length_le (h.calls _ hf)]
    exact (mem_codeOccurrences_iff (h.words _ hf) start).2 ⟨hstands, hcode⟩

end Complete

/-! ### Owners -/

/-- The innermost call that accepts a literal. -/
structure Owns (d : Detection) (text : Text) (l : Literal) (call : Call) : Prop where
  around : Call.Around d text l.start l.stop call
  accepts : Call.acceptsArgument d call.function
    (Call.namedArgument? text l.start d.limits.argumentLookback) = true
  le_opening : ∀ x, Call.Around d text l.start l.stop x →
    Call.acceptsArgument d x.function
      (Call.namedArgument? text l.start d.limits.argumentLookback) = true →
    x.opening ≤ call.opening

theorem accepts_iff_of_found {d : Detection} {text : Text} {l : Literal} {call : Call}
    (hfound : Call.Found d text call) :
    Region.accepts d text l call = true ↔ Call.Around d text l.start l.stop call ∧
      Call.acceptsArgument d call.function
        (Call.namedArgument? text l.start d.limits.argumentLookback) = true := by
  simp only [Region.accepts, Bool.and_eq_true, decide_eq_true_eq]
  constructor
  · rintro ⟨⟨hopen, hstop⟩, hacc⟩
    exact ⟨⟨hfound, hopen, hstop⟩, hacc⟩
  · rintro ⟨haround, hacc⟩
    exact ⟨⟨haround.opening_lt, haround.lt_stop⟩, hacc⟩

namespace Complete

variable {d : Detection} {doc : Document} (h : Complete d doc)

include h

theorem owns_unique {l : Literal} {x y : Call} (hx : Owns d doc.text l x)
    (hy : Owns d doc.text l y) : x = y := by
  refine hx.around.found.eq_of_opening_eq h.words hy.around.found (Nat.le_antisymm ?_ ?_)
  · exact hy.le_opening x hx.around hx.accepts
  · exact hx.le_opening y hy.around hy.accepts

theorem owns_of_owner?_eq_some {l : Literal} {call : Call}
    (hown : owner? d doc.text l (callsIn d doc.text) = some call) : Owns d doc.text l call := by
  have hspec := Call.owner?_spec d doc.text l (callsIn d doc.text)
  rw [hown] at hspec
  obtain ⟨hmem, hacc, hmax⟩ := hspec
  have hfound := (h.mem_callsIn_iff call).1 hmem
  obtain ⟨haround, harg⟩ := (accepts_iff_of_found hfound).1 hacc
  refine ⟨haround, harg, fun x hx hxarg => ?_⟩
  exact hmax x ((h.mem_callsIn_iff x).2 hx.found)
    ((accepts_iff_of_found hx.found).2 ⟨hx, hxarg⟩)

/-- **The owner of a literal** is the innermost call that accepts it. -/
theorem owner?_eq_some_iff {l : Literal} {call : Call} :
    owner? d doc.text l (callsIn d doc.text) = some call ↔ Owns d doc.text l call := by
  refine ⟨h.owns_of_owner?_eq_some, fun hown => ?_⟩
  cases hx : owner? d doc.text l (callsIn d doc.text) with
  | some x => rw [h.owns_unique (h.owns_of_owner?_eq_some hx) hown]
  | none =>
      have hspec := Call.owner?_spec d doc.text l (callsIn d doc.text)
      rw [hx] at hspec
      have hnone := hspec call ((h.mem_callsIn_iff call).2 hown.around.found)
      rw [(accepts_iff_of_found hown.around.found).2 ⟨hown.around, hown.accepts⟩] at hnone
      simp at hnone

end Complete

/-! ### Regions -/

/-- The region of a literal that a call owns. -/
def regionOf (d : Detection) (doc : Document) (l : Literal) (call : Call) : Region where
  range := doc.rangeOf (l.start + 1) l.stop
  function := call.function
  multiline := (doc.rangeOf (l.start + 1) l.stop).isMultiline
  interpolating := d.isInterpolating call.function
  raw := doc.text.slice (l.start + 1) l.stop
  direct := isDirect doc.text (Literal.scanAll d.marks doc.text) call.opening l.start

/-- Two literals of a document with the same range are the same literal. -/
theorem eq_of_rangeOf_eq {m : Marks} {doc : Document} {x y : Literal}
    (hx : x ∈ Literal.scanAll m doc.text) (hy : y ∈ Literal.scanAll m doc.text)
    (h : doc.rangeOf (x.start + 1) x.stop = doc.rangeOf (y.start + 1) y.stop) : x = y := by
  have hscan := Literal.scanned_scanAll m doc.text
  have hlx := (hscan.within hx).start_lt
  have hly := (hscan.within hy).start_lt
  have hpos := doc.positionOf_injective (by omega) (by omega) (congrArg Range.start h)
  exact hscan.eq_of_start_eq hx hy (by omega)

/-- The offsets of the literal of a region. -/
theorem offsetOf_rangeOf {m : Marks} {doc : Document} {l : Literal}
    (hl : l ∈ Literal.scanAll m doc.text) (hclosed : l.closed = true) :
    doc.offsetOf (doc.rangeOf (l.start + 1) l.stop).start = l.start + 1 ∧
      doc.offsetOf (doc.rangeOf (l.start + 1) l.stop).stop = l.stop := by
  have hwithin := (Literal.scanned_scanAll m doc.text).within hl
  have hstart := hwithin.start_lt
  have hstop := hwithin.stop_lt hclosed
  exact ⟨doc.offsetOf_positionOf (by omega), doc.offsetOf_positionOf (by omega)⟩

theorem filterMap_eq_singleton {α β : Type} {f : α → Option β} {as : List α} (hnodup : as.Nodup)
    {a : α} (ha : a ∈ as) {b : β} (hb : f a = some b) (hother : ∀ x ∈ as, x ≠ a → f x = none) :
    as.filterMap f = [b] := by
  induction as with
  | nil => simp at ha
  | cons x as ih =>
      obtain ⟨hnew, hnodup⟩ := List.nodup_cons.1 hnodup
      obtain ⟨hhead, hrest⟩ := List.forall_mem_cons.1 hother
      rcases List.mem_cons.1 ha with rfl | ha
      · rw [List.filterMap_cons_some hb, List.filterMap_eq_nil_iff.2]
        intro y hy
        exact hrest y hy fun heq => hnew (heq ▸ hy)
      · rw [List.filterMap_cons_none (hhead fun heq => hnew (heq ▸ ha))]
        exact ih hnodup ha hrest

namespace Complete

variable {d : Detection} {doc : Document} (h : Complete d doc)

include h

theorem ofLiteral?_eq_some_iff {l : Literal} {r : Region} :
    ofLiteral? d doc (Literal.scanAll d.marks doc.text) (callsIn d doc.text) l = some r ↔
      (l.kind = .string ∧ l.closed = true) ∧
        ∃ call, Owns d doc.text l call ∧ r = regionOf d doc l call := by
  simp only [← h.owner?_eq_some_iff, ofLiteral?, Bool.and_eq_true, decide_eq_true_eq]
  by_cases hl : l.kind = .string ∧ l.closed = true
  · rw [if_pos hl, Option.map_eq_some_iff]
    simp only [hl, true_and, eq_comm]
    rfl
  · simp [hl]

/-- The regions of a document. -/
theorem mem_all_iff {r : Region} :
    r ∈ all d doc ↔ ∃ l ∈ Literal.scanAll d.marks doc.text, (l.kind = .string ∧ l.closed = true) ∧
      ∃ call, Owns d doc.text l call ∧ r = regionOf d doc l call := by
  simp only [all_eq h.size, List.mem_filterMap, h.ofLiteral?_eq_some_iff]

/-- The region of a literal is the only one with its range. -/
theorem filter_range {l : Literal} {call : Call} (hl : l ∈ Literal.scanAll d.marks doc.text)
    (hstring : l.kind = .string ∧ l.closed = true) (hown : Owns d doc.text l call) :
    (all d doc).filter (·.range = doc.rangeOf (l.start + 1) l.stop) = [regionOf d doc l call] := by
  rw [all_eq h.size, List.filter_filterMap]
  refine filterMap_eq_singleton
    (List.Nodup.of_map _ (Literal.scanned_scanAll d.marks doc.text).nodup_start) hl ?_ ?_
  · rw [h.ofLiteral?_eq_some_iff.2 ⟨hstring, call, hown, rfl⟩]
    simp [regionOf]
  · -- another literal has another range
    intro x hx hne
    rw [Option.filter_eq_none_iff]
    intro r hr
    obtain ⟨-, call', -, rfl⟩ := h.ofLiteral?_eq_some_iff.1 hr
    exact fun hrange => hne (eq_of_rangeOf_eq hx hl (of_decide_eq_true hrange))

end Complete

namespace Covers

variable {d : Detection} {doc : Document} (h : Covers d doc)

include h

theorem complete : Complete d doc :=
  ⟨h.words, h.size, h.calls⟩

theorem owns_unique {l : Literal} {x y : Call} (hx : Owns d doc.text l x)
    (hy : Owns d doc.text l y) : x = y :=
  h.complete.owns_unique hx hy

theorem mem_all_iff {r : Region} :
    r ∈ all d doc ↔ ∃ l ∈ Literal.scanAll d.marks doc.text, (l.kind = .string ∧ l.closed = true) ∧
      ∃ call, Owns d doc.text l call ∧ r = regionOf d doc l call :=
  h.complete.mem_all_iff

theorem filter_range {l : Literal} {call : Call} (hl : l ∈ Literal.scanAll d.marks doc.text)
    (hstring : l.kind = .string ∧ l.closed = true) (hown : Owns d doc.text l call) :
    (all d doc).filter (·.range = doc.rangeOf (l.start + 1) l.stop) = [regionOf d doc l call] :=
  h.complete.filter_range hl hstring hown

end Covers

/-! ### Where regions lie -/

theorem all_eq_nil {d : Detection} {doc : Document} (h : d.limits.documentSize < doc.text.length) :
    all d doc = [] := by
  simp only [all, surveyAll, survey, h, if_true]
  rfl

/-- The content of a literal, as a region has it. -/
structure Covered (doc : Document) (l : Literal) (r : Region) : Prop where
  start_eq : doc.offsetOf r.range.start = l.start + 1
  stop_eq : doc.offsetOf r.range.stop = l.stop
  start_le : l.start + 1 ≤ l.stop
  lt_length : l.stop < doc.text.length
  range_eq : r.range = doc.rangeOf (l.start + 1) l.stop
  raw_eq : r.raw = doc.text.slice (l.start + 1) l.stop

theorem covered_of_ofLiteral? {d : Detection} {doc : Document} {calls : List Call} {l : Literal}
    {r : Region} (hl : l ∈ Literal.scanAll d.marks doc.text)
    (h : ofLiteral? d doc (Literal.scanAll d.marks doc.text) calls l = some r) :
    Covered doc l r := by
  unfold ofLiteral? at h
  split at h
  · next hstring =>
      have hstring : l.kind = .string ∧ l.closed = true := by simpa using hstring
      obtain ⟨hlt, hclose⟩ := (Literal.scanned_scanAll d.marks doc.text).closes hl hstring
      obtain ⟨hlength, -⟩ := List.getElem?_eq_some_iff.1 hclose
      obtain ⟨call, -, rfl⟩ := Option.map_eq_some_iff.1 h
      refine ⟨?_, ?_, hlt, hlength, rfl, rfl⟩
      · exact doc.offsetOf_positionOf (by omega)
      · exact doc.offsetOf_positionOf (by omega)
  · simp at h

/-- A region is a stretch of the text. -/
theorem exists_covered_of_mem_all {d : Detection} {doc : Document} {r : Region}
    (h : r ∈ all d doc) : ∃ l, Covered doc l r := by
  by_cases hsize : doc.text.length ≤ d.limits.documentSize
  · rw [all_eq hsize] at h
    obtain ⟨l, hl, hr⟩ := List.mem_filterMap.1 h
    exact ⟨l, covered_of_ofLiteral? hl hr⟩
  · rw [all_eq_nil (Nat.lt_of_not_le hsize)] at h
    simp at h

/-- Regions are in order and apart from each other. -/
theorem pairwise_all (d : Detection) (doc : Document) :
    (all d doc).Pairwise fun r s => doc.offsetOf r.range.stop < doc.offsetOf s.range.start := by
  by_cases hsize : doc.text.length ≤ d.limits.documentSize
  · rw [all_eq hsize, List.pairwise_filterMap]
    refine (Literal.scanned_scanAll d.marks doc.text).pairwise.imp_of_mem ?_
    intro l l' hl hl' hlt r hr r' hr'
    rw [(covered_of_ofLiteral? hl hr).stop_eq, (covered_of_ofLiteral? hl' hr').start_eq]
    omega
  · rw [all_eq_nil (Nat.lt_of_not_le hsize)]
    exact List.Pairwise.nil

end Region

end EmbeddedSql
