/-
**The cursor and the survey.**

Two searches attribute a literal to a call.  The survey lets every call say whether it accepts the
literal and takes the innermost of those that do; the cursor takes the innermost call and then asks
it.  Whatever the cursor recognises the survey reports.  The converse has one exception: a literal
bound to a name, whose innermost call interpolates while a call further outside accepts the name.
The survey gives it to the outer call, and the cursor finds nothing there.

Main definitions:

* `Query.Describes` — a query and a region say the same about a literal;
* `Region.Overruled` — the exception.

Main results:

* `Region.query_reported` — **what the cursor recognises is reported**, once and alike;
* `Region.region_recognised_iff` — **what is reported is recognised** exactly where it is not
  overruled.
-/

import EmbeddedSql.Proofs.Cursor.Query

set_option relaxedAutoImplicit false
set_option autoImplicit false

namespace EmbeddedSql

/-- The query and the region say the same about a literal. -/
structure Query.Describes (q : Query) (r : Region) : Prop where
  range : q.range = r.range
  function : q.function = r.function
  multiline : q.multiline = r.multiline
  interpolating : q.interpolating = r.interpolating
  text : q.text = Escape.query r.raw

theorem Cursor.queryOf_describes (d : Detection) (doc : Document) (l : Literal) (call : Call) :
    (queryOf d doc l call).Describes (Region.regionOf d doc l call) :=
  ⟨rfl, rfl, rfl, rfl, rfl⟩

namespace Region

/-- The literal of a region is bound to a name, and its innermost call interpolates. -/
def Overruled (d : Detection) (doc : Document) (r : Region) : Prop :=
  (Call.namedArgument? doc.text (doc.offsetOf r.range.start - 1)
    d.limits.argumentLookback).isSome = true ∧
  ∃ call, Call.Innermost d doc.text (doc.offsetOf r.range.start - 1) (doc.offsetOf r.range.stop)
    call ∧ d.isInterpolating call.function = true

/-- An innermost call that accepts a literal owns it. -/
theorem owns_of_innermost {d : Detection} {text : Text} {l : Literal} {call : Call}
    (hinner : Call.Innermost d text l.start l.stop call)
    (hacc : Call.acceptsArgument d call.function
      (Call.namedArgument? text l.start d.limits.argumentLookback) = true) : Owns d text l call :=
  ⟨hinner.around, hacc, fun x hx _ => hinner.le_opening x hx⟩

/-- A name that some function accepts is accepted by every function that does not interpolate. -/
theorem acceptsArgument_iff {d : Detection} {f g : String} {argument : Option Text}
    (hf : Call.acceptsArgument d f argument = true) :
    Call.acceptsArgument d g argument = true ↔
      ¬ (argument.isSome = true ∧ d.isInterpolating g = true) := by
  cases argument with
  | none => simp [Call.acceptsArgument]
  | some name =>
      obtain ⟨-, hname⟩ := Bool.and_eq_true_iff.1 hf
      simp only [Call.acceptsArgument, hname]
      simp

/-- A reported literal is overruled when its innermost call does not accept it. -/
theorem Covers.overruled_iff {d : Detection} {doc : Document} (h : Covers d doc) {l : Literal}
    (hl : l ∈ Literal.scanAll d.marks doc.text) (hclosed : l.closed = true) {owner : Call}
    (hown : Owns d doc.text l owner) {inner : Call}
    (hinner : Call.Innermost d doc.text l.start l.stop inner) :
    Overruled d doc (regionOf d doc l owner) ↔
      Call.acceptsArgument d inner.function
        (Call.namedArgument? doc.text l.start d.limits.argumentLookback) = false := by
  obtain ⟨hstart, hstop⟩ := offsetOf_rangeOf hl hclosed
  rw [← Bool.not_eq_true, acceptsArgument_iff hown.accepts, not_not]
  simp only [Overruled, regionOf, hstart, hstop, Nat.add_sub_cancel]
  constructor
  · rintro ⟨hnamed, call, hcall, hinterp⟩
    obtain rfl := hinner.unique h.words hcall
    exact ⟨hnamed, hinterp⟩
  · rintro ⟨hnamed, hinterp⟩
    exact ⟨hnamed, inner, hinner, hinterp⟩

/-! ### From the cursor to the survey -/

/-- **What the cursor recognises is reported**: exactly one region has the range of the query, and
it says the same. -/
theorem query_reported {d : Detection} {doc : Document} (h : Covers d doc) {p : Position}
    {q : Query} (hq : Cursor.query? d doc p = some q) :
    ∃ r, (all d doc).filter (·.range = q.range) = [r] ∧ q.Describes r := by
  obtain ⟨l, call, htouch, hinner, hacc, rfl⟩ := h.query?_eq_some_iff.1 hq
  refine ⟨regionOf d doc l call, ?_, Cursor.queryOf_describes d doc l call⟩
  exact h.filter_range htouch.mem htouch.string (owns_of_innermost hinner hacc)

/-- Just behind the closing quote of a literal with an escaped quote, inside two calls.  The comment
holds a name and a quote as well. -/
theorem query_reported_behind_quote :
    let doc : Document := ⟨"", "DBI::dbGetQuery(con, sql('it\\'s')) # sql(\"".toList, 0⟩
    let q : Query := ⟨"it's".toList, ⟨⟨0, 26⟩, ⟨0, 31⟩⟩, "sql", false, false, '\''⟩
    Covers {} doc ∧ Cursor.query? {} doc ⟨0, 32⟩ = some q ∧
      ∃ r, (all {} doc).filter (·.range = q.range) = [r] ∧ q.Describes r := by
  intro doc q
  have hcovers : Covers {} doc := by decide +kernel
  have hquery : Cursor.query? {} doc ⟨0, 32⟩ = some q := by decide +kernel
  exact ⟨hcovers, hquery, query_reported hcovers hquery⟩

/-! ### From the survey to the cursor -/

/-- **What is reported is recognised** at every offset from the start of the content to just behind
the closing quote, exactly if it is not overruled. -/
theorem region_recognised_iff {d : Detection} {doc : Document} (h : Covers d doc) {r : Region}
    (hr : r ∈ all d doc) {p : Position} (hlo : doc.offsetOf r.range.start ≤ doc.offsetOf p)
    (hhi : doc.offsetOf p ≤ doc.offsetOf r.range.stop + 1) :
    ((∃ q, Cursor.query? d doc p = some q ∧ q.Describes r) ↔ ¬ Overruled d doc r) ∧
      (Cursor.query? d doc p = none ↔ Overruled d doc r) := by
  obtain ⟨l, hl, hstring, owner, hown, rfl⟩ := h.mem_all_iff.1 hr
  obtain ⟨inner, hinner⟩ := h.exists_innermost hl hown.around
  obtain ⟨hstart, hstop⟩ := offsetOf_rangeOf hl hstring.2
  simp only [regionOf, hstart, hstop] at hlo hhi
  have htouch : Cursor.Touches d doc (doc.offsetOf p) l := ⟨hl, hstring, hlo, hhi⟩
  rw [h.overruled_iff hl hstring.2 hown hinner, h.query?_of_touches htouch hinner]
  by_cases hacc : Call.acceptsArgument d inner.function
      (Call.namedArgument? doc.text l.start d.limits.argumentLookback) = true
  · -- the innermost call accepts the literal, so it is the owner as well
    obtain rfl := h.owns_unique (owns_of_innermost hinner hacc) hown
    simp [hacc, Cursor.queryOf_describes]
  · simp [hacc]

/-- Two strings of one call: the first is bound to a name inside a call that interpolates, and the
cursor finds nothing there; the second is recognised. -/
theorem region_recognised_unless_named :
    let doc : Document := ⟨"", "dbGetQuery(glue_sql(statement = \"x\"), \"y\")".toList, 0⟩
    let x : Region := ⟨⟨⟨0, 33⟩, ⟨0, 34⟩⟩, "dbGetQuery", false, false, ['x'], false⟩
    let y : Region := ⟨⟨⟨0, 39⟩, ⟨0, 40⟩⟩, "dbGetQuery", false, false, ['y'], true⟩
    Covers {} doc ∧ all {} doc = [x, y] ∧
      (Cursor.query? {} doc x.range.start = none ∧ Overruled {} doc x) ∧
      (∃ q, Cursor.query? {} doc y.range.start = some q ∧ q.Describes y) ∧
      ¬ Overruled {} doc y := by
  intro doc x y
  have hcovers : Covers {} doc := by decide +kernel
  have hall : all {} doc = [x, y] := by decide +kernel
  have hx : Cursor.query? {} doc x.range.start = none := by decide +kernel
  have hy : (Cursor.query? {} doc y.range.start).isSome = true := by decide +kernel
  have hx' := region_recognised_iff hcovers (r := x) (p := x.range.start) (by simp [hall])
    (Nat.le_refl _) (by decide +kernel)
  have hy' := region_recognised_iff hcovers (r := y) (p := y.range.start) (by simp [hall])
    (Nat.le_refl _) (by decide +kernel)
  have hnot : ¬ Overruled {} doc y := by
    intro hover
    rw [hy'.2.2 hover] at hy
    simp at hy
  exact ⟨hcovers, hall, ⟨hx, hx'.2.1 hx⟩, hy'.1.2 hnot, hnot⟩

end Region

end EmbeddedSql
