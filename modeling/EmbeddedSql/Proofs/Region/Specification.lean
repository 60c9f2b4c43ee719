/-
**The regions of a document, without the search for them.**

The survey goes through the configured names one after another, follows each occurrence to its call,
and lets a later call take a literal away from an earlier one.  What comes out can be said without
any of this: the closed strings that some call accepts, in order, each with the accepting call whose
parenthesis opens last.  One list only answers to that description, so the order in which the names
are configured is of no account.

Main definitions:

* `Region.Accepts` — a call takes a literal as query text;
* `Region.Listing` — the lists that answer to the description;
* `Detection.Rearranged` — the same settings with the same names in another order.

Main results:

* `Region.Listing.unique` — there is one such list at most;
* `Region.Complete.listing_all` — the survey yields such a list;
* `Region.survey_meets_specification` — **the survey is its description**, whatever the order of the
  names.
-/

import EmbeddedSql.Proofs.Region.Survey

set_option relaxedAutoImplicit false
set_option autoImplicit false

namespace EmbeddedSql

namespace Region

/-! ### The description -/

/-- A call contains a literal and takes it as query text. -/
structure Accepts (d : Detection) (text : Text) (l : Literal) (call : Call) : Prop where
  around : Call.Around d text l.start l.stop call
  argument : Call.acceptsArgument d call.function
    (Call.namedArgument? text l.start d.limits.argumentLookback) = true

/-- The regions in these lists are the closed strings of a document that some call accepts. -/
structure Listing (d : Detection) (doc : Document) (rs : List Region) : Prop where
  /-- They stand in document order. -/
  ordered : rs.Pairwise fun r s => doc.offsetOf r.range.stop < doc.offsetOf s.range.start
  /-- Each one is a closed string with the accepting call whose parenthesis opens last. -/
  sound : ∀ r ∈ rs, ∃ l ∈ Literal.scanAll d.marks doc.text,
    (l.kind = .string ∧ l.closed = true) ∧
      ∃ call, Accepts d doc.text l call ∧
        (∀ x, Accepts d doc.text l x → x.opening ≤ call.opening) ∧ r = regionOf d doc l call
  /-- Every closed string that a call accepts is there. -/
  complete : ∀ l ∈ Literal.scanAll d.marks doc.text, l.kind = .string ∧ l.closed = true →
    ∀ call, Accepts d doc.text l call → ∃ r ∈ rs, r.range = doc.rangeOf (l.start + 1) l.stop

theorem owns_iff {d : Detection} {text : Text} {l : Literal} {call : Call} :
    Owns d text l call ↔
      Accepts d text l call ∧ ∀ x, Accepts d text l x → x.opening ≤ call.opening := by
  constructor
  · intro h
    exact ⟨⟨h.around, h.accepts⟩, fun x hx => h.le_opening x hx.around hx.argument⟩
  · rintro ⟨h, hmax⟩
    exact ⟨h.around, h.argument, fun x hx hacc => hmax x ⟨hx, hacc⟩⟩

/-! ### One list at most -/

namespace Listing

variable {d : Detection} {doc : Document} {rs rs' : List Region}

theorem start_le_stop (h : Listing d doc rs) {r : Region} (hr : r ∈ rs) :
    doc.offsetOf r.range.start ≤ doc.offsetOf r.range.stop := by
  obtain ⟨l, hl, hstring, call, -, -, rfl⟩ := h.sound r hr
  obtain ⟨hstart, hstop⟩ := offsetOf_rangeOf hl hstring.2
  simp only [regionOf, hstart, hstop]
  exact ((Literal.scanned_scanAll d.marks doc.text).closes hl hstring).1

/-- No region is listed twice. -/
theorem nodup (h : Listing d doc rs) : rs.Nodup := by
  refine h.ordered.imp_of_mem ?_
  intro r s hr hs hlt heq
  subst heq
  have hle := h.start_le_stop hr
  omega

/-- A region of one list is a region of the other: its literal is accepted, hence listed there, and
with the same call. -/
theorem mem_of_mem (hwords : ∀ f ∈ d.functions, Call.IsWord f.toList) (h : Listing d doc rs)
    (h' : Listing d doc rs') {r : Region} (hr : r ∈ rs) : r ∈ rs' := by
  obtain ⟨l, hl, hstring, call, hacc, hmax, rfl⟩ := h.sound r hr
  obtain ⟨r', hr', hrange⟩ := h'.complete l hl hstring call hacc
  obtain ⟨l', hl', -, call', hacc', hmax', rfl⟩ := h'.sound r' hr'
  obtain rfl := eq_of_rangeOf_eq hl' hl hrange
  have hopening : call.opening = call'.opening :=
    Nat.le_antisymm (hmax' call hacc) (hmax call' hacc')
  obtain rfl := hacc.around.found.eq_of_opening_eq hwords hacc'.around.found hopening
  exact hr'

/-- **One list at most** answers to the description. -/
theorem unique (hwords : ∀ f ∈ d.functions, Call.IsWord f.toList) (h : Listing d doc rs)
    (h' : Listing d doc rs') : rs = rs' := by
  have hperm : rs.Perm rs' := by
    rw [List.perm_ext_iff_of_nodup h.nodup h'.nodup]
    intro r
    exact ⟨h.mem_of_mem hwords h', h'.mem_of_mem hwords h⟩
  refine hperm.eq_of_pairwise ?_ h.ordered h'.ordered
  intro r s hr hs hrs hsr
  have hr' := h.start_le_stop hr
  have hs' := h'.start_le_stop hs
  omega

end Listing

/-! ### The survey -/

namespace Complete

variable {d : Detection} {doc : Document} (h : Complete d doc)

include h

/-- A literal that some call accepts has an owner. -/
theorem exists_owns {l : Literal} {call : Call} (hacc : Accepts d doc.text l call) :
    ∃ owner, Owns d doc.text l owner := by
  cases hown : owner? d doc.text l (callsIn d doc.text) with
  | some owner => exact ⟨owner, h.owner?_eq_some_iff.1 hown⟩
  | none =>
      have hspec := Call.owner?_spec d doc.text l (callsIn d doc.text)
      rw [hown] at hspec
      have hnot := hspec call ((h.mem_callsIn_iff call).2 hacc.around.found)
      rw [(accepts_iff_of_found hacc.around.found).2 ⟨hacc.around, hacc.argument⟩] at hnot
      simp at hnot

/-- The survey yields a list that answers to the description. -/
theorem listing_all : Listing d doc (all d doc) where
  ordered := pairwise_all d doc
  sound := by
    intro r hr
    obtain ⟨l, hl, hstring, call, hown, hr⟩ := h.mem_all_iff.1 hr
    obtain ⟨hacc, hmax⟩ := owns_iff.1 hown
    exact ⟨l, hl, hstring, call, hacc, hmax, hr⟩
  complete := by
    intro l hl hstring call hacc
    obtain ⟨owner, hown⟩ := h.exists_owns hacc
    exact ⟨regionOf d doc l owner, h.mem_all_iff.2 ⟨l, hl, hstring, owner, hown, rfl⟩, rfl⟩

theorem eq_all_iff {rs : List Region} : rs = all d doc ↔ Listing d doc rs := by
  constructor
  · rintro rfl
    exact h.listing_all
  · intro hlisting
    exact hlisting.unique h.words h.listing_all

end Complete

end Region

/-! ### The order of the names -/

/-- The same settings with the same names in another order. -/
structure Detection.Rearranged (d d' : Detection) : Prop where
  functions : d.sqlFunctions.Perm d'.sqlFunctions
  interpolating : d.interpolatingFunctions.Perm d'.interpolatingFunctions
  parameters : d.statementParameters.Perm d'.statementParameters
  marks : d.marks = d'.marks
  limits : d.limits = d'.limits

namespace Detection.Rearranged

variable {d d' : Detection} {text : Text} {l : Literal} {call : Call}

theorem symm (h : d.Rearranged d') : d'.Rearranged d :=
  ⟨h.functions.symm, h.interpolating.symm, h.parameters.symm, h.marks.symm, h.limits.symm⟩

theorem mem_functions_iff (h : d.Rearranged d') (f : String) :
    f ∈ d.functions ↔ f ∈ d'.functions := by
  simp [Detection.functions, h.functions.mem_iff, h.interpolating.mem_iff]

theorem isInterpolating_eq (h : d.Rearranged d') (f : String) :
    d.isInterpolating f = d'.isInterpolating f := by
  simp [Detection.isInterpolating, h.interpolating.mem_iff]

theorem acceptsArgument_eq (h : d.Rearranged d') (f : String) (argument : Option Text) :
    Call.acceptsArgument d f argument = Call.acceptsArgument d' f argument := by
  cases argument with
  | none => rfl
  | some name =>
      simp [Call.acceptsArgument, h.isInterpolating_eq, h.parameters.mem_iff]

theorem found (h : d.Rearranged d') (hfound : Call.Found d text call) :
    Call.Found d' text call := by
  obtain ⟨start, hstands, hcode, hopen⟩ := hfound.exists_start
  refine ⟨(h.mem_functions_iff _).1 hfound.mem_functions, ⟨start, hstands, ?_, ?_⟩, ?_⟩
  · rw [← h.marks]
    exact hcode
  · unfold Call.openingAt? at hopen ⊢
    rw [← h.limits]
    exact hopen
  · rw [hfound.stop_eq, Call.stopOf, Call.stopOf, h.marks, h.limits]

theorem accepts (h : d.Rearranged d') (hacc : Region.Accepts d text l call) :
    Region.Accepts d' text l call := by
  refine ⟨⟨h.found hacc.around.found, hacc.around.opening_lt, hacc.around.lt_stop⟩, ?_⟩
  rw [← h.acceptsArgument_eq, ← h.limits]
  exact hacc.argument

theorem regionOf_eq (h : d.Rearranged d') (doc : Document) (l : Literal) (call : Call) :
    Region.regionOf d doc l call = Region.regionOf d' doc l call := by
  simp only [Region.regionOf, h.isInterpolating_eq, h.marks]

/-- The description does not mention the order of the names. -/
theorem listing (h : d.Rearranged d') {doc : Document} {rs : List Region}
    (hlisting : Region.Listing d doc rs) : Region.Listing d' doc rs where
  ordered := hlisting.ordered
  sound := by
    intro r hr
    obtain ⟨l, hl, hstring, call, hacc, hmax, rfl⟩ := hlisting.sound r hr
    rw [h.marks] at hl
    exact ⟨l, hl, hstring, call, h.accepts hacc, fun x hx => hmax x (h.symm.accepts hx),
      h.regionOf_eq doc l call⟩
  complete := by
    intro l hl hstring call hacc
    rw [← h.marks] at hl
    exact hlisting.complete l hl hstring call (h.symm.accepts hacc)

theorem complete (h : d.Rearranged d') {doc : Document} (hcomplete : Region.Complete d doc) :
    Region.Complete d' doc := by
  refine ⟨?_, ?_, ?_⟩
  · intro f hf
    exact hcomplete.words f ((h.mem_functions_iff f).2 hf)
  · rw [← h.limits]
    exact hcomplete.size
  · intro f hf
    have hcalls := hcomplete.calls f ((h.mem_functions_iff f).2 hf)
    rwa [Region.codeOccurrences, h.marks, h.limits] at hcalls

end Detection.Rearranged

namespace Region

/-- **The survey is its description**: no cap provided, the regions of a document are the only list
of the closed strings that some call accepts, each with the accepting call whose parenthesis opens
last and with its content as it is written.  One parenthesis belongs to one function, and the order
of the configured names is of no account. -/
theorem survey_meets_specification {d : Detection} {doc : Document} (h : Complete d doc) :
    (∀ rs, rs = all d doc ↔ Listing d doc rs) ∧ (all d doc).Nodup ∧
      (∀ r ∈ all d doc, r.raw = doc.textIn r.range) ∧
      (∀ l x y, Accepts d doc.text l x → Accepts d doc.text l y → x.opening = y.opening →
        x.function = y.function) ∧
      ∀ d', d.Rearranged d' → all d' doc = all d doc := by
  refine ⟨fun rs => h.eq_all_iff, h.listing_all.nodup, ?_, ?_, ?_⟩
  · intro r hr
    obtain ⟨l, hl, hstring, call, -, rfl⟩ := h.mem_all_iff.1 hr
    obtain ⟨hstart, hstop⟩ := offsetOf_rangeOf hl hstring.2
    simp only [Document.textIn, regionOf, hstart, hstop]
  · intro l x y hx hy hopening
    rw [hx.around.found.eq_of_opening_eq h.words hy.around.found hopening]
  · intro d' hd
    exact ((hd.complete h).eq_all_iff.2 (hd.listing h.listing_all)).symm

/-- A call that is never closed, with a call inside, a call in a comment, and two strings bound to
names, of which one carries a statement. -/
theorem survey_meets_specification_nested :
    let doc : Document := ⟨"", ("dbGetQuery(con, # sql('x')\n" ++
      "paste('a', sql('b')), statement = 'c', n = 'd'").toList, 0⟩
    let backwards : Detection := { sqlFunctions := databaseFunctions.reverse }
    let a : Region := ⟨⟨⟨1, 7⟩, ⟨1, 8⟩⟩, "dbGetQuery", false, false, ['a'], false⟩
    let b : Region := ⟨⟨⟨1, 16⟩, ⟨1, 17⟩⟩, "sql", false, false, ['b'], true⟩
    let c : Region := ⟨⟨⟨1, 35⟩, ⟨1, 36⟩⟩, "dbGetQuery", false, false, ['c'], true⟩
    Complete {} doc ∧ Listing {} doc [a, b, c] ∧ all backwards doc = all {} doc := by
  intro doc backwards a b c
  have hcomplete : Complete {} doc := by decide +kernel
  have hall : all {} doc = [a, b, c] := by decide +kernel
  obtain ⟨hlisting, -, -, -, hrearranged⟩ := survey_meets_specification hcomplete
  refine ⟨hcomplete, (hlisting _).1 hall.symm, hrearranged backwards ?_⟩
  exact ⟨(List.reverse_perm _).symm, .refl _, .refl _, rfl, rfl⟩

end Region

end EmbeddedSql
