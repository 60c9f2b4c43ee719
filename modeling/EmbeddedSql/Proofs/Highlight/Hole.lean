/-
**Highlights beside an interpolation.**

No highlight touches an interpolation, and the highlights before it do not depend on it.  Those
behind it are another matter: the lexer has read the expression as if it were SQL.  What gets
through is the residue of the text up to the closing brace.  Two expressions with the same residue
cannot be told apart from behind them, and two with different residues can.

Main definitions:

* `Highlight.HoleIn` — a literal of a document whose content has an interpolation somewhere;
* `Highlight.ahead`, `Highlight.behind` — the highlights on either side of it;
* `Highlight.Spot` — a highlight, by its distance from an offset;
* `Highlight.spotsBehind` — the highlights behind an interpolation, by what is kept of it;
* `Highlight.TellApart` — some text behind two expressions is highlighted in two ways.

Main results:

* `Highlight.HoleIn.ahead_eq`, `Highlight.HoleIn.behind_eq` — what the highlights depend on;
* `Highlight.exists_probe` — every two residues can be told apart;
* `Highlight.interpolation_leaks_residue` — **only the residue of an interpolation is seen behind
  it**, and all of it.
-/

import EmbeddedSql.Proofs.Highlight.Residue

set_option relaxedAutoImplicit false
set_option autoImplicit false

namespace EmbeddedSql.Highlight

open Interpolation Text

/-! ### An interpolation in a document -/

/-- The content of a literal up to the end of an interpolation. -/
def upTo (x e : Text) : Text :=
  x ++ '{' :: (e ++ ['}'])

/-- A literal of a document is an interpolating query with a complete interpolation in it: `x`
stands before the interpolation, `e` is its expression and `y` stands behind it. -/
structure HoleIn (doc : Document) (l : Literal) (r : Region) (x e y : Text) : Prop
    extends Region.Covered doc l r where
  interpolating : r.interpolating = true
  content_eq : r.raw = upTo x e ++ y
  complete : ((Escape.decode x).length, (Escape.decode (upTo x e)).length) ∈
    spans (Escape.decode r.raw)

theorem length_upTo (x e : Text) : (upTo x e).length = x.length + e.length + 2 := by
  simp only [upTo, List.length_append, List.length_cons, List.length_nil]
  omega

/-- The text behind an interpolation is decoded on its own. -/
theorem units_upTo_append (x e y : Text) :
    Escape.units (upTo x e ++ y) = Escape.units (upTo x e) ++ Escape.units y := by
  have hbrace : Escape.meaning? '}' = none := by decide
  have hslash : '}' ≠ '\\' := by decide
  have hcut : upTo x e = (x ++ '{' :: e) ++ ['}'] := by simp [upTo]
  have hleft : upTo x e ++ y = (x ++ '{' :: e) ++ '}' :: y := by simp [hcut]
  rw [hleft, hcut, Escape.units_append hbrace, Escape.units_append hbrace,
    Escape.units_cons hslash, Escape.units_cons hslash, List.append_assoc]
  rfl

/-- The text before an interpolation is decoded on its own. -/
theorem units_append_brace (x v : Text) :
    Escape.units (x ++ '{' :: v) = Escape.units x ++ Escape.units ('{' :: v) :=
  Escape.units_append (by decide) x v

theorem decode_brace (c : Char) (hc : c ≠ '\\') (v : Text) :
    Escape.decode (c :: v) = c :: Escape.decode v := by
  rw [Escape.decode, Escape.units_cons hc, List.map_cons]
  rfl

theorem decode_upTo (x e : Text) :
    Escape.decode (upTo x e) = upTo (Escape.decode x) (Escape.decode e) := by
  have hclose : Escape.units (e ++ ['}']) = Escape.units e ++ Escape.units ['}'] :=
    Escape.units_append (by decide) e []
  rw [upTo, Escape.decode_append (units_append_brace x _), decode_brace '{' (by decide),
    Escape.decode_append hclose, decode_brace '}' (by decide)]
  rfl

theorem length_decode_lt (x e : Text) :
    (Escape.decode x).length < (Escape.decode (upTo x e)).length := by
  rw [decode_upTo, length_upTo]
  omega

theorem endsInBrace_upTo (x e : Text) : Token.EndsInBrace (upTo x e) :=
  Or.inr (by simp [upTo, List.getLast?_append, List.getLast?_cons])

/-- A literal with text around it in the document. -/
theorem HoleIn.of_text {doc : Document} {l : Literal} {r : Region} {x e y pre post : Text}
    (htext : doc.text = pre ++ (upTo x e ++ y ++ post)) (hpost : post ≠ [])
    (hstart : pre.length = l.start + 1) (hstop : l.stop = l.start + 1 + (upTo x e ++ y).length)
    (hrange : r.range = doc.rangeOf (l.start + 1) l.stop) (hinterpolating : r.interpolating = true)
    (hraw : r.raw = upTo x e ++ y)
    (hhole : HoleAt .sql (Escape.decode (upTo x e)) (Escape.decode x).length
      (Escape.decode (upTo x e)).length) : HoleIn doc l r x e y := by
  have hle : l.start + 1 ≤ l.stop := hstop ▸ Nat.le_add_right _ _
  have hlt : l.stop < doc.text.length := by
    have hpost := List.length_pos_iff.2 hpost
    rw [htext, List.length_append, List.length_append, hstart]
    omega
  refine ⟨⟨?_, ?_, hle, hlt, hrange, ?_⟩, hinterpolating, hraw, ?_⟩
  · rw [hrange]
    exact doc.offsetOf_positionOf (by omega)
  · rw [hrange]
    exact doc.offsetOf_positionOf (Nat.le_of_lt hlt)
  · rw [hraw, Text.slice, htext, hstop, ← hstart, List.drop_left, Nat.add_sub_cancel_left,
      List.take_left]
  · rw [hraw, Escape.decode_append (units_upTo_append x e y), mem_spans_iff,
      holeAt_append_left (Nat.le_refl _)]
    exact hhole

namespace HoleIn

variable {doc : Document} {l : Literal} {r : Region} {x e y : Text} (h : HoleIn doc l r x e y)

include h

theorem decode_eq : Escape.decode r.raw =
    upTo (Escape.decode x) (Escape.decode e) ++ Escape.decode y := by
  rw [h.content_eq, Escape.decode_append (units_upTo_append x e y), decode_upTo]

theorem skippedIn_eq : skippedIn r = spans (Escape.decode r.raw) :=
  if_pos h.interpolating

theorem holeAt : HoleAt .sql (upTo (Escape.decode x) (Escape.decode e) ++ Escape.decode y)
    (Escape.decode x).length (upTo (Escape.decode x) (Escape.decode e)).length := by
  have hmem := h.complete
  rw [h.decode_eq, decode_upTo] at hmem
  exact mem_spans_iff.1 hmem

/-- The mode behind the interpolation depends on the text before it only. -/
theorem run_eq : Mode.sql.run (upTo (Escape.decode x) (Escape.decode e)) =
    Mode.resume (Mode.sql.run (Escape.decode x)).enclosing := by
  have hrun := h.holeAt.run_eq
  rw [List.take_left] at hrun
  rw [hrun, upTo, List.append_assoc, List.take_left]

theorem isHole_eq :
    (Mode.sql.run (upTo (Escape.decode x) (Escape.decode e))).isHole = false := by
  have hbehind := h.holeAt.behind
  rwa [List.take_left] at hbehind

/-- Other content behind the interpolation, in a document that starts with the same text. -/
theorem exchange (z : Text) : ∃ doc₁ l₁ r₁, HoleIn doc₁ l₁ r₁ x e z ∧ l₁.start = l.start ∧
    doc₁.text.take (l.start + 1) = doc.text.take (l.start + 1) := by
  have hstart := h.start_le
  have hstop := h.lt_length
  have hpre : (doc.text.take (l.start + 1)).length = l.start + 1 := by
    rw [List.length_take]
    omega
  have hpost : doc.text.drop l.stop ≠ [] := by
    refine List.ne_nil_of_length_pos ?_
    rw [List.length_drop]
    omega
  have hhole := h.holeAt
  rw [holeAt_append_left (Nat.le_refl _), ← decode_upTo] at hhole
  obtain ⟨doc₁, htext⟩ : ∃ doc₁ : Document, doc₁.text =
      doc.text.take (l.start + 1) ++ (upTo x e ++ z ++ doc.text.drop l.stop) :=
    ⟨⟨doc.uri, _, doc.version⟩, rfl⟩
  let stop := l.start + 1 + (upTo x e ++ z).length
  let range := doc₁.rangeOf (l.start + 1) stop
  refine ⟨doc₁, { l with stop := stop }, { r with raw := upTo x e ++ z, range := range },
    HoleIn.of_text htext hpost hpre rfl rfl h.interpolating rfl hhole, rfl, ?_⟩
  have htake := congrArg (List.take (doc.text.take (l.start + 1)).length) htext
  rwa [List.take_left, hpre] at htake

end HoleIn

/-! ### Where highlights stand -/

/-- The offset of a highlight. -/
def place (doc : Document) (h : Highlight) : Nat :=
  doc.offsetOf ⟨h.line, h.offset⟩

theorem At.place_eq {doc : Document} {h : Highlight} {offset : Nat} (hat : At doc h offset) :
    place doc h = offset := by
  rw [place, ← hat.position_eq]
  exact doc.offsetOf_positionOf (Nat.le_of_lt hat.lt_length)

/-- The highlights of a region that end at an offset or before it. -/
def ahead (doc : Document) (r : Region) (offset : Nat) : List Highlight :=
  (ofRegion doc.lines r).filter fun h => place doc h + h.text.length ≤ offset

/-- The highlights of a region that start at an offset or behind it. -/
def behind (doc : Document) (r : Region) (offset : Nat) : List Highlight :=
  (ofRegion doc.lines r).filter fun h => offset ≤ place doc h

/-- A highlight by its distance from an offset. -/
structure Spot where
  distance : Nat
  text : Text
  type : String
  modifiers : List Nat
  deriving Repr, DecidableEq

/-- How a highlight is seen from an offset before it. -/
def spot (doc : Document) (offset : Nat) (h : Highlight) : Spot :=
  ⟨place doc h - offset, h.text, h.type, h.modifiers⟩

/-- The highlights of a token with a type. -/
def ofTyped (ls : List Text) (r : Region) (x : Token × String) : List Highlight :=
  ofLines (Document.advanceIn ls r.range.start (Escape.offsetAt r.raw x.1.offset))
    (Escape.extent r.raw x.1.offset x.1.stop) x.2 (modifiersOf x.2 x.1.text)

theorem ofRegion_eq_typed (ls : List Text) (r : Region) :
    ofRegion ls r = (typed (skippedIn r) ""
      (Token.lex Vocabulary.keywords (Escape.decode r.raw))).flatMap (ofTyped ls r) := by
  rw [ofRegion_eq, typed, List.flatMap_map]
  rfl

/-- The highlights of a token, seen from where its text starts. -/
def spotsOf (raw : Text) (x : Token × String) : List Spot :=
  (lines (Escape.extent raw x.1.offset x.1.stop)).zipIdx.filterMap fun p =>
    if p.1.isEmpty then none
    else some ⟨Escape.offsetAt raw x.1.offset +
      (linesBefore (lines (Escape.extent raw x.1.offset x.1.stop)) p.2).length, p.1, x.2,
      modifiersOf x.2 x.1.text⟩

/-- A selection by results is a selection by what they come from. -/
theorem filter_flatMap_eq {α β : Type} {f : α → List β} {p : β → Bool} {q : α → Bool} {xs : List α}
    (h : ∀ x ∈ xs, ∀ y ∈ f x, p y = q x) : (xs.flatMap f).filter p = (xs.filter q).flatMap f := by
  induction xs with
  | nil => rfl
  | cons x xs ih =>
      obtain ⟨hx, hxs⟩ := List.forall_mem_cons.1 h
      rw [List.flatMap_cons, List.filter_append, ih hxs, List.filter_cons]
      cases hq : q x with
      | true =>
          rw [List.filter_eq_self.2 fun y hy => (hx y hy).trans hq, if_pos rfl, List.flatMap_cons]
      | false =>
          have hnone : ∀ y ∈ f x, ¬ p y = true := by
            intro y hy
            rw [hx y hy, hq]
            simp
          rw [List.filter_eq_nil_iff.2 hnone, List.nil_append, if_neg (by simp)]

section Covered

variable {doc : Document} {l : Literal} {r : Region} (hr : Region.Covered doc l r)
  {t : Token × String} {g : Highlight}

include hr

theorem exists_of_mem_ofTyped (hg : g ∈ ofTyped doc.lines r t) : ∃ k, Of doc r t.1 k g := by
  obtain ⟨k, piece, hpiece, hne, rfl⟩ := mem_ofLines_iff.1 hg
  exact ⟨k, of_line hr hpiece hne _ _⟩

/-- A highlight lies between the raw offsets of its token. -/
theorem place_of_mem_ofTyped (hg : g ∈ ofTyped doc.lines r t) :
    l.start + 1 + Escape.offsetAt r.raw t.1.offset ≤ place doc g ∧
      place doc g + g.text.length ≤ l.start + 1 + Escape.offsetAt r.raw t.1.stop := by
  obtain ⟨k, hof⟩ := exists_of_mem_ofTyped hr hg
  have hwithin := hof.within
  rw [hof.at_offset.place_eq, hr.start_eq]
  omega

end Covered

namespace HoleIn

variable {doc : Document} {l : Literal} {r : Region} {x e y : Text} (h : HoleIn doc l r x e y)

include h

theorem content_eq_brace : r.raw = x ++ '{' :: (e ++ '}' :: y) := by
  rw [h.content_eq, upTo]
  simp

theorem offsetAt_before {i : Nat} (hi : i ≤ (Escape.decode x).length) :
    Escape.offsetAt r.raw i = Escape.offsetAt x i := by
  rw [h.content_eq_brace, Escape.offsetAt_append_left (units_append_brace x _) hi]

theorem extent_before {lo hi : Nat} (hle : lo ≤ hi) (hhi : hi ≤ (Escape.decode x).length) :
    Escape.extent r.raw lo hi = Escape.extent x lo hi := by
  rw [h.content_eq_brace, Escape.extent_append_left (units_append_brace x _) hle hhi]

theorem offsetAt_behind (i : Nat) :
    Escape.offsetAt r.raw ((Escape.decode (upTo x e)).length + i) =
      (upTo x e).length + Escape.offsetAt y i := by
  rw [h.content_eq, Escape.offsetAt_append_right (units_upTo_append x e y)]

theorem extent_behind (lo hi : Nat) :
    Escape.extent r.raw ((Escape.decode (upTo x e)).length + lo)
      ((Escape.decode (upTo x e)).length + hi) = Escape.extent y lo hi := by
  rw [h.content_eq, Escape.extent_append_right (units_upTo_append x e y)]

/-- No token with a highlight touches the interpolation, and neither does a highlight. -/
theorem apart {t : Token × String}
    (ht : t ∈ typed (skippedIn r) "" (Token.lex Vocabulary.keywords (Escape.decode r.raw))) :
    t.1.stop ≤ (Escape.decode x).length ∧
        (∀ g ∈ ofTyped doc.lines r t, place doc g + g.text.length ≤ l.start + 1 + x.length) ∨
      (Escape.decode (upTo x e)).length ≤ t.1.offset ∧
        (∀ g ∈ ofTyped doc.lines r t, l.start + 1 + (upTo x e).length ≤ place doc g) := by
  have hskip := (of_mem_typed ht).2
  rw [h.skippedIn_eq, ← Bool.not_eq_true, touches_iff] at hskip
  have hnot : ¬ ((Escape.decode x).length < t.1.stop ∧
      t.1.offset < (Escape.decode (upTo x e)).length) :=
    fun hboth => hskip ⟨_, _, h.complete, hboth⟩
  by_cases hstop : t.1.stop ≤ (Escape.decode x).length
  · refine Or.inl ⟨hstop, fun g hg => ?_⟩
    have hplace := (place_of_mem_ofTyped h.toCovered hg).2
    have hle := Escape.offsetAt_le_length x t.1.stop
    rw [h.offsetAt_before hstop] at hplace
    omega
  · have hoffset : (Escape.decode (upTo x e)).length ≤ t.1.offset := by omega
    refine Or.inr ⟨hoffset, fun g hg => ?_⟩
    have hplace := (place_of_mem_ofTyped h.toCovered hg).1
    obtain ⟨i, hi⟩ := Nat.exists_eq_add_of_le hoffset
    rw [hi, h.offsetAt_behind] at hplace
    omega

/-- The highlights before an interpolation depend on the text before it. -/
theorem ahead_eq : ahead doc r (l.start + 1 + x.length) =
    (tokensBefore (Escape.decode x)).flatMap (ofTyped doc.lines r) := by
  have hlt := length_decode_lt x e
  have hhole := h.holeAt
  have htext : Escape.decode r.raw = Escape.decode x ++
      '{' :: (Escape.decode e ++ '}' :: Escape.decode y) := by
    rw [h.decode_eq, upTo]
    simp
  rw [← h.decode_eq, htext] at hhole
  rw [← filter_stop_le hhole, ← htext, ahead, ofRegion_eq_typed, h.skippedIn_eq]
  refine filter_flatMap_eq fun t ht g hg => ?_
  rw [decide_eq_decide]
  rcases h.apart (h.skippedIn_eq ▸ ht) with ⟨hstop, hplace⟩ | ⟨hoffset, hplace⟩
  · exact iff_of_true (hplace g hg) hstop
  · have hle : t.1.offset ≤ t.1.stop := Nat.le_add_right _ _
    have hg := hplace g hg
    rw [length_upTo] at hg
    exact iff_of_false (by omega) (by omega)

/-- The highlights behind an interpolation come from the tokens behind it. -/
theorem behind_eq : behind doc r (l.start + 1 + (upTo x e).length) =
    ((tokensBehind (Mode.resume (Mode.sql.run (Escape.decode x)).enclosing)
      (residue (Escape.decode (upTo x e))) (Escape.decode y)).map fun t =>
        (t.1.shift (Escape.decode (upTo x e)).length, t.2)).flatMap (ofTyped doc.lines r) := by
  have hlt := length_decode_lt x e
  have htokens := filter_le_offset (endsInBrace_upTo _ _) h.isHole_eq (Escape.decode y)
  rw [h.run_eq, ← h.decode_eq, ← decode_upTo] at htokens
  rw [← htokens, behind, ofRegion_eq_typed, h.skippedIn_eq]
  refine filter_flatMap_eq fun t ht g hg => ?_
  rw [decide_eq_decide]
  rcases h.apart (h.skippedIn_eq ▸ ht) with ⟨hstop, hplace⟩ | ⟨hoffset, hplace⟩
  · have hle : t.1.offset ≤ t.1.stop := Nat.le_add_right _ _
    have hg := hplace g hg
    rw [length_upTo]
    exact iff_of_false (by omega) (by omega)
  · exact iff_of_true (hplace g hg) hoffset

/-- A token behind the interpolation is seen as if its text started there. -/
theorem map_spot_ofTyped (t : Token × String) :
    (ofTyped doc.lines r (t.1.shift (Escape.decode (upTo x e)).length, t.2)).map
      (spot doc (l.start + 1 + (upTo x e).length)) = spotsOf y t := by
  have hextent := h.extent_behind t.1.offset t.1.stop
  rw [← Token.shift_offset, ← Token.shift_stop] at hextent
  have hdistance : ∀ {k g}, Of doc r (t.1.shift (Escape.decode (upTo x e)).length) k g →
      place doc g - (l.start + 1 + (upTo x e).length) = Escape.offsetAt y t.1.offset +
        (linesBefore (lines (Escape.extent y t.1.offset t.1.stop)) k).length := by
    intro k g hof
    rw [hof.at_offset.place_eq, h.start_eq, hextent, Token.shift_offset, h.offsetAt_behind]
    omega
  rw [ofTyped, ofLines, spotsOf, List.map_filterMap, hextent]
  refine List.filterMap_congr fun p hp => ?_
  have hpiece := List.mem_zipIdx_iff_getElem?.1 hp
  cases hempty : p.1.isEmpty with
  | true => rfl
  | false =>
      have hne : p.1 ≠ [] := by simpa using hempty
      have hof := of_line h.toCovered (hextent ▸ hpiece) hne t.2 (modifiersOf t.2 t.1.text)
      exact congrArg (fun n => some (⟨n, p.1, t.2, modifiersOf t.2 t.1.text⟩ : Spot))
        (hdistance hof)

end HoleIn

/-! ### What is seen behind an interpolation -/

/-- The highlights behind an interpolation, by the mode behind it, its residue and the text behind
it. -/
def spotsBehind (m : Mode) (ρ : Residue) (y : Text) : List Spot :=
  (tokensBehind m ρ (Escape.decode y)).flatMap (spotsOf y)

theorem HoleIn.map_spot_behind {doc : Document} {l : Literal} {r : Region} {x e y : Text}
    (h : HoleIn doc l r x e y) :
    (behind doc r (l.start + 1 + (upTo x e).length)).map
        (spot doc (l.start + 1 + (upTo x e).length)) =
      spotsBehind (Mode.resume (Mode.sql.run (Escape.decode x)).enclosing)
        (residue (Escape.decode (upTo x e))) y := by
  rw [h.behind_eq, List.map_flatMap, List.flatMap_map]
  exact List.flatMap_congr fun t _ => h.map_spot_ofTyped t

/-- Texts without braces that tell residues apart: a number or a name, alone, behind a line break,
or behind a quote. -/
def probes : List Text :=
  [" 1", "\n1", "\\' 1", " a", "\na", "\\' a", "\\\" a"].map String.toList

/-- Every two residues can be told apart. -/
theorem exists_probe : ∀ ρ ∈ Residue.all, ∀ ρ' ∈ Residue.all, ρ ≠ ρ' →
    ∃ z ∈ probes, '{' ∉ Escape.decode z ∧ spotsBehind .sql ρ z ≠ spotsBehind .sql ρ' z := by
  decide +kernel

/-- Where nothing is left out, the mode behind an interpolation does not matter. -/
theorem spotsBehind_of_not_mem {m : Mode} (hm : m.isHole = false) (ρ : Residue) {y : Text}
    (hy : '{' ∉ Escape.decode y) : spotsBehind m ρ y = spotsBehind .sql ρ y := by
  rw [spotsBehind, spotsBehind, tokensBehind, tokensBehind, spansIn_eq_nil hm hy,
    spansIn_eq_nil rfl hy]

/-- The highlights behind an interpolation as they are seen from there. -/
def seenBehind (doc : Document) (l : Literal) (r : Region) (x e : Text) : List Spot :=
  (behind doc r (l.start + 1 + (upTo x e).length)).map
    (spot doc (l.start + 1 + (upTo x e).length))

/-- The same text behind two expressions is highlighted in two ways, in documents that start with
`pre`. -/
def TellApart (pre x a b : Text) : Prop :=
  ∃ z doc l r doc' l' r', HoleIn doc l r x a z ∧ HoleIn doc' l' r' x b z ∧
    doc.text.take (l.start + 1) = pre ∧ doc'.text.take (l'.start + 1) = pre ∧
    seenBehind doc l r x a ≠ seenBehind doc' l' r' x b

section Two

variable {doc doc' : Document} {l l' : Literal} {r r' : Region} {x a b y y' : Text}
  (h : HoleIn doc l r x a y) (h' : HoleIn doc' l' r' x b y')
  (hsame : doc.text.take (l.start + 1) = doc'.text.take (l'.start + 1))

include h

/-- The text of the document up to the interpolation. -/
theorem HoleIn.starts_with : doc.text.take (l.start + 1) ++ x <+: doc.text := by
  have hraw : r.raw <+: doc.text.drop (l.start + 1) := by
    rw [h.raw_eq]
    exact List.take_prefix _ _
  have hx : x <+: r.raw := by
    rw [h.content_eq_brace]
    exact List.prefix_append _ _
  conv => rhs; rw [← List.take_append_drop (l.start + 1) doc.text]
  exact (List.prefix_append_right_inj _).2 (hx.trans hraw)

theorem HoleIn.length_take : (doc.text.take (l.start + 1)).length = l.start + 1 := by
  have hle := h.start_le
  have hlt := h.lt_length
  rw [List.length_take]
  omega

include h' hsame

theorem HoleIn.start_unique : l.start = l'.start := by
  have hlength := congrArg List.length hsame
  rw [h.length_take, h'.length_take] at hlength
  omega

/-- Tokens before the interpolation have the same highlights in both documents. -/
theorem ofTyped_congr {t : Token × String} (ht : t.1.stop ≤ (Escape.decode x).length) :
    ofTyped doc.lines r t = ofTyped doc'.lines r' t := by
  have hle : t.1.offset ≤ t.1.stop := Nat.le_add_right _ _
  have hoffset := Escape.offsetAt_le_length x t.1.offset
  have hlength := h.length_take
  have hprefix' := h'.starts_with
  rw [← hsame] at hprefix'
  have hposition : doc.positionOf (l.start + 1 + Escape.offsetAt x t.1.offset) =
      doc'.positionOf (l.start + 1 + Escape.offsetAt x t.1.offset) :=
    Document.positionOf_congr h.starts_with hprefix' (by rw [List.length_append]; omega)
  rw [ofTyped, ofTyped, h.toCovered.advanceIn_offsetAt, h'.toCovered.advanceIn_offsetAt,
    h.offsetAt_before (by omega), h'.offsetAt_before (by omega), h.extent_before hle ht,
    h'.extent_before hle ht, h.start_eq, h'.start_eq, ← h.start_unique h' hsame, hposition]

end Two

/-- **Only the residue of an interpolation is seen behind it**, and all of it.  No highlight touches
the interpolation, and those before it do not depend on the expression.  The highlights behind it
are the same for expressions with the same residue; other expressions are told apart by some text
behind them. -/
theorem interpolation_leaks_residue {doc doc' : Document} {l l' : Literal} {r r' : Region}
    {x a b y : Text} (h : HoleIn doc l r x a y) (h' : HoleIn doc' l' r' x b y)
    (hsame : doc.text.take (l.start + 1) = doc'.text.take (l'.start + 1)) :
    (∀ g ∈ ofRegion doc.lines r, g ∈ ahead doc r (l.start + 1 + x.length) ∨
      g ∈ behind doc r (l.start + 1 + (upTo x a).length)) ∧
    ahead doc r (l.start + 1 + x.length) = ahead doc' r' (l'.start + 1 + x.length) ∧
    (residue (Escape.decode (upTo x a)) = residue (Escape.decode (upTo x b)) →
      seenBehind doc l r x a = seenBehind doc' l' r' x b) ∧
    (residue (Escape.decode (upTo x a)) ≠ residue (Escape.decode (upTo x b)) →
      TellApart (doc.text.take (l.start + 1)) x a b) := by
  refine ⟨?_, ?_, ?_, ?_⟩
  · intro g hg
    have hmem := hg
    rw [ofRegion_eq_typed] at hmem
    obtain ⟨t, ht, hgt⟩ := List.mem_flatMap.1 hmem
    rcases h.apart ht with ⟨-, hplace⟩ | ⟨-, hplace⟩
    · exact Or.inl (List.mem_filter.2 ⟨hg, by simpa using hplace g hgt⟩)
    · exact Or.inr (List.mem_filter.2 ⟨hg, by simpa using hplace g hgt⟩)
  · rw [h.ahead_eq, h'.ahead_eq]
    exact List.flatMap_congr fun t ht =>
      ofTyped_congr h h' hsame (stop_le_of_mem_tokensBefore ht)
  · intro hresidue
    rw [seenBehind, seenBehind, h.map_spot_behind, h'.map_spot_behind, hresidue]
  · intro hresidue
    have hmem : ∀ e, residue (Escape.decode (upTo x e)) ∈ Residue.all := by
      intro e
      rw [decode_upTo]
      exact residue_mem_all (endsInBrace_upTo _ _)
    obtain ⟨z, -, hz, hspots⟩ := exists_probe _ (hmem a) _ (hmem b) hresidue
    obtain ⟨doc₁, l₁, r₁, h₁, hstart₁, hpre₁⟩ := h.exchange z
    obtain ⟨doc₂, l₂, r₂, h₂, hstart₂, hpre₂⟩ := h'.exchange z
    have hm : (Mode.resume (Mode.sql.run (Escape.decode x)).enclosing).isHole = false := by
      rw [← h.run_eq]
      exact h.isHole_eq
    refine ⟨z, doc₁, l₁, r₁, doc₂, l₂, r₂, h₁, h₂, ?_, ?_, ?_⟩
    · rw [hstart₁, hpre₁]
    · rw [hstart₂, hpre₂, hsame]
    · rwa [seenBehind, seenBehind, h₁.map_spot_behind, h₂.map_spot_behind,
        spotsBehind_of_not_mem hm _ hz, spotsBehind_of_not_mem hm _ hz]

/-- A name that is a keyword of SQL, in an interpolation, makes a table of the column behind it. -/
theorem interpolation_leaks_residue_keyword :
    let x : Text := "select ".toList
    let y : Text := " x".toList
    let doc : Text → Document := fun e =>
      ⟨"", "glue_sql(\"".toList ++ (upTo x e ++ y ++ "\", .con = con)".toList), 0⟩
    let l : Text → Literal := fun e => ⟨.string, 9, 10 + (upTo x e ++ y).length, '"', true⟩
    let r : Text → Region := fun e =>
      ⟨⟨⟨0, 10⟩, ⟨0, 10 + (upTo x e ++ y).length⟩⟩, "glue_sql", false, true, upTo x e ++ y, true⟩
    let a : Text := "from".toList
    let b : Text := "y".toList
    (∀ e ∈ [a, b], Region.all {} (doc e) = [r e] ∧ HoleIn (doc e) (l e) (r e) x e y) ∧
      ahead (doc a) (r a) 17 = ahead (doc b) (r b) 17 ∧
      seenBehind (doc a) (l a) (r a) x a = [⟨1, ['x'], "class", []⟩] ∧
      seenBehind (doc b) (l b) (r b) x b = [⟨1, ['x'], "variable", []⟩] ∧
      TellApart "glue_sql(\"".toList x a b := by
  intro x y doc l r a b
  have hall : ∀ e ∈ [a, b], Region.all {} (doc e) = [r e] := by decide +kernel
  have hin : ∀ e ∈ [a, b], HoleIn (doc e) (l e) (r e) x e y := by
    intro e he
    have hrange : ∀ e ∈ [a, b], (r e).range = (doc e).rangeOf 10 (l e).stop := by decide +kernel
    have hhole : ∀ e ∈ [a, b], ((Escape.decode x).length, (Escape.decode (upTo x e)).length) ∈
        spans (Escape.decode (upTo x e)) := by decide +kernel
    exact .of_text rfl (by decide) rfl rfl (hrange e he) rfl rfl (mem_spans_iff.1 (hhole e he))
  have hresidue : residue (Escape.decode (upTo x a)) ≠ residue (Escape.decode (upTo x b)) := by
    decide +kernel
  obtain ⟨-, hahead, -, happart⟩ :=
    interpolation_leaks_residue (hin a (by simp)) (hin b (by simp)) rfl
  exact ⟨fun e he => ⟨hall e he, hin e he⟩, hahead, by decide +kernel, by decide +kernel,
    happart hresidue⟩

end EmbeddedSql.Highlight
