/-
**Direct arguments.**

A region is marked as a direct argument if the brackets between the parenthesis of its call and the
literal add up to zero.  Where these brackets begin a well-nested text, this means that none of them
is still open at the literal.

The brackets that are added up are those outside of the literals that start behind the parenthesis.
They are the brackets of the code, provided the parenthesis itself stands in code.  It does for
names that hold no mark.  Behind a name with a quote in it, which starts in code and ends in a
string, the parenthesis stands in a string, and the brackets of this string count.

Main definitions:

* `Region.OwnedBy` — a region with its literal and the call it belongs to;
* `Region.bracketsInCode` — the brackets of the code between two offsets;
* `Region.bracketsSeen` — the brackets that the survey counts.

Main results:

* `Region.isDirect_iff` — the mark in terms of the brackets that are counted;
* `Region.bracketsSeen_eq` — behind a parenthesis in code these are the brackets of the code;
* `Region.direct_iff_nothing_open` — **a region is direct if nothing is open** around its literal.
-/

import EmbeddedSql.Proofs.Bracket.Nesting
import EmbeddedSql.Proofs.Region.Comments

set_option relaxedAutoImplicit false
set_option autoImplicit false

namespace EmbeddedSql.Region

open Literal

/-! ### Brackets before a literal -/

/-- The brackets of the code between two offsets. -/
def bracketsInCode (m : Marks) (text : Text) (lo hi : Nat) : Text :=
  Bracket.bracketsOutside (scanAll m text) lo (text.slice lo hi)

/-- The brackets between a parenthesis and a literal that the survey counts: those outside of the
literals that start behind the parenthesis. -/
def bracketsSeen (m : Marks) (text : Text) (opening start : Nat) : Text :=
  Bracket.bracketsOutside ((scanAll m text).dropWhile (·.start ≤ opening)) (opening + 1)
    (text.slice (opening + 1) start)

/-- The literals that are left when those up to an offset are dropped start behind it. -/
theorem lt_start_of_mem_dropWhile {ls : List Literal}
    (hls : ls.Pairwise fun a b => a.start < b.start) {offset : Nat} {l : Literal}
    (hl : l ∈ ls.dropWhile (·.start ≤ offset)) : offset < l.start := by
  induction ls with
  | nil => simp at hl
  | cons x ls ih =>
      obtain ⟨hlater, hls⟩ := List.pairwise_cons.1 hls
      by_cases hx : x.start ≤ offset
      · rw [List.dropWhile_cons_of_pos (by simpa using hx)] at hl
        exact ih hls hl
      · rw [List.dropWhile_cons_of_neg (by simpa using hx)] at hl
        rcases List.mem_cons.1 hl with rfl | hl
        · omega
        · have hlt := hlater l hl
          omega

section

variable {m : Marks} {text : Text} {opening : Nat}

/-- The mark of a region in terms of the brackets that are counted. -/
theorem isDirect_iff (start : Nat) :
    isDirect text (scanAll m text) opening start = true ↔
      Bracket.depth (bracketsSeen m text opening start) = 0 := by
  have hscan := scanned_scanAll m text
  have hsub := List.dropWhile_sublist (l := scanAll m text) (fun l => decide (l.start ≤ opening))
  have hle : ∀ l ∈ (scanAll m text).dropWhile (·.start ≤ opening), l.start ≤ l.stop :=
    fun l hl => (hscan.within (hsub.subset hl)).start_le
  have hstarts : (scanAll m text).Pairwise fun a b => a.start < b.start := by
    refine hscan.pairwise.imp_of_mem fun ha _ hab => ?_
    exact Nat.lt_of_le_of_lt (hscan.within ha).start_le hab.2
  have hbehind : ∀ l ∈ (scanAll m text).dropWhile (·.start ≤ opening), opening + 1 ≤ l.stop :=
    fun l hl => Nat.le_trans (lt_start_of_mem_dropWhile hstarts hl) (hle l hl)
  have hdepth := Bracket.netDepth_eq_depth ((hscan.pairwise.imp And.right).sublist hsub) hle hbehind
    (text.slice (opening + 1) start)
  rw [isDirect, hdepth, beq_iff_eq, bracketsSeen]

/-- Behind a parenthesis in code the brackets that are counted are those of the code. -/
theorem bracketsSeen_eq (hcode : InCode (scanAll m text) opening) (start : Nat) :
    bracketsSeen m text opening start = bracketsInCode m text (opening + 1) start := by
  refine Bracket.bracketsOutside_congr (fun offset hoffset => ?_) _
  have hsub := List.dropWhile_sublist (l := scanAll m text) (fun l => decide (l.start ≤ opening))
  refine ⟨fun h l hl => ?_, fun h l hl => h l (hsub.subset hl)⟩
  rw [← List.takeWhile_append_dropWhile (p := fun l : Literal => decide (l.start ≤ opening))
    (l := scanAll m text), List.mem_append] at hl
  rcases hl with hl | hl
  · -- a literal that starts before the parenthesis ends before it
    have hle := of_decide_eq_true (List.all_eq_true.1 List.all_takeWhile l hl)
    have hnot := hcode l ((List.takeWhile_sublist _).subset hl)
    omega
  · exact h l hl

end

/-! ### Regions and their calls -/

/-- A region with its literal and the call it belongs to: of the calls that accept the literal,
none opens later. -/
structure OwnedBy (d : Detection) (doc : Document) (r : Region) (l : Literal) (call : Call) :
    Prop where
  mem_literals : l ∈ scanAll d.marks doc.text
  string : l.kind = .string ∧ l.closed = true
  range_eq : r.range = doc.rangeOf (l.start + 1) l.stop
  mem_calls : call ∈ callsIn d doc.text
  accepts : Region.accepts d doc.text l call = true
  le_opening : ∀ x ∈ callsIn d doc.text, Region.accepts d doc.text l x = true →
    x.opening ≤ call.opening

variable {d : Detection} {doc : Document} {r : Region}

/-- Every region belongs to a call. -/
theorem exists_ownedBy (hr : r ∈ all d doc) :
    ∃ l call, OwnedBy d doc r l call ∧ r = regionOf d doc l call := by
  have hsize : doc.text.length ≤ d.limits.documentSize := by
    by_contra hsize
    rw [all_eq_nil (Nat.lt_of_not_le hsize)] at hr
    simp at hr
  rw [all_eq hsize] at hr
  obtain ⟨l, hl, hr⟩ := List.mem_filterMap.1 hr
  unfold ofLiteral? at hr
  split at hr
  · next hstring =>
      obtain ⟨call, hown, rfl⟩ := Option.map_eq_some_iff.1 hr
      have hspec := Call.owner?_spec d doc.text l (callsIn d doc.text)
      rw [hown] at hspec
      obtain ⟨hmem, hacc, hmax⟩ := hspec
      exact ⟨l, call, ⟨hl, by simpa using hstring, rfl, hmem, hacc, hmax⟩, rfl⟩
  · simp at hr

/-- The only call that is followed owns what it accepts. -/
theorem OwnedBy.of_callsIn_eq {l : Literal} {call : Call}
    (hl : l ∈ scanAll d.marks doc.text) (hstring : l.kind = .string ∧ l.closed = true)
    (hrange : r.range = doc.rangeOf (l.start + 1) l.stop) (hcalls : callsIn d doc.text = [call])
    (hacc : Region.accepts d doc.text l call = true) : OwnedBy d doc r l call := by
  refine ⟨hl, hstring, hrange, by simp [hcalls], hacc, fun x hx _ => ?_⟩
  rw [hcalls, List.mem_singleton] at hx
  exact Nat.le_of_eq (congrArg Call.opening hx)

/-- Calls that a region belongs to open at the same parenthesis. -/
theorem OwnedBy.unique {l l' : Literal} {call call' : Call} (h : OwnedBy d doc r l call)
    (h' : OwnedBy d doc r l' call') : l = l' ∧ call.opening = call'.opening := by
  obtain rfl := eq_of_rangeOf_eq h.mem_literals h'.mem_literals (h.range_eq.symm.trans h'.range_eq)
  refine ⟨rfl, Nat.le_antisymm ?_ ?_⟩
  · exact h'.le_opening call h.mem_calls h.accepts
  · exact h.le_opening call' h'.mem_calls h'.accepts

/-- The mark of a region speaks of the brackets behind the parenthesis of its call. -/
theorem OwnedBy.direct_iff {l : Literal} {call : Call} (hr : r ∈ all d doc)
    (h : OwnedBy d doc r l call) : r.direct = true ↔
      Bracket.depth (bracketsSeen d.marks doc.text call.opening l.start) = 0 := by
  obtain ⟨l', call', h', heq⟩ := exists_ownedBy hr
  obtain ⟨rfl, hopening⟩ := h.unique h'
  rw [heq, hopening, ← isDirect_iff]
  rfl

/-- The parenthesis of a call stands in code if the names hold no marks. -/
theorem inCode_opening (hd : d.marks = Marks.r)
    (hnames : ∀ f ∈ d.functions, Call.isPlainName Marks.r f.toList = true) {text : Text}
    {call : Call} (hcall : call ∈ callsIn d text) :
    InCode (scanAll d.marks text) call.opening := by
  obtain ⟨f, hf, start, hstart, -, hopening, -⟩ := (mem_callsIn_iff_exists d text call).1 hcall
  have hrun := (Call.run_take_opening hd (hnames f hf) (List.mem_of_mem_take hstart) hopening).1
  have hparen := Call.getElem?_openingAt? hopening
  have hiff := (scanned_scanAll Marks.r text).inCode_iff (by decide) hparen
  rw [hd, ← Nat.zero_add call.opening, hiff]
  exact ⟨hrun, by decide⟩

/-- **A region is direct if nothing is open** around its literal.  Every region belongs to a call.
Where the brackets that are counted begin a well-nested text, the region is direct if and only if
none of them is still open at the literal.  Behind a parenthesis in code, where the parentheses of
names without marks stand, these are the brackets of the code. -/
theorem direct_iff_nothing_open {d : Detection} {doc : Document} {r : Region} (hr : r ∈ all d doc) :
    (∃ l call, OwnedBy d doc r l call ∧ r = regionOf d doc l call) ∧
      ∀ l call, OwnedBy d doc r l call →
        ((∃ t, Bracket.WellNested (bracketsSeen d.marks doc.text call.opening l.start ++ t)) →
          (r.direct = true ↔ ∀ i, ¬ Bracket.StillOpen
            (bracketsSeen d.marks doc.text call.opening l.start) i)) ∧
        (InCode (scanAll d.marks doc.text) call.opening →
          (∃ t, Bracket.WellNested
            (bracketsInCode d.marks doc.text (call.opening + 1) l.start ++ t)) →
          (r.direct = true ↔ ∀ i, ¬ Bracket.StillOpen
            (bracketsInCode d.marks doc.text (call.opening + 1) l.start) i)) ∧
        (d.marks = Marks.r → (∀ f ∈ d.functions, Call.isPlainName Marks.r f.toList = true) →
          InCode (scanAll d.marks doc.text) call.opening) := by
  refine ⟨exists_ownedBy hr, fun l call h => ?_⟩
  have hseen : (∃ t, Bracket.WellNested
      (bracketsSeen d.marks doc.text call.opening l.start ++ t)) →
      (r.direct = true ↔ ∀ i, ¬ Bracket.StillOpen
        (bracketsSeen d.marks doc.text call.opening l.start) i) :=
    fun hnested => (h.direct_iff hr).trans (Bracket.depth_eq_zero_iff hnested)
  refine ⟨hseen, fun hcode => ?_, fun hd hnames => inCode_opening hd hnames h.mem_calls⟩
  rwa [← bracketsSeen_eq hcode]

/-- One string in a list behind an index, and one behind the list.  In the second text the name of
the function holds a quote, and its parenthesis stands in a string together with a bracket: no
bracket of the code is open around the literal, but the one in the string is counted. -/
theorem direct_iff_nothing_open_in_list :
    let doc : Document := ⟨"", "dbGetQuery(x[1], list('a'), 'b')".toList, 0⟩
    let call : Call := ⟨"dbGetQuery", 10, 31⟩
    let a : Region := ⟨⟨⟨0, 23⟩, ⟨0, 24⟩⟩, "dbGetQuery", false, false, ['a'], false⟩
    let b : Region := ⟨⟨⟨0, 29⟩, ⟨0, 30⟩⟩, "dbGetQuery", false, false, ['b'], true⟩
    let d : Detection := { sqlFunctions := ["f\""] }
    let odd : Document := ⟨"", "f\"([\" \"x\"".toList, 0⟩
    let x : Region := ⟨⟨⟨0, 7⟩, ⟨0, 8⟩⟩, "f\"", false, false, ['x'], false⟩
    (all {} doc = [a, b] ∧ InCode (scanAll Marks.r doc.text) call.opening ∧
      bracketsInCode Marks.r doc.text (call.opening + 1) 22 = ['[', ']', '('] ∧
      (∃ i, Bracket.StillOpen ['[', ']', '('] i) ∧
      bracketsInCode Marks.r doc.text (call.opening + 1) 28 = ['[', ']', '(', ')'] ∧
      ∀ i, ¬ Bracket.StillOpen ['[', ']', '(', ')'] i) ∧
    (all d odd = [x] ∧ bracketsInCode Marks.r odd.text 3 6 = [] ∧
      bracketsSeen Marks.r odd.text 2 6 = ['['] ∧ (∃ i, Bracket.StillOpen ['['] i) ∧
      ¬ InCode (scanAll Marks.r odd.text) 2) := by
  intro doc call a b d odd x
  have hall : all {} doc = [a, b] := by decide +kernel
  have hcalls : callsIn {} doc.text = [call] := by decide +kernel
  have hnames : ∀ f ∈ ({} : Detection).functions, Call.isPlainName Marks.r f.toList = true := by
    decide +kernel
  have hseen : bracketsInCode Marks.r doc.text (call.opening + 1) 22 = ['[', ']', '('] := by
    decide +kernel
  have hseen' : bracketsInCode Marks.r doc.text (call.opening + 1) 28 = ['[', ']', '(', ')'] := by
    decide +kernel
  have hpairs : Bracket.WellNested ['[', ']', '(', ')'] :=
    .enclose .square .nil (.enclose .round .nil .nil)
  have ha : OwnedBy {} doc a ⟨.string, 22, 24, '\'', true⟩ call :=
    .of_callsIn_eq (by decide +kernel) ⟨rfl, rfl⟩ (by decide +kernel) hcalls (by decide +kernel)
  have hb : OwnedBy {} doc b ⟨.string, 28, 30, '\'', true⟩ call :=
    .of_callsIn_eq (by decide +kernel) ⟨rfl, rfl⟩ (by decide +kernel) hcalls (by decide +kernel)
  obtain ⟨-, hcode, hplain⟩ :=
    (direct_iff_nothing_open (r := a) (by rw [hall]; simp)).2 _ _ ha
  obtain ⟨-, hcode', -⟩ := (direct_iff_nothing_open (r := b) (by rw [hall]; simp)).2 _ _ hb
  have hopening := hplain rfl hnames
  have hopen := (hcode hopening ⟨[')'], hseen ▸ hpairs⟩).not.1 (by decide)
  have hclosed := (hcode' hopening ⟨[], hseen' ▸ hpairs⟩).1 rfl
  -- the call whose parenthesis stands in a string
  have hodd : all d odd = [x] := by decide +kernel
  have hodd_seen : bracketsSeen Marks.r odd.text 2 6 = ['['] := by decide +kernel
  have hx : OwnedBy d odd x ⟨.string, 6, 8, '"', true⟩ ⟨"f\"", 2, 9⟩ :=
    .of_callsIn_eq (by decide +kernel) ⟨rfl, rfl⟩ (by decide +kernel) (by decide +kernel)
      (by decide +kernel)
  obtain ⟨hseen_iff, -⟩ := (direct_iff_nothing_open (r := x) (by rw [hodd]; simp)).2 _ _ hx
  have hodd_open := (hseen_iff ⟨[']'], hodd_seen ▸ .enclose .square .nil .nil⟩).not.1 (by decide)
  simp only [not_forall, not_not] at hopen hodd_open
  exact ⟨⟨hall, hopening, hseen, hseen ▸ hopen, hseen', hseen' ▸ hclosed⟩,
    hodd, by decide +kernel, hodd_seen, hodd_seen ▸ hodd_open, by decide +kernel⟩

end EmbeddedSql.Region
