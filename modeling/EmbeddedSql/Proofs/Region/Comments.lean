/-
**The survey and comments.**

Comments are no code, so what they say should not matter to the survey of a document.  It does not,
with one exception: the name of an argument is looked for by going back from the opening quote over
blanks, an equals sign and a name, and this may end up in a comment.  `# foo =` above a string takes
the string for an argument called `foo`.

Main definitions:

* `Region.exposed` — a region whose argument name is looked for in a comment.

Main results:

* `Region.callsIn_eq` — the survey follows the same calls in two texts that differ inside comments;
* `Region.comments_inert` — **what comments say matters to exposed literals only**.
-/

import EmbeddedSql.Proofs.Call.Comments

set_option relaxedAutoImplicit false
set_option autoImplicit false

namespace EmbeddedSql

open Literal

/-- Newlines stand at the same places in texts that are read alike. -/
theorem Document.walk_eq_of_alike {m : Marks} {r : Reading} {t u : Text} (h : Alike m r t u)
    (p : Position) (n : Nat) : walk p t n = walk p u n := by
  induction h generalizing p n with
  | nil r => rfl
  | @same r c t u h ih =>
      cases n with
      | zero => rfl
      | succ n => rw [walk, walk, ih, ih]
  | @hidden c c' t u hc hc' h ih =>
      cases n with
      | zero => rfl
      | succ n => rw [walk, walk, if_neg hc, if_neg hc', ih]

namespace Region

/-- Whether the name of the argument of a region is looked for in a comment. -/
def exposed (d : Detection) (doc : Document) (r : Region) : Bool :=
  Call.seesComment d doc.text (doc.offsetOf r.range.start - 1)

section

variable {d : Detection} (hd : d.marks = Marks.r)
  (hnames : ∀ f ∈ d.functions, Call.isPlainName Marks.r f.toList = true)

include hd

/-! ### Calls -/

include hnames in
/-- The survey follows the same calls. -/
theorem callsIn_eq {x y : Text} (h : UpToComments Marks.r x y) : callsIn d x = callsIn d y := by
  refine List.flatMap_congr fun f hf => ?_
  rw [callsTo, callsTo, ← h.codeOccurrences_eq hd (hnames f hf)]
  refine List.filterMap_congr fun start hstart => ?_
  exact h.at?_eq hd (hnames f hf) (List.mem_of_mem_take hstart)

include hnames in
/-- Behind the parenthesis of a call the text goes on in code. -/
theorem run_take_of_mem_callsIn {x : Text} {call : Call} (hcall : call ∈ callsIn d x) :
    Reading.code.run Marks.r (x.take (call.opening + 1)) = .code := by
  obtain ⟨f, hf, start, hstart, -, hopening, -⟩ := (mem_callsIn_iff_exists d x call).1 hcall
  exact (Call.run_take_opening hd (hnames f hf) (List.mem_of_mem_take hstart) hopening).2

/-! ### Literals -/

omit hd in
/-- Brackets around a literal are counted alike. -/
theorem isDirect_eq {x y : Text} (h : UpToComments Marks.r x y) {opening : Nat}
    (hopening : Reading.code.run Marks.r (x.take (opening + 1)) = .code) (start : Nat) :
    isDirect x (scanAll Marks.r x) opening start =
      isDirect y (scanAll Marks.r x) opening start := by
  have hscan := scanned_scanAll Marks.r x
  have hsub := List.dropWhile_sublist (l := scanAll Marks.r x) (fun l => decide (l.start ≤ opening))
  have hlen : (x.slice (opening + 1) start).length = (y.slice (opening + 1) start).length := by
    simp [h.length]
  have hdiffer : ∀ k, (x.slice (opening + 1) start)[k]? ≠ (y.slice (opening + 1) start)[k]? →
      ∃ l ∈ (scanAll Marks.r x).dropWhile (·.start ≤ opening),
        l.start ≤ opening + 1 + k ∧ opening + 1 + k < l.stop := by
    intro k hk
    rw [Text.getElem?_slice, Text.getElem?_slice] at hk
    split at hk
    · obtain ⟨l, hl, hkind, hlo, hhi⟩ := h.agree _ hk
      refine ⟨l, ?_, Nat.le_of_lt hlo, hhi⟩
      -- a comment that starts before the parenthesis would run over it
      rw [← List.takeWhile_append_dropWhile (p := fun l => decide (l.start ≤ opening))
        (l := scanAll Marks.r x), List.mem_append] at hl
      rcases hl with hl | hl
      · have hle := of_decide_eq_true (List.all_eq_true.1 List.all_takeWhile l hl)
        have hcomment := run_take_of_comment (k := opening + 1)
          ((List.takeWhile_sublist _).subset hl) hkind (by simp [covers]; omega)
        rw [hopening] at hcomment
        simp at hcomment
      · exact hl
    · exact absurd rfl hk
  have hdepth := Bracket.netDepth_eq ((hscan.pairwise.imp And.right).sublist hsub)
    (fun l hl => (hscan.within (hsub.subset hl)).start_le) hlen hdiffer
  simp only [isDirect, hdepth]

omit hd in
/-- The content of a string is the same. -/
theorem slice_eq_of_string {x y : Text} (h : UpToComments Marks.r x y) {l : Literal}
    (hl : l ∈ scanAll Marks.r x) (hstring : l.kind = .string) :
    x.slice (l.start + 1) l.stop = y.slice (l.start + 1) l.stop := by
  refine Text.slice_eq_of_forall fun k hlo hhi => ?_
  by_contra hne
  obtain ⟨c, hc, hkind, hclo, hchi⟩ := h.agree k hne
  have hother : c ≠ l := by
    rintro rfl
    simp [hkind] at hstring
  have hapart := (scanned_scanAll Marks.r x).apart hc hl hother
  omega

/-- A literal that no comment is seen from has the same region. -/
theorem ofLiteral?_eq {x y : Document} (h : UpToComments Marks.r x.text y.text)
    {calls : List Call}
    (hcalls : ∀ call ∈ calls, Reading.code.run Marks.r (x.text.take (call.opening + 1)) = .code)
    {l : Literal} (hl : l ∈ scanAll Marks.r x.text)
    (hsees : Call.seesComment d x.text l.start = false) :
    ofLiteral? d x (scanAll Marks.r x.text) calls l =
      ofLiteral? d y (scanAll Marks.r x.text) calls l := by
  unfold ofLiteral?
  split
  · next hstring =>
      have hstring : l.kind = .string ∧ l.closed = true := by simpa using hstring
      have haccepts : ∀ call, accepts d x.text l call = accepts d y.text l call := by
        intro call
        rw [accepts, accepts, h.namedArgument?_eq hd hl hsees]
      have howner : owner? d x.text l calls = owner? d y.text l calls := by
        simp only [owner?, haccepts]
      have hrange : x.rangeOf (l.start + 1) l.stop = y.rangeOf (l.start + 1) l.stop := by
        simp only [Document.rangeOf, Document.positionOf, Document.walk_eq_of_alike h.alike]
      rw [← howner]
      refine Option.map_congr fun call hcall => ?_
      have hspec := Call.owner?_spec d x.text l calls
      rw [hcall] at hspec
      simp only [hrange, slice_eq_of_string h hl hstring.1,
        isDirect_eq h (hcalls call hspec.1)]
  · rfl

/-- The region of a literal is exposed if a comment is seen from the literal. -/
theorem filter_ofLiteral? (doc : Document) (calls : List Call) {l : Literal}
    (hl : l ∈ scanAll Marks.r doc.text) :
    (ofLiteral? d doc (scanAll Marks.r doc.text) calls l).filter (!exposed d doc ·) =
      if Call.seesComment d doc.text l.start then none
      else ofLiteral? d doc (scanAll Marks.r doc.text) calls l := by
  cases hr : ofLiteral? d doc (scanAll Marks.r doc.text) calls l with
  | none => simp
  | some r =>
      have hexposed : exposed d doc r = Call.seesComment d doc.text l.start := by
        rw [exposed, (covered_of_ofLiteral? (hd ▸ hl) (hd ▸ hr)).start_eq, Nat.add_sub_cancel]
      cases hsees : Call.seesComment d doc.text l.start with
      | true => simp [Option.filter, hexposed, hsees]
      | false => simp [Option.filter, hexposed, hsees]

/-! ### The survey -/

include hnames in
/-- **What comments say matters to exposed literals only.**  Two documents of the same length and
with the same literals that differ inside comments have the same regions, exposed ones left out; and
if no string is exposed, they have the same regions. -/
theorem comments_inert {x y : Document} (h : UpToComments Marks.r x.text y.text) :
    (all d x).filter (!exposed d x ·) = (all d y).filter (!exposed d y ·) ∧
      ((∀ l ∈ scanAll Marks.r x.text, l.kind = .string →
        Call.seesComment d x.text l.start = false) → all d x = all d y) := by
  by_cases hsize : x.text.length ≤ d.limits.documentSize
  · rw [all_eq hsize, all_eq (h.length ▸ hsize), hd, ← h.literals, ← callsIn_eq hd hnames h]
    have hcalls : ∀ call ∈ callsIn d x.text,
        Reading.code.run Marks.r (x.text.take (call.opening + 1)) = .code :=
      fun call => run_take_of_mem_callsIn hd hnames
    constructor
    · rw [List.filter_filterMap, List.filter_filterMap]
      refine List.filterMap_congr fun l hl => ?_
      have hy := filter_ofLiteral? hd y (callsIn d x.text) (h.literals ▸ hl)
      rw [← h.literals, ← h.seesComment_eq hd] at hy
      rw [filter_ofLiteral? hd x (callsIn d x.text) hl, hy]
      split
      · rfl
      · next hsees => exact ofLiteral?_eq hd h hcalls hl (by simpa using hsees)
    · intro hsees
      refine List.filterMap_congr fun l hl => ?_
      by_cases hstring : l.kind = .string
      · exact ofLiteral?_eq hd h hcalls hl (hsees l hl hstring)
      · simp [ofLiteral?, hstring]
  · rw [all_eq_nil (by omega), all_eq_nil (by rw [← h.length]; omega)]
    exact ⟨rfl, fun _ => rfl⟩

end

/-- A comment above a string takes it for an argument with a name when it ends in an equals sign.
The string behind the number is not exposed, and in the second call no string is. -/
theorem comments_inert_unless_exposed :
    let x : Document := ⟨"", "dbGetQuery(con, # foo =\n\"a\", # bar =\n1, 'b')".toList, 0⟩
    let y : Document := ⟨"", "dbGetQuery(con, # foo -\n\"a\", # bar -\n1, 'b')".toList, 0⟩
    let a : Region := ⟨⟨⟨1, 1⟩, ⟨1, 2⟩⟩, "dbGetQuery", false, false, ['a'], true⟩
    let b : Region := ⟨⟨⟨2, 4⟩, ⟨2, 5⟩⟩, "dbGetQuery", false, false, ['b'], true⟩
    let v : Document := ⟨"", "sql( # foo =\n1, 'b')".toList, 0⟩
    let w : Document := ⟨"", "sql( # foo (\n1, 'b')".toList, 0⟩
    (all {} x = [b] ∧ all {} y = [a, b] ∧ exposed {} y a = true) ∧
      (all {} x).filter (!exposed {} x ·) = (all {} y).filter (!exposed {} y ·) ∧
      all {} v = all {} w := by
  intro x y a b v w
  have hnames : ∀ f ∈ ({} : Detection).functions, Call.isPlainName Marks.r f.toList = true := by
    decide +kernel
  have hxy : UpToComments Marks.r x.text y.text := by decide +kernel
  have hvw : UpToComments Marks.r v.text w.text := by decide +kernel
  have hx : all {} x = [b] := by decide +kernel
  have hy : all {} y = [a, b] := by decide +kernel
  have hsees : ∀ l ∈ scanAll Marks.r v.text, l.kind = .string →
      Call.seesComment {} v.text l.start = false := by decide +kernel
  exact ⟨⟨hx, hy, by decide +kernel⟩, (comments_inert rfl hnames hxy).1,
    (comments_inert rfl hnames hvw).2 hsees⟩

end Region

end EmbeddedSql
