/-
**Calls of texts that differ inside comments.**

Every search of the detection reads the text in its own way.  Here two texts are compared that
differ inside comments only.  Names, their parentheses and the extent of a call are found alike,
provided the names hold no mark and no newline: a name that does might start in code and end in a
comment.  The look behind a literal is different.  It goes back over blanks, an equals sign and a
name, and does not care whether this takes it over a newline and into a comment.

Main definitions:

* `Call.isPlainName` — a name without marks and newlines;
* `Call.seesComment` — whether the look behind a literal gets into a comment.

Main results:

* `Literal.UpToComments.codeOccurrences_eq` — names in code;
* `Literal.UpToComments.at?_eq` — the calls they stand before;
* `Literal.UpToComments.namedArgument?_eq` — the names of arguments, where no comment is seen.
-/

import EmbeddedSql.Proofs.Bracket.Matching
import EmbeddedSql.Proofs.Literal.Partition
import EmbeddedSql.Proofs.Region.Survey

set_option relaxedAutoImplicit false
set_option autoImplicit false

namespace EmbeddedSql

open Literal

variable {m : Marks} {r : Reading} {t u : Text}

/-! ### Reading on -/

theorem Literal.Reading.step_ne_comment {c : Char} (hr : r ≠ .comment)
    (hc : m.opens? c ≠ some .comment) : r.step m c ≠ .comment := by
  cases r with
  | code =>
      cases hopen : m.opens? c with
      | none => simp [Reading.step, hopen]
      | some kind =>
          cases kind with
          | string => simp [Reading.step, hopen, Reading.entered]
          | comment => exact absurd hopen hc
  | string q =>
      simp only [Reading.step]
      split
      · simp
      · split <;> simp
  | escaped q => simp [Reading.step]
  | comment => exact absurd rfl hr

/-- What opens nothing leaves the reader in code. -/
theorem Literal.Reading.run_code {s : Text} (h : ∀ c ∈ s, m.opens? c = none) :
    Reading.code.run m s = .code := by
  induction s with
  | nil => rfl
  | cons c s ih =>
      obtain ⟨hc, hs⟩ := List.forall_mem_cons.1 h
      rw [Reading.run_cons, Reading.step_code_of_opens?_none hc]
      exact ih hs

/-! ### Names -/

namespace Call

/-- Whether a name holds no mark and no newline. -/
def isPlainName (m : Marks) (name : Text) : Bool :=
  name.all fun c => (m.opens? c).isNone && c != '\n'

theorem isPlainName_iff {name : Text} :
    isPlainName m name = true ↔ ∀ c ∈ name, m.opens? c = none ∧ c ≠ '\n' := by
  simp [isPlainName]

/-- Whether the search for a name reports it in front of a text. -/
def reports (name : Text) (before : Option Char) (skip : Nat) (t : Text) : Bool :=
  decide (skip = 0) && startsAfter before &&
    (name.isPrefixOf t && endsBefore (t.drop name.length))

theorem occurrencesFrom_cons (name : Text) (before : Option Char) (skip i : Nat) (c : Char)
    (t : Text) :
    occurrencesFrom name before skip i (c :: t) =
      (if reports name before skip (c :: t) then [i] else []) ++
        occurrencesFrom name (some c)
          (if reports name before skip (c :: t) then name.length - 1 else skip - 1) (i + 1) t := by
  rw [occurrencesFrom]
  simp only [reports, ← Bool.and_assoc]
  split <;> rfl

/-- A name that starts in code or in a string does not get into a comment. -/
theorem stands_eq {name : Text} (hname : ∀ c ∈ name, m.opens? c ≠ some .comment)
    (h : Alike m r t u) (hr : r ≠ .comment) :
    (name.isPrefixOf t && endsBefore (t.drop name.length)) =
      (name.isPrefixOf u && endsBefore (u.drop name.length)) := by
  induction name generalizing r t u with
  | nil =>
      cases h with
      | nil => rfl
      | same h => rfl
      | hidden => exact absurd rfl hr
  | cons n name ih =>
      obtain ⟨hn, hname⟩ := List.forall_mem_cons.1 hname
      cases h with
      | nil => rfl
      | @same _ c t u h =>
          by_cases hc : n = c
          · subst hc
            simpa using ih hname h (Reading.step_ne_comment hr hn)
          · have hne : (n == c) = false := by simpa using hc
            simp [List.isPrefixOf, hne]
      | hidden => exact absurd rfl hr

/-- What the searches for a name have in common that go through two texts.  The next characters of
an occurrence that was just reported belong to the name. -/
structure Abreast (name : Text) (r : Reading) (t u : Text) (before before' : Option Char)
    (skip skip' : Nat) : Prop where
  same : r ≠ .comment → before = before' ∧ skip = skip'
  left : ∀ c ∈ t.take skip, c ∈ name
  right : ∀ c ∈ u.take skip', c ∈ name

/-- One character on, the next characters still belong to the name. -/
theorem mem_name_of_mem_take {name : Text} (before : Option Char) {skip : Nat} {c : Char}
    (h : ∀ e ∈ (c :: t).take skip, e ∈ name) :
    ∀ e ∈ t.take (if reports name before skip (c :: t) then name.length - 1 else skip - 1),
      e ∈ name := by
  intro e he
  split at he
  · next hreports =>
      simp only [reports, Bool.and_eq_true, List.isPrefixOf_iff_prefix] at hreports
      obtain ⟨v, hv⟩ := hreports.2.1
      cases name with
      | nil => simp at he
      | cons n name =>
          obtain ⟨rfl, rfl⟩ : n = c ∧ name ++ v = t := by simpa using hv
          have he : e ∈ name := by simpa using he
          exact List.mem_cons_of_mem n he
  · cases skip with
    | zero => simp at he
    | succ k => exact h e (List.mem_cons_of_mem c he)

/-- A newline belongs to no occurrence. -/
theorem skip_newline {name : Text} (hname : '\n' ∉ name) {before : Option Char} {skip : Nat}
    (h : ∀ e ∈ ('\n' :: t).take skip, e ∈ name) :
    (if reports name before skip ('\n' :: t) then name.length - 1 else skip - 1) = 0 := by
  split
  · next hreports =>
      simp only [reports, Bool.and_eq_true, List.isPrefixOf_iff_prefix] at hreports
      obtain ⟨v, hv⟩ := hreports.2.1
      cases name with
      | nil => rfl
      | cons n name =>
          obtain ⟨rfl, -⟩ : n = '\n' ∧ name ++ v = t := by simpa using hv
          exact absurd List.mem_cons_self hname
  · cases skip with
    | zero => rfl
    | succ k => exact absurd (h '\n' List.mem_cons_self) hname

theorem filter_reported {inCode : Nat → Bool} {i : Nat} (h : inCode i = false) (b : Bool) :
    (if b then [i] else []).filter inCode = [] := by
  cases b <;> simp [h]

/-- **Both searches report the same names**, those in comments left out. -/
theorem filter_occurrencesFrom_eq {name : Text} (hname : isPlainName m name = true)
    {inCode : Nat → Bool} (h : Alike m r t u) {i : Nat}
    (hcode : ∀ k ≤ t.length, r.run m (t.take k) = .comment → inCode (i + k) = false)
    {before before' : Option Char} {skip skip' : Nat}
    (habreast : Abreast name r t u before before' skip skip') :
    (occurrencesFrom name before skip i t).filter inCode =
      (occurrencesFrom name before' skip' i u).filter inCode := by
  have hplain := isPlainName_iff.1 hname
  have hopens : ∀ c ∈ name, m.opens? c ≠ some .comment := fun c hc => by simp [(hplain c hc).1]
  have hnewline : '\n' ∉ name := fun hc => (hplain _ hc).2 rfl
  induction h generalizing i before before' skip skip' with
  | nil r =>
      by_cases hr : r = .comment
      · have hi : inCode i = false := hcode 0 (Nat.le_refl 0) hr
        rw [occurrencesFrom, occurrencesFrom, filter_reported hi, filter_reported hi]
      · obtain ⟨rfl, rfl⟩ := habreast.same hr
        rfl
  | @same r c t u h ih =>
      have hleft := mem_name_of_mem_take before habreast.left
      have hright := mem_name_of_mem_take before' habreast.right
      have hrest : ∀ k ≤ t.length, (r.step m c).run m (t.take k) = .comment →
          inCode (i + 1 + k) = false := by
        intro k hk hrun
        rw [show i + 1 + k = i + (k + 1) by omega]
        exact hcode (k + 1) (by simpa using hk) hrun
      rw [occurrencesFrom_cons, occurrencesFrom_cons, List.filter_append, List.filter_append]
      by_cases hr : r = .comment
      · -- whatever is reported here stands in a comment, and behind its newline nothing is skipped
        have hi : inCode i = false := hcode 0 (Nat.zero_le _) hr
        rw [filter_reported hi, filter_reported hi]
        refine congrArg _ (ih hrest ⟨fun hstep => ⟨rfl, ?_⟩, hleft, hright⟩)
        obtain rfl : c = '\n' := by
          by_contra hc
          simp [hr, Reading.step, hc] at hstep
        rw [skip_newline hnewline habreast.left, skip_newline hnewline habreast.right]
      · obtain ⟨rfl, rfl⟩ := habreast.same hr
        have hreports : reports name before skip (c :: t) = reports name before skip (c :: u) := by
          rw [reports, reports, stands_eq hopens (Alike.same h) hr]
        rw [← hreports] at hright ⊢
        rw [ih hrest ⟨fun _ => ⟨rfl, rfl⟩, hleft, hright⟩]
  | @hidden c c' t u hc hc' h ih =>
      have hi : inCode i = false := hcode 0 (Nat.zero_le _) rfl
      have hrest : ∀ k ≤ t.length, Reading.comment.run m (t.take k) = .comment →
          inCode (i + 1 + k) = false := by
        intro k hk hrun
        rw [show i + 1 + k = i + (k + 1) by omega]
        exact hcode (k + 1) (by simpa using hk) (by simpa [Reading.step, hc] using hrun)
      rw [occurrencesFrom_cons, occurrencesFrom_cons, List.filter_append, List.filter_append,
        filter_reported hi, filter_reported hi]
      exact congrArg _ (ih hrest ⟨fun hne => absurd rfl hne,
        mem_name_of_mem_take before habreast.left, mem_name_of_mem_take before' habreast.right⟩)

theorem exists_of_mem_occurrencesFrom {name : Text} {before : Option Char} {skip i o : Nat}
    (h : o ∈ occurrencesFrom name before skip i t) :
    ∃ k ≤ t.length, o = i + k ∧ name <+: t.drop k := by
  induction t generalizing before skip i with
  | nil =>
      rw [occurrencesFrom] at h
      split at h
      · next hempty =>
          obtain rfl : o = i := by simpa using h
          obtain rfl : name = [] := by simp_all
          exact ⟨0, Nat.le_refl 0, rfl, List.nil_prefix⟩
      · simp at h
  | cons c t ih =>
      rw [occurrencesFrom_cons, List.mem_append] at h
      rcases h with h | h
      · split at h
        · next hreports =>
            obtain rfl : o = i := by simpa using h
            simp only [reports, Bool.and_eq_true, List.isPrefixOf_iff_prefix] at hreports
            exact ⟨0, Nat.zero_le _, rfl, hreports.2.1⟩
        · simp at h
      · obtain ⟨k, hk, rfl, hpre⟩ := ih h
        exact ⟨k + 1, by simpa using hk, by omega, hpre⟩

end Call

/-! ### Parentheses -/

namespace Bracket

/-- The opening parenthesis behind a name is found alike. -/
theorem openDistance?_eq (hblank : ∀ c, Text.isBlank c = true → m.opens? c = none)
    (h : Alike m r t u) (hr : r ≠ .comment) (n : Nat) :
    openDistance? (t.take n) = openDistance? (u.take n) := by
  induction h generalizing n with
  | nil r => rfl
  | @same r c t u h ih =>
      cases n with
      | zero => rfl
      | succ n =>
          rw [List.take_succ_cons, List.take_succ_cons, openDistance?, openDistance?]
          by_cases hc : Text.isBlank c = true
          · rw [ih (Reading.step_ne_comment hr (by simp [hblank c hc])) n]
          · simp [hc]
  | hidden => exact absurd rfl hr

/-- The closing parenthesis is found alike. -/
theorem matchingClose?_eq {x y : Text} (hm : m.comment ≠ '\n') (hopen : m.opens? '(' = none)
    {opening : Nat} (h : Alike m .code (x.drop opening) (y.drop opening)) (reach : Nat) :
    matchingClose? m x opening reach = matchingClose? m y opening reach := by
  unfold matchingClose?
  revert h
  generalize x.drop opening = t
  generalize y.drop opening = u
  intro h
  cases h with
  | nil => rfl
  | @same _ c t u h =>
      by_cases hc : c = '('
      · subst hc
        rw [Reading.step_code_of_opens?_none hopen] at h
        simp only [closeDistance?_eq_closeIn hm, Mode.reading, Reading.codeOf_take, h.codeOf_eq]
      · simp [hc]

/-- Brackets are counted alike when the texts differ inside the given literals only. -/
theorem netDepth_eq {ls : List Literal} (hls : ls.Pairwise fun a b => a.stop < b.start)
    (hle : ∀ l ∈ ls, l.start ≤ l.stop) {i : Nat} (hlen : t.length = u.length)
    (h : ∀ k, t[k]? ≠ u[k]? → ∃ l ∈ ls, l.start ≤ i + k ∧ i + k < l.stop) :
    netDepth ls i t = netDepth ls i u := by
  induction t generalizing ls i u with
  | nil =>
      obtain rfl : u = [] := List.eq_nil_of_length_eq_zero hlen.symm
      rfl
  | cons c t ih =>
      obtain ⟨c', u, rfl⟩ := List.exists_cons_of_length_pos (l := u) (by rw [← hlen]; simp)
      have hlen : t.length = u.length := by simpa using hlen
      have hrest : ∀ k, t[k]? ≠ u[k]? → ∃ l ∈ ls, l.start ≤ i + 1 + k ∧ i + 1 + k < l.stop := by
        intro k hk
        rw [show i + 1 + k = i + (k + 1) by omega]
        exact h (k + 1) (by simpa using hk)
      cases ls with
      | nil =>
          have hc : c = c' := by
            by_contra hc
            obtain ⟨l, hl, -⟩ := h 0 (by simpa using hc)
            simp at hl
          rw [netDepth, netDepth, hc, ih hls hle hlen hrest]
      | cons l ls =>
          obtain ⟨hlater, hls'⟩ := List.pairwise_cons.1 hls
          obtain ⟨hl, hle'⟩ := List.forall_mem_cons.1 hle
          rw [netDepth, netDepth]
          by_cases hbefore : i < l.start
          · -- in front of all literals
            have hc : c = c' := by
              by_contra hc
              obtain ⟨x, hx, hlo, -⟩ := h 0 (by simpa using hc)
              rcases List.mem_cons.1 hx with rfl | hx
              · omega
              · have hlt := hlater x hx
                omega
            rw [if_pos hbefore, if_pos hbefore, hc, ih hls hle hlen hrest]
          · rw [if_neg hbefore, if_neg hbefore]
            by_cases hinside : i < l.stop
            · rw [if_pos hinside, if_pos hinside, ih hls hle hlen hrest]
            · rw [if_neg hinside, if_neg hinside]
              refine ih hls' hle' hlen fun k hk => ?_
              obtain ⟨x, hx, hlo, hhi⟩ := hrest k hk
              rcases List.mem_cons.1 hx with rfl | hx
              · omega
              · exact ⟨x, hx, hlo, hhi⟩

end Bracket

/-! ### Parts of two texts -/

namespace Text

theorem slice_eq_of_forall {x y : Text} {lo hi : Nat}
    (h : ∀ k, lo ≤ k → k < hi → x[k]? = y[k]?) : slice x lo hi = slice y lo hi := by
  refine List.ext_getElem? fun k => ?_
  rw [getElem?_slice, getElem?_slice]
  split
  · exact h (lo + k) (by omega) (by omega)
  · rfl

theorem slice_cut {x : Text} {lo mid hi : Nat} {c : Char} (hlo : lo ≤ mid) (hhi : mid < hi)
    (hc : x[mid]? = some c) : slice x lo hi = slice x lo mid ++ c :: slice x (mid + 1) hi := by
  obtain ⟨hlt, hget⟩ := List.getElem?_eq_some_iff.1 hc
  have hsum : hi - lo = (mid - lo) + (hi - mid) := by omega
  have hrest : hi - mid = (hi - (mid + 1)) + 1 := by omega
  rw [slice, slice, slice, hsum, List.take_add, List.drop_drop, show lo + (mid - lo) = mid by omega,
    List.drop_eq_getElem_cons hlt, hget, hrest, List.take_succ_cons]

theorem filter_trimLeft (t : Text) : (trimLeft t).filter (!isBlank ·) = t.filter (!isBlank ·) := by
  induction t with
  | nil => rfl
  | cons c t ih =>
      by_cases hc : isBlank c = true
      · rw [trimLeft, List.dropWhile_cons_of_pos hc, List.filter_cons_of_neg (by simp [hc])]
        exact ih
      · rw [trimLeft, List.dropWhile_cons_of_neg hc]

theorem trimLeft_append {s : Text} (h : trimLeft s ≠ []) (t : Text) :
    trimLeft (s ++ t) = trimLeft s ++ t := by
  rw [trimLeft, List.dropWhile_append, if_neg (by simpa [trimLeft] using h)]
  rfl

end Text

/-- The last offset before another one where two texts differ. -/
theorem exists_last_difference (x y : Text) (hi : Nat) :
    (∀ k < hi, x[k]? = y[k]?) ∨
      ∃ j < hi, x[j]? ≠ y[j]? ∧ ∀ k, j < k → k < hi → x[k]? = y[k]? := by
  induction hi with
  | zero => exact Or.inl fun k hk => absurd hk (Nat.not_lt_zero k)
  | succ hi ih =>
      by_cases hhi : x[hi]? = y[hi]?
      · rcases ih with hall | ⟨j, hj, hne, hlast⟩
        · refine Or.inl fun k hk => ?_
          rcases Nat.lt_succ_iff_lt_or_eq.1 hk with hk | rfl
          · exact hall k hk
          · exact hhi
        · refine Or.inr ⟨j, by omega, hne, fun k hjk hk => ?_⟩
          rcases Nat.lt_succ_iff_lt_or_eq.1 hk with hk | rfl
          · exact hlast k hjk hk
          · exact hhi
      · exact Or.inr ⟨hi, Nat.lt_succ_self hi, hhi, fun k _ _ => by omega⟩

/-! ### Names of arguments -/

namespace Call

/-- Whether a text holds nothing but blanks and at most an equals sign. -/
def isThin (t : Text) : Bool :=
  [[], ['=']].contains (t.filter (!Text.isBlank ·))

theorem isThin_reverse (t : Text) : isThin t.reverse = isThin t := by
  have hnil : t.reverse.filter (!Text.isBlank ·) = [] ↔ t.filter (!Text.isBlank ·) = [] := by
    rw [List.filter_reverse, List.reverse_eq_nil_iff]
  have hequals : t.reverse.filter (!Text.isBlank ·) = ['='] ↔
      t.filter (!Text.isBlank ·) = ['='] := by
    rw [List.filter_reverse, List.reverse_eq_iff]
    rfl
  rw [Bool.eq_iff_iff, isThin, isThin, List.contains_iff_mem, List.contains_iff_mem]
  simp only [List.mem_cons, List.not_mem_nil, or_false, hnil, hequals]

theorem eq_equals_of_isThin {t : Text} (h : isThin t = true) {c : Char} (hc : c ∈ t) :
    Text.isBlank c = true ∨ c = '=' := by
  by_cases hblank : Text.isBlank c = true
  · exact Or.inl hblank
  · have hmem : c ∈ t.filter (!Text.isBlank ·) := List.mem_filter.2 ⟨hc, by simpa using hblank⟩
    rw [isThin, List.contains_iff_mem, List.mem_cons, List.mem_singleton] at h
    rcases h with hnil | hequals
    · rw [hnil] at hmem
      simp at hmem
    · rw [hequals] at hmem
      exact Or.inr (List.mem_singleton.1 hmem)

/-- Whether the look behind a literal with the given opening quote gets into a comment: nothing
stops it between the end of the comment and the quote. -/
def seesComment (d : Detection) (text : Text) (quote : Nat) : Bool :=
  (scanAll d.marks text).any fun l =>
    decide (l.kind = .comment) && decide (l.stop < quote) &&
      decide (quote < l.stop + d.limits.argumentLookback) &&
      isThin (text.slice (l.stop + 1) quote)

/-- What stands behind a newline has no say unless everything before it is passed over. -/
theorem nameBeforeEquals?_append {s : Text} (hs : isThin s = false) (a b : Text) :
    nameBeforeEquals? (s ++ '\n' :: a) = nameBeforeEquals? (s ++ '\n' :: b) := by
  have hthin : s.filter (!Text.isBlank ·) ≠ [] ∧ s.filter (!Text.isBlank ·) ≠ ['='] := by
    simpa [isThin] using hs
  have hfilter := Text.filter_trimLeft s
  cases htrim : Text.trimLeft s with
  | nil =>
      rw [htrim] at hfilter
      exact absurd hfilter.symm hthin.1
  | cons c rest =>
      have hne : Text.trimLeft s ≠ [] := by simp [htrim]
      simp only [nameBeforeEquals?, Text.trimLeft_append hne, htrim, List.cons_append]
      by_cases hc : c = '='
      · subst hc
        have hrest : Text.trimLeft rest ≠ [] := by
          intro hnil
          have hblank := Text.filter_trimLeft rest
          rw [htrim, List.filter_cons_of_pos (by decide), ← hblank, hnil] at hfilter
          exact hthin.2 hfilter.symm
        -- the name ends at the newline at the latest
        have hname : ∀ v, (Text.trimLeft rest ++ '\n' :: v).takeWhile Text.isNameChar =
            (Text.trimLeft rest).takeWhile Text.isNameChar := by
          intro v
          have hnewline : Text.isNameChar '\n' = false := by decide
          rw [List.takeWhile_append]
          split
          · next hlen =>
              rw [List.takeWhile_cons_of_neg (by simp [hnewline]), List.append_nil]
              exact ((List.takeWhile_prefix _).eq_of_length hlen).symm
          · rfl
        simp only [Text.trimLeft_append hrest, hname]
      · simp [hc]

end Call

/-! ### Two texts with the marks of R -/

theorem Marks.opens?_r_of_isBlank {c : Char} (h : Text.isBlank c = true) :
    Marks.r.opens? c = none := by
  cases hopen : Marks.r.opens? c with
  | none => rfl
  | some kind =>
      have hmark : c = '"' ∨ c = '\'' ∨ c = '\x60' ∨ c = '#' := by
        simp only [Marks.opens?, Marks.r, List.mem_cons, List.not_mem_nil, or_false] at hopen
        by_contra hc
        simp only [not_or] at hc
        simp [hc] at hopen
      rcases hmark with rfl | rfl | rfl | rfl <;> exact absurd h (by decide)

/-- The literal that covers an offset. -/
theorem Literal.containing?_eq_some {x : Text} {l : Literal} (hl : l ∈ scanAll m x) {o : Nat}
    (hlo : l.start ≤ o) (hhi : o ≤ l.stop) : containing? (scanAll m x) o = some l := by
  have hscan := scanned_scanAll m x
  exact (containing?_eq_some_iff (hscan.pairwise.imp fun h => h.2)
    fun a ha => (hscan.within ha).start_le).2 ⟨hl, hlo, hhi⟩

/-- An offset that no literal covers is in code. -/
theorem Literal.run_take_of_containing? {x : Text} {o : Nat} (ho : o ≤ x.length)
    (h : containing? (scanAll m x) o = none) : Reading.code.run m (x.take o) = .code := by
  rw [← Reading.kind?_eq_none_iff, (scanned_scanAll m x).kind?_run ho, Nat.zero_add]
  cases hfind : (scanAll m x).find? (·.covers o) with
  | none => rfl
  | some l =>
      have hcovers := List.find?_some hfind
      simp only [covers, Bool.and_eq_true, decide_eq_true_eq] at hcovers
      rw [containing?_eq_some (List.mem_of_find?_eq_some hfind) (by omega) hcovers.2] at h
      simp at h

/-- Reading on from code over what opens nothing. -/
theorem Literal.run_take_add {x : Text} {k n : Nat} (h : Reading.code.run m (x.take k) = .code)
    (hn : ∀ c ∈ (x.drop k).take n, m.opens? c = none) :
    Reading.code.run m (x.take (k + n)) = .code := by
  rw [List.take_add, Reading.run_append, h, Reading.run_code hn]

namespace Call

variable {d : Detection} {f : String} {x : Text} {start : Nat}

/-- Behind a name that stands in code, the text goes on in code. -/
theorem run_take_nameEnd (hd : d.marks = Marks.r) (hf : isPlainName Marks.r f.toList = true)
    (hstart : start ∈ Region.codeOccurrences d x f) :
    Reading.code.run Marks.r (x.take (start + f.length)) = .code := by
  rw [Region.codeOccurrences, List.mem_filter, hd, Option.isNone_iff_eq_none] at hstart
  obtain ⟨hmem, hcode⟩ := hstart
  obtain ⟨k, hk, rfl, v, hv⟩ := exists_of_mem_occurrencesFrom hmem
  simp only [Text.slice_zero_length, Nat.zero_add] at hk hv hcode ⊢
  refine run_take_add (run_take_of_containing? hk hcode) fun c hc => ?_
  rw [← hv, ← String.length_toList, List.take_left] at hc
  exact (isPlainName_iff.1 hf c hc).1

theorem getElem?_openDistance? {t : Text} {n : Nat} (h : Bracket.openDistance? t = some n) :
    t[n]? = some '(' := by
  fun_induction Bracket.openDistance? t generalizing n with
  | case1 => simp at h
  | case2 =>
      obtain rfl : 0 = n := by simpa using h
      rfl
  | case3 c rest _ _ ih =>
      obtain ⟨k, hk, rfl⟩ := Option.map_eq_some_iff.1 h
      simpa using ih hk
  | case4 => simp at h

/-- The opening parenthesis of a call. -/
theorem getElem?_openingAt? {opening : Nat} (h : openingAt? d x f start = some opening) :
    x[opening]? = some '(' := by
  obtain ⟨n, hn, rfl⟩ := Option.map_eq_some_iff.1 h
  have hlt := Bracket.openDistance?_lt hn
  have hparen := getElem?_openDistance? hn
  rw [List.length_take] at hlt
  rwa [List.getElem?_take_of_lt (by omega), List.getElem?_drop] at hparen

/-- So it does at its parenthesis, and behind it. -/
theorem run_take_opening (hd : d.marks = Marks.r) (hf : isPlainName Marks.r f.toList = true)
    (hstart : start ∈ Region.codeOccurrences d x f) {opening : Nat}
    (hopening : openingAt? d x f start = some opening) :
    Reading.code.run Marks.r (x.take opening) = .code ∧
      Reading.code.run Marks.r (x.take (opening + 1)) = .code := by
  have hparen := getElem?_openingAt? hopening
  obtain ⟨n, hn, rfl⟩ := Option.map_eq_some_iff.1 hopening
  have hlt := Bracket.openDistance?_lt hn
  rw [List.length_take] at hlt
  have hblank : ∀ c ∈ (x.drop (start + f.length)).take n, Marks.r.opens? c = none := by
    intro c hc
    obtain ⟨k, hk⟩ := List.mem_iff_getElem?.1 hc
    have hkn : k < n := by
      by_contra hle
      rw [List.getElem?_take_eq_none (by omega)] at hk
      simp at hk
    obtain ⟨e, he, hblank⟩ := isBlank_of_openDistance? hn hkn
    rw [List.getElem?_take_of_lt (by omega)] at he hk
    obtain rfl := Option.some.inj (he.symm.trans hk)
    exact Marks.opens?_r_of_isBlank hblank
  have hcode := run_take_add (run_take_nameEnd hd hf hstart) hblank
  refine ⟨hcode, ?_⟩
  rw [run_take_succ hparen, hcode]
  decide

end Call

namespace Literal.UpToComments

variable {d : Detection} {f : String} {x y : Text} (h : UpToComments Marks.r x y)

include h

/-- **Names in code** are found alike. -/
theorem codeOccurrences_eq (hd : d.marks = Marks.r)
    (hf : Call.isPlainName Marks.r f.toList = true) :
    Region.codeOccurrences d x f = Region.codeOccurrences d y f := by
  simp only [Region.codeOccurrences, Call.occurrences, hd, ← h.literals, Text.slice_zero_length]
  refine Call.filter_occurrencesFrom_eq hf h.alike ?_ ⟨fun _ => ⟨rfl, rfl⟩, by simp, by simp⟩
  intro k hk hcomment
  rw [Nat.zero_add]
  cases hcontaining : containing? (scanAll Marks.r x) k with
  | some l => rfl
  | none =>
      rw [run_take_of_containing? hk hcontaining] at hcomment
      simp at hcomment

/-- **The calls** of names in code are found alike. -/
theorem at?_eq (hd : d.marks = Marks.r) (hf : Call.isPlainName Marks.r f.toList = true)
    {start : Nat} (hstart : start ∈ Region.codeOccurrences d x f) :
    Call.at? d x f start = Call.at? d y f start := by
  have hend := h.alike_drop (Call.run_take_nameEnd hd hf hstart)
  have hopening : Call.openingAt? d x f start = Call.openingAt? d y f start := by
    rw [Call.openingAt?, Call.openingAt?, Bracket.callOpen?, Bracket.callOpen?,
      Bracket.openDistance?_eq (fun _ => Marks.opens?_r_of_isBlank) hend (by simp)]
  rw [Call.at?, Call.at?, ← hopening]
  cases hopen : Call.openingAt? d x f start with
  | none => rfl
  | some opening =>
      have hparen := h.alike_drop (Call.run_take_opening hd hf hstart hopen).1
      simp only [Option.map_some, Call.stopOf, hd,
        Bracket.matchingClose?_eq (by decide) (by decide) hparen, h.length]

/-- A difference before a literal lies in a comment that ends before the literal. -/
theorem exists_comment {l : Literal} (hl : l ∈ scanAll Marks.r x) {j : Nat} (hj : j < l.start)
    (hne : x[j]? ≠ y[j]?) :
    ∃ c ∈ scanAll Marks.r x, c.kind = .comment ∧ j < c.stop ∧ c.stop < l.start ∧
      x[c.stop]? = some '\n' := by
  have hscan := scanned_scanAll Marks.r x
  obtain ⟨c, hc, hkind, hlo, hhi⟩ := h.agree j hne
  have hother : c ≠ l := by
    rintro rfl
    omega
  have hle := (hscan.within hl).start_le
  have hlt := (hscan.within hl).start_lt
  have hstop : c.stop < l.start := by
    have hapart := hscan.apart hc hl hother
    omega
  have hclosed : c.closed = true := by
    by_contra hopen
    have := (hscan.within hc).stop_eq (by simpa using hopen)
    omega
  exact ⟨c, hc, hkind, hhi, hstop, newline_of_comment hc hkind hclosed (by omega)⟩

/-- **The names of arguments** are found alike where no comment is seen. -/
theorem namedArgument?_eq (hd : d.marks = Marks.r) {l : Literal} (hl : l ∈ scanAll Marks.r x)
    (hsees : Call.seesComment d x l.start = false) :
    Call.namedArgument? x l.start d.limits.argumentLookback =
      Call.namedArgument? y l.start d.limits.argumentLookback := by
  rw [Call.namedArgument?, Call.namedArgument?]
  generalize hlow : l.start - d.limits.argumentLookback = lo
  rcases exists_last_difference x y l.start with hall | ⟨j, hj, hne, hlast⟩
  · rw [Text.slice_eq_of_forall fun k _ hk => hall k hk]
  · by_cases hlo : lo ≤ j
    · obtain ⟨c, hc, hkind, hjc, hcl, hnewline⟩ := h.exists_comment hl hj hne
      have hnewline' : y[c.stop]? = some '\n' := hlast c.stop hjc hcl ▸ hnewline
      have hbehind : x.slice (c.stop + 1) l.start = y.slice (c.stop + 1) l.start :=
        Text.slice_eq_of_forall fun k hk hkl => hlast k (by omega) hkl
      -- the comment is in reach, so something stops the look behind the literal
      have hthin : Call.isThin (x.slice (c.stop + 1) l.start) = false := by
        rw [Call.seesComment, hd, List.any_eq_false] at hsees
        have hreach : l.start < c.stop + d.limits.argumentLookback := by omega
        simpa [hkind, hcl, hreach] using hsees c hc
      rw [Text.slice_cut (by omega) hcl hnewline, Text.slice_cut (by omega) hcl hnewline',
        ← hbehind]
      simp only [List.reverse_append, List.reverse_cons, List.append_assoc, List.singleton_append]
      exact Call.nameBeforeEquals?_append (by rwa [Call.isThin_reverse]) _ _
    · rw [Text.slice_eq_of_forall fun k hk hkl => hlast k (by omega) hkl]

/-- Whether a comment is seen does not depend on what it says. -/
theorem seesComment_of_seesComment (hd : d.marks = Marks.r) {quote : Nat}
    (hsees : Call.seesComment d x quote = true) : Call.seesComment d y quote = true := by
  have hscan := scanned_scanAll Marks.r x
  simp only [Call.seesComment, hd, List.any_eq_true, Bool.and_eq_true, decide_eq_true_eq] at hsees ⊢
  obtain ⟨c, hc, ⟨⟨hkind, hstop⟩, hreach⟩, hthin⟩ := hsees
  refine ⟨c, h.literals ▸ hc, ⟨⟨hkind, hstop⟩, hreach⟩, ?_⟩
  rwa [← Text.slice_eq_of_forall]
  intro k hk hkq
  by_contra hne
  -- another comment would start in between, and its mark is no blank
  obtain ⟨e, he, hcomment, hlo, hhi⟩ := h.agree k hne
  have hother : c ≠ e := by
    rintro rfl
    omega
  have hle := (hscan.within hc).start_le
  have hbetween : c.stop < e.start := by
    have hapart := hscan.apart hc he hother
    omega
  obtain ⟨hmark, hopen⟩ := hscan.opens he
  rw [Nat.sub_zero] at hmark
  have hmem : e.mark ∈ x.slice (c.stop + 1) quote := by
    rw [Text.slice_cut (show c.stop + 1 ≤ e.start by omega) (by omega) hmark]
    simp
  rcases Call.eq_equals_of_isThin hthin hmem with hblank | hequals
  · rw [Marks.opens?_r_of_isBlank hblank] at hopen
    simp at hopen
  · simp [hequals, Marks.opens?, Marks.r] at hopen

theorem seesComment_eq (hd : d.marks = Marks.r) (quote : Nat) :
    Call.seesComment d x quote = Call.seesComment d y quote :=
  Bool.eq_iff_iff.2 ⟨h.seesComment_of_seesComment hd, h.symm.seesComment_of_seesComment hd⟩

end Literal.UpToComments

end EmbeddedSql
