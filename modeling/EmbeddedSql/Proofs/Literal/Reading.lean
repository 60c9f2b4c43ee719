/-
**Texts that are read alike.**

A reader of R source goes from character to character and stands in code, in a string or in a
comment.  Two texts that differ inside comments only take it through the same places.  This is
stated as a relation with one constructor per character, so that whatever else reads the two texts
can be compared by induction over it.

Main definitions:

* `Literal.Reading`, `Literal.Reading.step` — where a reader stands, and where one character takes
  it;
* `Literal.Reading.codeOf` — what the reader sees of the code of a text;
* `Literal.InCode` — an offset that no literal covers;
* `Literal.Alike` — two texts that are read alike;
* `Literal.UpToComments` — two texts with the same literals that differ inside comments only.

Main results:

* `Literal.Scanned.kind?_run` — **the reader stands in a literal** exactly where the scan has one;
* `Literal.Scanned.getElem?_codeOf` — so what it sees are the characters outside of all literals;
* `Literal.UpToComments.alike` — **texts that differ inside comments are read alike**;
* `Literal.Alike.drop` — and so is what is left of them at any offset.
-/

import EmbeddedSql.Proofs.Literal.Splice

set_option relaxedAutoImplicit false
set_option autoImplicit false

namespace EmbeddedSql.Literal

/-! ### The reader -/

/-- Where a reader of R source stands. -/
inductive Reading where
  | code
  | string (quote : Char)
  /-- In a string, behind a backslash. -/
  | escaped (quote : Char)
  | comment
  deriving DecidableEq

namespace Reading

/-- Behind the mark of a literal.  A newline that marks a comment is the whole comment. -/
def entered (mark : Char) : LiteralKind → Reading
  | .string => .string mark
  | .comment => if mark = '\n' then .code else .comment

/-- Behind one more character. -/
def step (m : Marks) : Reading → Char → Reading
  | .code, c => ((m.opens? c).map (entered c)).getD .code
  | .string q, c => if c = '\\' then .escaped q else if c = q then .code else .string q
  | .escaped q, _ => .string q
  | .comment, c => if c = '\n' then .code else .comment

/-- Behind a text. -/
def run (m : Marks) (r : Reading) (t : Text) : Reading :=
  t.foldl (step m) r

/-- The literal that the reader stands in. -/
def kind? : Reading → Option LiteralKind
  | .code => none
  | .string _ => some .string
  | .escaped _ => some .string
  | .comment => some .comment

variable (m : Marks)

@[simp] theorem run_nil (r : Reading) : r.run m [] = r := rfl

@[simp] theorem run_cons (r : Reading) (c : Char) (t : Text) :
    r.run m (c :: t) = (r.step m c).run m t := rfl

theorem run_append (r : Reading) (s t : Text) : r.run m (s ++ t) = (r.run m s).run m t := by
  simp [run]

theorem kind?_eq_none_iff {r : Reading} : r.kind? = none ↔ r = .code := by
  cases r <;> simp [kind?]

theorem kind?_eq_comment_iff {r : Reading} : r.kind? = some .comment ↔ r = .comment := by
  cases r <;> simp [kind?]

theorem kind?_run_string {q : Char} {t : Text} {k : Nat}
    (h : ∀ n, closingDistance? q t = some n → k ≤ n) :
    ((string q).run m (t.take k)).kind? = some .string := by
  fun_induction closingDistance? q t generalizing k with
  | case1 => simp [kind?]
  | case2 => cases k <;> simp [step, kind?]
  | case3 d rest ih =>
      rcases k with _ | _ | k
      · simp [kind?]
      · simp [step, kind?]
      · have hrest : ∀ n, closingDistance? q rest = some n → k ≤ n := by
          intro n hn
          have hle := h (n + 2) (by simp [hn])
          omega
        simpa [step] using ih hrest
  | case4 rest hq =>
      obtain rfl : k = 0 := Nat.le_zero.1 (h 0 rfl)
      rfl
  | case5 c rest hc hq ih =>
      cases k with
      | zero => rfl
      | succ k =>
          have hrest : ∀ n, closingDistance? q rest = some n → k ≤ n := by
            intro n hn
            have hle := h (n + 1) (by simp [hn])
            omega
          simpa [step, hc, hq] using ih hrest

theorem run_string {q : Char} {t : Text} {n : Nat} (h : closingDistance? q t = some n) :
    (string q).run m (t.take (n + 1)) = .code := by
  fun_induction closingDistance? q t generalizing n with
  | case1 => simp at h
  | case2 => simp at h
  | case3 d rest ih =>
      obtain ⟨k, hk, rfl⟩ := Option.map_eq_some_iff.1 h
      simpa [step] using ih hk
  | case4 rest hq =>
      obtain rfl : 0 = n := by simpa using h
      simp [step, hq]
  | case5 c rest hc hq ih =>
      obtain ⟨k, hk, rfl⟩ := Option.map_eq_some_iff.1 h
      simpa [step, hc, hq] using ih hk

theorem kind?_run_comment {t : Text} {k : Nat}
    (h : ∀ n, t.findIdx? (· == '\n') = some n → k ≤ n) :
    (comment.run m (t.take k)).kind? = some .comment := by
  induction t generalizing k with
  | nil => simp [kind?]
  | cons c t ih =>
      cases k with
      | zero => rfl
      | succ k =>
          have hc : c ≠ '\n' := by
            intro hc
            have hle := h 0 (by simp [hc, List.findIdx?_cons])
            omega
          have hrest : ∀ n, t.findIdx? (· == '\n') = some n → k ≤ n := by
            intro n hn
            have hle := h (n + 1) (by simp [List.findIdx?_cons, hc, hn])
            omega
          simpa [step, hc] using ih hrest

theorem run_comment {t : Text} {n : Nat} (h : t.findIdx? (· == '\n') = some n) :
    comment.run m (t.take (n + 1)) = .code := by
  induction t generalizing n with
  | nil => simp at h
  | cons c t ih =>
      by_cases hc : c = '\n'
      · obtain rfl : 0 = n := by simpa [List.findIdx?_cons, hc] using h
        simp [step, hc]
      · obtain ⟨k, hk, rfl⟩ : ∃ k, t.findIdx? (· == '\n') = some k ∧ k + 1 = n := by
          simpa [List.findIdx?_cons, hc] using h
        simpa [step, hc] using ih hk

variable {m}

/-- The reader stays in a literal up to its end. -/
theorem kind?_run_entered {c : Char} {kind : LiteralKind} (hne : kind = .comment → c ≠ '\n')
    {t : Text} {k : Nat} (h : ∀ n, endDistance? c kind t = some n → k ≤ n) :
    ((entered c kind).run m (t.take k)).kind? = some kind := by
  cases kind with
  | string => exact kind?_run_string m h
  | comment => simpa [entered, hne rfl] using kind?_run_comment m h

/-- Behind the end of a literal the reader is in code again. -/
theorem run_entered {c : Char} {kind : LiteralKind} (hne : kind = .comment → c ≠ '\n') {t : Text}
    {n : Nat} (h : endDistance? c kind t = some n) :
    (entered c kind).run m (t.take (n + 1)) = .code := by
  cases kind with
  | string => exact run_string m h
  | comment => simpa [entered, hne rfl] using run_comment m h

theorem step_code_of_opens? {c : Char} {kind : LiteralKind} (h : m.opens? c = some kind) :
    code.step m c = entered c kind := by
  simp [step, h]

theorem step_code_of_opens?_none {c : Char} (h : m.opens? c = none) : code.step m c = .code := by
  simp [step, h]

end Reading

variable {m : Marks}

theorem eq_comment_of_opens? {c : Char} (h : m.opens? c = some .comment) : c = m.comment := by
  unfold Marks.opens? at h
  split at h
  · simp at h
  · split at h
    · assumption
    · simp at h

/-- Whether the literal runs over an offset. -/
def covers (l : Literal) (offset : Nat) : Bool :=
  l.start < offset && offset ≤ l.stop

theorem Scanned.find?_covers {i : Nat} {t : Text} {ls : List Literal} (h : Scanned m i t ls) :
    ls.find? (·.covers i) = none := by
  rw [List.find?_eq_none]
  intro l hl
  have hlo := (h.within hl).lo_le
  simp [covers]
  omega

/-- **The reader stands in a literal** exactly where the scan has one. -/
theorem Scanned.kind?_run {i : Nat} {t : Text} {ls : List Literal} (h : Scanned m i t ls) {k : Nat}
    (hk : k ≤ t.length) :
    (Reading.code.run m (t.take k)).kind? = (ls.find? (·.covers (i + k))).map (·.kind) := by
  induction h generalizing k with
  | nil i => simp [Reading.kind?]
  | @other i c t ls hopen h ih =>
      cases k with
      | zero =>
          rw [Nat.add_zero, (Scanned.other hopen h).find?_covers]
          rfl
      | succ k =>
          have hsum : i + (k + 1) = i + 1 + k := by omega
          rw [hsum, List.take_succ_cons, Reading.run_cons, Reading.step_code_of_opens?_none hopen]
          exact ih (by simpa using hk)
  | @newline i t ls hopen h ih =>
      cases k with
      | zero =>
          rw [Nat.add_zero, (Scanned.newline hopen h).find?_covers]
          rfl
      | succ k =>
          have hsum : i + (k + 1) = i + 1 + k := by omega
          have hhead : covers ⟨.comment, i, i, '\n', true⟩ (i + 1 + k) = false := by
            simp [covers]
          rw [hsum, List.take_succ_cons, Reading.run_cons, Reading.step_code_of_opens? hopen]
          simpa only [List.find?_cons, hhead, Reading.entered, if_true] using ih (by simpa using hk)
  | @closed i n c t kind ls hopen hne hend h ih =>
      cases k with
      | zero =>
          rw [Nat.add_zero, (Scanned.closed hopen hne hend h).find?_covers]
          rfl
      | succ k =>
          rw [List.take_succ_cons, Reading.run_cons, Reading.step_code_of_opens? hopen]
          by_cases hkn : k ≤ n
          · have hhead : covers ⟨kind, i, i + n + 1, c, true⟩ (i + (k + 1)) = true := by
              simp [covers]
              omega
            simp only [List.find?_cons, hhead, Option.map_some]
            refine Reading.kind?_run_entered hne fun n' hn' => ?_
            obtain rfl := Option.some.inj (hend.symm.trans hn')
            exact hkn
          · -- behind the literal
            obtain ⟨j, rfl⟩ := Nat.exists_eq_add_of_lt (Nat.lt_of_not_le hkn)
            have hsum : i + (n + j + 1 + 1) = i + n + 2 + j := by omega
            have hhead : covers ⟨kind, i, i + n + 1, c, true⟩ (i + n + 2 + j) = false := by
              simp [covers]
              omega
            have htake : n + j + 1 = n + 1 + j := by omega
            have hrest : j ≤ (t.drop (n + 1)).length := by
              simp only [List.length_cons, List.length_drop] at hk ⊢
              omega
            rw [hsum, htake, List.take_add, Reading.run_append, Reading.run_entered hne hend]
            simpa only [List.find?_cons, hhead] using ih hrest
  | @unclosed i c t kind hopen hne hend =>
      cases k with
      | zero =>
          rw [Nat.add_zero, (Scanned.unclosed hopen hne hend).find?_covers]
          rfl
      | succ k =>
          have hhead : covers ⟨kind, i, i + t.length + 1, c, false⟩ (i + (k + 1)) = true := by
            simp [covers] at hk ⊢
            omega
          rw [List.take_succ_cons, Reading.run_cons, Reading.step_code_of_opens? hopen,
            Reading.kind?_run_entered hne (by simp [hend])]
          simp only [List.find?_cons, hhead, Option.map_some]

/-! ### Code -/

/-- An offset stands in code: no literal covers it, its ends included. -/
def InCode (ls : List Literal) (offset : Nat) : Prop :=
  ∀ l ∈ ls, ¬ (l.start ≤ offset ∧ offset ≤ l.stop)

instance (ls : List Literal) (offset : Nat) : Decidable (InCode ls offset) :=
  inferInstanceAs (Decidable (∀ l ∈ ls, ¬ (l.start ≤ offset ∧ offset ≤ l.stop)))

/-- A character stands in code if the reader is in code before it and it opens nothing. -/
theorem Scanned.inCode_iff (hm : m.comment ≠ '\n') {i : Nat} {t : Text} {ls : List Literal}
    (h : Scanned m i t ls) {k : Nat} {c : Char} (hc : t[k]? = some c) :
    InCode ls (i + k) ↔ Reading.code.run m (t.take k) = .code ∧ m.opens? c = none := by
  obtain ⟨hk, -⟩ := List.getElem?_eq_some_iff.1 hc
  have hread : ∀ {k}, k ≤ t.length → (Reading.code.run m (t.take k) = .code ↔
      ∀ l ∈ ls, l.covers (i + k) = false) := by
    intro k hk
    rw [← Reading.kind?_eq_none_iff, h.kind?_run hk, Option.map_eq_none_iff, List.find?_eq_none]
    simp
  constructor
  · intro hcode
    have hhere : Reading.code.run m (t.take k) = .code := by
      refine (hread (Nat.le_of_lt hk)).2 fun l hl => ?_
      have hnot := hcode l hl
      simp [covers]
      omega
    refine ⟨hhere, Option.eq_none_iff_forall_ne_some.2 fun kind hopen => ?_⟩
    -- behind a mark the reader is in its literal, which covers the mark
    have hnext : Reading.code.run m (t.take (k + 1)) ≠ .code := by
      rw [List.take_add_one, hc, Reading.run_append, hhere]
      cases kind with
      | string => simp [Reading.step, hopen, Reading.entered]
      | comment =>
          have hne : c ≠ '\n' := by
            rintro rfl
            exact hm (eq_comment_of_opens? hopen).symm
          simp [Reading.step, hopen, Reading.entered, hne]
    refine hnext ((hread hk).2 fun l hl => ?_)
    have hnot := hcode l hl
    simp [covers]
    omega
  · rintro ⟨hhere, hopen⟩ l hl ⟨hlo, hhi⟩
    have hcovers := (hread (Nat.le_of_lt hk)).1 hhere l hl
    obtain ⟨hmark, hkind⟩ := h.opens hl
    obtain hstart : l.start = i + k := by
      simp [covers] at hcovers
      omega
    rw [hstart, Nat.add_sub_cancel_left, hc] at hmark
    rw [← Option.some.inj hmark, hopen] at hkind
    simp at hkind

namespace Reading

/-- What the reader sees of the code of a text: characters of literals are blotted out. -/
def codeOf (m : Marks) : Reading → Text → List (Option Char)
  | _, [] => []
  | r, c :: t =>
    (if r = .code ∧ m.opens? c = none then some c else none) :: codeOf m (r.step m c) t

theorem codeOf_take (r : Reading) (t : Text) (n : Nat) :
    codeOf m r (t.take n) = (codeOf m r t).take n := by
  induction t generalizing r n with
  | nil => simp [codeOf]
  | cons c t ih =>
      cases n with
      | zero => simp [codeOf]
      | succ n => rw [List.take_succ_cons, codeOf, codeOf, List.take_succ_cons, ih]

theorem getElem?_codeOf (r : Reading) (t : Text) (k : Nat) :
    (codeOf m r t)[k]? = t[k]?.map fun c =>
      if r.run m (t.take k) = .code ∧ m.opens? c = none then some c else none := by
  induction t generalizing r k with
  | nil => simp [codeOf]
  | cons c t ih =>
      cases k with
      | zero => rfl
      | succ k => exact ih (r.step m c) k

end Reading

/-- The reader sees the characters outside of all literals. -/
theorem Scanned.getElem?_codeOf (hm : m.comment ≠ '\n') {i : Nat} {t : Text} {ls : List Literal}
    (h : Scanned m i t ls) (k : Nat) :
    (Reading.codeOf m .code t)[k]? = t[k]?.map fun c =>
      if InCode ls (i + k) then some c else none := by
  rw [Reading.getElem?_codeOf]
  cases hc : t[k]? with
  | none => rfl
  | some c => simp only [Option.map_some, h.inCode_iff hm hc]

/-! ### Comments -/

/-- Two literals stand apart. -/
theorem Scanned.apart {i : Nat} {t : Text} {ls : List Literal} (h : Scanned m i t ls)
    {x y : Literal} (hx : x ∈ ls) (hy : y ∈ ls) (hne : x ≠ y) :
    x.stop < y.start ∨ y.stop < x.start := by
  obtain ⟨a, ha, rfl⟩ := List.mem_iff_getElem.1 hx
  obtain ⟨b, hb, rfl⟩ := List.mem_iff_getElem.1 hy
  have hpair := List.pairwise_iff_getElem.1 h.pairwise
  rcases Nat.lt_trichotomy a b with hab | rfl | hab
  · exact Or.inl (hpair a b ha hb hab).2
  · exact absurd rfl hne
  · exact Or.inr (hpair b a hb ha hab).2

theorem Scanned.find?_covers_eq_some {i : Nat} {t : Text} {ls : List Literal}
    (h : Scanned m i t ls) {l : Literal} (hl : l ∈ ls) {offset : Nat}
    (hoffset : l.covers offset = true) : ls.find? (·.covers offset) = some l := by
  cases hfind : ls.find? (·.covers offset) with
  | none => exact absurd hoffset (List.find?_eq_none.1 hfind l hl)
  | some x =>
      have hx := List.find?_eq_some_iff_append.1 hfind
      by_contra hne
      have happart := h.apart (List.mem_of_find?_eq_some hfind) hl (fun heq => hne (heq ▸ rfl))
      simp only [covers, Bool.and_eq_true, decide_eq_true_eq] at hoffset hx
      omega

/-- Inside a comment the reader stands in a comment. -/
theorem run_take_of_comment {x : Text} {l : Literal} (hl : l ∈ scanAll m x)
    (hkind : l.kind = .comment) {k : Nat} (hk : l.covers k = true) :
    Reading.code.run m (x.take k) = .comment := by
  have hscan := scanned_scanAll m x
  have hle : k ≤ x.length := by
    have hwithin := hscan.within hl
    simp only [covers, Bool.and_eq_true, decide_eq_true_eq] at hk
    cases hc : l.closed with
    | true => have := hwithin.stop_lt hc; omega
    | false => have := hwithin.stop_eq hc; omega
  have hread := hscan.kind?_run hle
  rw [Nat.zero_add, hscan.find?_covers_eq_some hl hk] at hread
  exact Reading.kind?_eq_comment_iff.1 (hread.trans (congrArg some hkind))

theorem run_take_succ {x : Text} {k : Nat} {c : Char} (hc : x[k]? = some c) (r : Reading) :
    r.run m (x.take (k + 1)) = (r.run m (x.take k)).step m c := by
  rw [List.take_add_one, hc, Reading.run_append]
  rfl

/-- A comment holds no newline. -/
theorem ne_newline_of_comment {x : Text} {l : Literal} (hl : l ∈ scanAll m x)
    (hkind : l.kind = .comment) {k : Nat} (hlo : l.start < k) (hhi : k < l.stop) :
    x[k]? ≠ some '\n' := by
  intro hget
  have hhere := run_take_of_comment hl hkind (k := k) (by simp [covers]; omega)
  have hnext := run_take_of_comment hl hkind (k := k + 1) (by simp [covers]; omega)
  rw [run_take_succ hget, hhere] at hnext
  simp [Reading.step] at hnext

/-- A comment that is closed ends with a newline. -/
theorem newline_of_comment {x : Text} {l : Literal} (hl : l ∈ scanAll m x)
    (hkind : l.kind = .comment) (hclosed : l.closed = true) (hlt : l.start < l.stop) :
    x[l.stop]? = some '\n' := by
  have hscan := scanned_scanAll m x
  have hstop := (hscan.within hl).stop_lt hclosed
  rw [Nat.zero_add] at hstop
  have hget := List.getElem?_eq_getElem hstop
  -- behind its end the reader stands in code again
  have hnone : (scanAll m x).find? (·.covers (l.stop + 1)) = none := by
    rw [List.find?_eq_none]
    intro y hy
    by_cases heq : l = y
    · subst heq
      simp [covers]
    · have happart := hscan.apart hl hy heq
      have hle := (hscan.within hy).start_le
      simp [covers]
      omega
  have hread := hscan.kind?_run (k := l.stop + 1) hstop
  rw [Nat.zero_add, hnone, run_take_succ hget,
    run_take_of_comment hl hkind (by simp [covers]; omega)] at hread
  by_contra hne
  have hne : x[l.stop] ≠ '\n' := by simpa [hget] using hne
  simp [Reading.step, hne, Reading.kind?] at hread

/-! ### Two texts -/

/-- Two texts that take the reader through the same places: they differ inside comments only. -/
inductive Alike (m : Marks) : Reading → Text → Text → Prop
  | nil (r : Reading) : Alike m r [] []
  | same {r : Reading} {c : Char} {t u : Text} (h : Alike m (r.step m c) t u) :
      Alike m r (c :: t) (c :: u)
  | hidden {c c' : Char} {t u : Text} (hc : c ≠ '\n') (hc' : c' ≠ '\n')
      (h : Alike m .comment t u) : Alike m .comment (c :: t) (c' :: u)

theorem alike_of_forall {r : Reading} {t u : Text} (hlen : t.length = u.length)
    (h : ∀ k, t[k]? = u[k]? ∨
      r.run m (t.take k) = .comment ∧ t[k]? ≠ some '\n' ∧ u[k]? ≠ some '\n') : Alike m r t u := by
  induction t generalizing r u with
  | nil =>
      obtain rfl : u = [] := List.eq_nil_of_length_eq_zero hlen.symm
      exact Alike.nil r
  | cons c t ih =>
      cases u with
      | nil => simp at hlen
      | cons c' u =>
          have hrest : t.length = u.length := by simpa using hlen
          by_cases hc : c = c'
          · subst hc
            exact Alike.same (ih hrest fun k => h (k + 1))
          · obtain hsame | ⟨hr, hc₁, hc₂⟩ := h 0
            · exact absurd (by simpa using hsame) hc
            · obtain rfl : r = .comment := hr
              have hc₁ : c ≠ '\n' := by simpa using hc₁
              have hc₂ : c' ≠ '\n' := by simpa using hc₂
              refine Alike.hidden hc₁ hc₂ (ih hrest fun k => ?_)
              simpa [Reading.step, hc₁] using h (k + 1)

/-- What is left of two such texts at an offset. -/
theorem Alike.drop {r : Reading} {t u : Text} (h : Alike m r t u) (k : Nat) :
    Alike m (r.run m (t.take k)) (t.drop k) (u.drop k) := by
  induction h generalizing k with
  | nil r => simpa using Alike.nil r
  | @same r c t u h ih =>
      cases k with
      | zero => exact Alike.same h
      | succ k => exact ih k
  | @hidden c c' t u hc hc' h ih =>
      cases k with
      | zero => exact Alike.hidden hc hc' h
      | succ k => simpa [Reading.step, hc] using ih k

/-- Of two such texts the reader sees the same code. -/
theorem Alike.codeOf_eq {r : Reading} {t u : Text} (h : Alike m r t u) :
    Reading.codeOf m r t = Reading.codeOf m r u := by
  induction h with
  | nil r => rfl
  | same _ ih => rw [Reading.codeOf, Reading.codeOf, ih]
  | hidden hc hc' _ ih => simp [Reading.codeOf, Reading.step, hc, hc', ih]

/-- Two texts of the same length with the same literals, which differ inside comments only. -/
structure UpToComments (m : Marks) (x y : Text) : Prop where
  length : x.length = y.length
  literals : scanAll m x = scanAll m y
  agree : ∀ i, x[i]? ≠ y[i]? → ∃ l ∈ scanAll m x, l.kind = .comment ∧ l.start < i ∧ i < l.stop

instance (m : Marks) (x y : Text) : Decidable (UpToComments m x y) :=
  decidable_of_iff
    (x.length = y.length ∧ scanAll m x = scanAll m y ∧
      ∀ i < x.length, x[i]? ≠ y[i]? →
        ∃ l ∈ scanAll m x, l.kind = .comment ∧ l.start < i ∧ i < l.stop)
    ⟨fun ⟨hlen, hscan, hagree⟩ => ⟨hlen, hscan, fun i hi => by
      by_cases hlt : i < x.length
      · exact hagree i hlt hi
      · rw [List.getElem?_eq_none (by omega), List.getElem?_eq_none (by omega)] at hi
        exact absurd rfl hi⟩,
    fun h => ⟨h.length, h.literals, fun i _ => h.agree i⟩⟩

namespace UpToComments

variable {x y : Text} (h : UpToComments m x y)

include h

/-- **Texts that differ inside comments are read alike.** -/
theorem alike : Alike m .code x y := by
  refine alike_of_forall h.length fun k => ?_
  by_cases hk : x[k]? = y[k]?
  · exact Or.inl hk
  · obtain ⟨l, hl, hkind, hlo, hhi⟩ := h.agree k hk
    have hread := run_take_of_comment hl hkind (k := k) (by simp [covers]; omega)
    refine Or.inr ⟨hread, ne_newline_of_comment hl hkind hlo hhi, ?_⟩
    exact ne_newline_of_comment (h.literals ▸ hl) hkind hlo hhi

/-- At an offset in code both texts go on in code. -/
theorem alike_drop {k : Nat} (hk : Reading.code.run m (x.take k) = .code) :
    Alike m .code (x.drop k) (y.drop k) := by
  have hdrop := h.alike.drop k
  rwa [hk] at hdrop

theorem symm : UpToComments m y x := by
  refine ⟨h.length.symm, h.literals.symm, fun i hi => ?_⟩
  obtain ⟨l, hl, hcomment⟩ := h.agree i (Ne.symm hi)
  exact ⟨l, h.literals ▸ hl, hcomment⟩

end UpToComments

end EmbeddedSql.Literal
