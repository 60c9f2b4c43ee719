/-
**Brackets that are still open.**

The survey adds up opening and closing brackets without asking which kind they are and whether they
pair up.  Of a text in which every bracket that closes something closes the bracket it belongs to,
this number says what one wants to know: it is the number of brackets that are still open, so it is
zero exactly if all brackets that were opened are closed again.

A text of this sort is a piece of a well-nested one.  It falls into well-nested parts with the
brackets between them that stay open (`Bracket.Pending`), which is what the number counts.

Main definitions:

* `Bracket.depth` — brackets opened less brackets closed;
* `Bracket.WellNested` — texts of brackets in which all brackets pair up;
* `Bracket.StillOpen` — a bracket that is opened and not closed again;
* `Bracket.Pending` — texts in which a number of brackets stay open;
* `Bracket.bracketsOutside` — the brackets that stand outside of literals.

Main results:

* `Bracket.exists_wellNested_iff` — the texts that begin a well-nested one;
* `Bracket.depth_eq_zero_iff` — **nothing is open if the brackets add up to zero**;
* `Bracket.netDepth_eq_depth` — the survey adds up the brackets outside of literals.
-/

import EmbeddedSql.Bracket
import EmbeddedSql.Proofs.Literal.Reading

set_option relaxedAutoImplicit false
set_option autoImplicit false

namespace EmbeddedSql.Bracket

open Literal

/-! ### Well-nested brackets -/

/-- An opening bracket and the closing bracket that belongs to it. -/
inductive Pair : Char → Char → Prop
  | round : Pair '(' ')'
  | square : Pair '[' ']'
  | curly : Pair '{' '}'

/-- Texts of brackets in which all brackets pair up. -/
inductive WellNested : Text → Prop
  | nil : WellNested []
  | enclose {o c : Char} {s t : Text} (h : Pair o c) (hs : WellNested s) (ht : WellNested t) :
      WellNested (o :: (s ++ c :: t))

/-- Brackets opened less brackets closed. -/
def depth : Text → Int
  | [] => 0
  | c :: s => delta c + depth s

variable {o c : Char} {s t u : Text} {k : Nat}

@[simp] theorem depth_nil : depth [] = 0 := rfl

@[simp] theorem depth_cons (c : Char) (s : Text) : depth (c :: s) = delta c + depth s := rfl

@[simp] theorem depth_append (s t : Text) : depth (s ++ t) = depth s + depth t := by
  induction s with
  | nil => simp
  | cons c s ih => simp [ih, Int.add_assoc]

theorem Pair.delta_opening (h : Pair o c) : delta o = 1 := by
  cases h <;> rfl

theorem Pair.delta_closing (h : Pair o c) : delta c = -1 := by
  cases h <;> rfl

namespace WellNested

theorem append (hs : WellNested s) (ht : WellNested t) : WellNested (s ++ t) := by
  induction hs with
  | nil => exact ht
  | enclose h hs _ _ ih =>
      rw [List.cons_append, List.append_assoc, List.cons_append]
      exact enclose h hs ih

theorem depth_eq_zero (h : WellNested s) : depth s = 0 := by
  induction h with
  | nil => rfl
  | enclose h _ _ ihs iht => simp [h.delta_opening, h.delta_closing, ihs, iht]

end WellNested

/-! ### Brackets that stay open -/

/-- Texts of brackets in which `k` brackets stay open and all others pair up. -/
inductive Pending : Nat → Text → Prop
  | closed {s : Text} (h : WellNested s) : Pending 0 s
  | opening {k : Nat} {o c : Char} {s t : Text} (hs : WellNested s) (h : Pair o c)
      (ht : Pending k t) : Pending (k + 1) (s ++ o :: t)

namespace Pending

theorem depth_eq (h : Pending k s) : depth s = k := by
  induction h with
  | closed h => exact h.depth_eq_zero
  | opening hs h _ ih =>
      simp [hs.depth_eq_zero, h.delta_opening, ih]
      omega

theorem append (hs : WellNested s) (ht : Pending k t) : Pending k (s ++ t) := by
  cases ht with
  | closed h => exact closed (hs.append h)
  | opening hs' h ht' =>
      rw [← List.append_assoc]
      exact opening (hs.append hs') h ht'

/-- What is open can be closed. -/
theorem exists_wellNested (h : Pending k s) : ∃ t, WellNested (s ++ t) := by
  induction h with
  | closed h => exact ⟨[], by rwa [List.append_nil]⟩
  | @opening k o c s t hs h _ ih =>
      obtain ⟨u, hu⟩ := ih
      refine ⟨u ++ [c], ?_⟩
      rw [List.append_assoc, List.cons_append, ← List.append_assoc t]
      exact hs.append (.enclose h hu .nil)

end Pending

/-- Every beginning of a well-nested text leaves some of its brackets open. -/
theorem WellNested.exists_pending (h : WellNested u) : ∀ s t, s ++ t = u → ∃ k, Pending k s := by
  induction h with
  | nil =>
      intro s t heq
      obtain ⟨rfl, -⟩ := List.append_eq_nil_iff.1 heq
      exact ⟨0, .closed .nil⟩
  | @enclose o c inner after h hinner _ ihinner ihafter =>
      intro s t heq
      cases s with
      | nil => exact ⟨0, .closed .nil⟩
      | cons d s =>
          rw [List.cons_append, List.cons.injEq] at heq
          obtain ⟨rfl, heq⟩ := heq
          rcases List.append_eq_append_iff.1 heq with ⟨rest, rfl, -⟩ | ⟨rest, rfl, hrest⟩
          · -- the text ends inside the first pair
            obtain ⟨k, hk⟩ := ihinner s rest rfl
            exact ⟨k + 1, .opening .nil h hk⟩
          · cases rest with
            | nil =>
                rw [List.append_nil]
                exact ⟨1, .opening .nil h (.closed hinner)⟩
            | cons e rest =>
                rw [List.cons_append, List.cons.injEq] at hrest
                obtain ⟨rfl, hrest⟩ := hrest
                obtain ⟨k, hk⟩ := ihafter rest t hrest.symm
                have hpair : WellNested (d :: (inner ++ [c])) := .enclose h hinner .nil
                exact ⟨k, by simpa using hk.append hpair⟩

/-- The texts that begin a well-nested one. -/
theorem exists_wellNested_iff : (∃ t, WellNested (s ++ t)) ↔ ∃ k, Pending k s :=
  ⟨fun ⟨t, ht⟩ => ht.exists_pending s t rfl, fun ⟨_, hk⟩ => hk.exists_wellNested⟩

/-- An opening bracket is closed in the text behind it: the bracket that belongs to it is there,
with well-nested brackets before it. -/
def ClosedIn (o : Char) (behind : Text) : Prop :=
  ∃ inner c after, Pair o c ∧ WellNested inner ∧ behind = inner ++ c :: after

/-- A bracket is opened at an index and not closed again. -/
def StillOpen (s : Text) (i : Nat) : Prop :=
  ∃ o c behind, Pair o c ∧ s.drop i = o :: behind ∧ ¬ ClosedIn o behind

theorem ClosedIn.append (h : ClosedIn o s) (t : Text) : ClosedIn o (s ++ t) := by
  obtain ⟨inner, c, after, hpair, hinner, rfl⟩ := h
  exact ⟨inner, c, after ++ t, hpair, hinner, by simp⟩

/-- What is still open in a text is open after a part of it already. -/
theorem StillOpen.of_append {i : Nat} (h : StillOpen (s ++ t) i) (hi : i < s.length) :
    StillOpen s i := by
  obtain ⟨o, c, behind, hpair, hdrop, hopen⟩ := h
  rw [List.drop_append_of_le_length (Nat.le_of_lt hi), List.drop_eq_getElem_cons hi,
    List.cons_append, List.cons.injEq] at hdrop
  obtain ⟨rfl, rfl⟩ := hdrop
  exact ⟨_, c, _, hpair, List.drop_eq_getElem_cons hi, fun hclosed => hopen (hclosed.append t)⟩

theorem stillOpen_append_right (j : Nat) : StillOpen (s ++ t) (s.length + j) ↔ StillOpen t j := by
  rw [StillOpen, StillOpen, List.drop_append, Nat.add_sub_cancel_left,
    List.drop_eq_nil_of_le (Nat.le_add_right _ _), List.nil_append]

theorem not_stillOpen_nil (i : Nat) : ¬ StillOpen [] i := by
  rintro ⟨o, c, behind, -, hdrop, -⟩
  simp at hdrop

/-- A closing bracket opens nothing. -/
theorem not_stillOpen_closing (h : Pair o c) : ¬ StillOpen (c :: t) 0 := by
  rintro ⟨o', c', behind, hpair, hdrop, -⟩
  obtain ⟨rfl, -⟩ : c = o' ∧ t = behind := by simpa using hdrop
  have hdelta := h.delta_closing.symm.trans hpair.delta_opening
  simp at hdelta

theorem WellNested.not_stillOpen (h : WellNested s) (i : Nat) : ¬ StillOpen s i := by
  induction h generalizing i with
  | nil => exact not_stillOpen_nil i
  | @enclose o c inner after h hinner _ ihinner ihafter =>
      cases i with
      | zero =>
          rintro ⟨o', c', behind, -, hdrop, hopen⟩
          obtain ⟨rfl, rfl⟩ : o = o' ∧ inner ++ c :: after = behind := by simpa using hdrop
          exact hopen ⟨inner, c, after, h, hinner, rfl⟩
      | succ i =>
          -- behind the first bracket
          intro hopen
          have hopen : StillOpen (inner ++ c :: after) i := hopen
          rcases Nat.lt_or_ge i inner.length with hi | hi
          · exact ihinner i (hopen.of_append hi)
          · obtain ⟨j, rfl⟩ := Nat.exists_eq_add_of_le hi
            rw [stillOpen_append_right] at hopen
            cases j with
            | zero => exact not_stillOpen_closing h hopen
            | succ j => exact ihafter j hopen

/-- A bracket is still open if all brackets behind it pair up or stay open. -/
theorem stillOpen_of_pending (h : Pair o c) (ht : Pending k t) (s : Text) :
    StillOpen (s ++ o :: t) s.length := by
  refine ⟨o, c, t, h, by simp, ?_⟩
  rintro ⟨inner, c', after, hpair, hinner, rfl⟩
  -- up to the bracket that closes it, one more would be closed than opened
  obtain ⟨rest, hrest⟩ := ht.exists_wellNested
  obtain ⟨n, hn⟩ := hrest.exists_pending (inner ++ [c']) (after ++ rest) (by simp)
  have hdepth := hn.depth_eq
  simp [hinner.depth_eq_zero, hpair.delta_closing] at hdepth

/-- **Nothing is open if the brackets add up to zero**, and the other way round, in a text that
begins a well-nested one. -/
theorem depth_eq_zero_iff (h : ∃ t, WellNested (s ++ t)) :
    depth s = 0 ↔ ∀ i, ¬ StillOpen s i := by
  obtain ⟨k, hk⟩ := exists_wellNested_iff.1 h
  cases hk with
  | closed hs => exact ⟨fun _ => hs.not_stillOpen, fun _ => hs.depth_eq_zero⟩
  | @opening k o c s t hs hpair ht =>
      have hopen := stillOpen_of_pending hpair ht s
      have hdepth := (Pending.opening hs hpair ht).depth_eq
      constructor
      · intro hzero
        omega
      · intro hnone
        exact absurd hopen (hnone _)

/-! ### Brackets outside of literals -/

/-- Whether a character is a bracket. -/
def isBracket (c : Char) : Bool :=
  ['(', ')', '[', ']', '{', '}'].contains c

theorem delta_eq_zero (h : isBracket c = false) : delta c = 0 := by
  have hne : c ≠ '(' ∧ c ≠ ')' ∧ c ≠ '[' ∧ c ≠ ']' ∧ c ≠ '{' ∧ c ≠ '}' := by
    simpa [isBracket] using h
  simp [delta, hne]

/-- The brackets that stand outside of the given literals, among the characters from offset `i`
on. -/
def bracketsOutside (ls : List Literal) (i : Nat) (t : Text) : Text :=
  ((t.zipIdx i).filter fun p => isBracket p.1 && decide (InCode ls p.2)).map Prod.fst

theorem bracketsOutside_congr {ls ls' : List Literal} {i : Nat}
    (h : ∀ offset, i ≤ offset → (InCode ls offset ↔ InCode ls' offset)) (t : Text) :
    bracketsOutside ls i t = bracketsOutside ls' i t := by
  unfold bracketsOutside
  refine congrArg _ (List.filter_congr fun p hp => ?_)
  have hle := (List.mem_zipIdx hp).1
  simp only [h p.2 hle]

theorem depth_bracketsOutside_cons (ls : List Literal) (i : Nat) (c : Char) (t : Text) :
    depth (bracketsOutside ls i (c :: t)) =
      (if InCode ls i then delta c else 0) + depth (bracketsOutside ls (i + 1) t) := by
  have hcons : bracketsOutside ls i (c :: t) =
      (if isBracket c && decide (InCode ls i) then [c] else []) ++
        bracketsOutside ls (i + 1) t := by
    simp only [bracketsOutside, List.zipIdx_cons, List.filter_cons]
    split <;> rfl
  rw [hcons]
  cases hc : isBracket c with
  | true => by_cases hcode : InCode ls i <;> simp [hcode]
  | false => simp [delta_eq_zero hc]

/-- The survey adds up the brackets outside of literals that are given in order. -/
theorem netDepth_eq_depth {ls : List Literal} (hls : ls.Pairwise fun a b => a.stop < b.start)
    (hle : ∀ l ∈ ls, l.start ≤ l.stop) {i : Nat} (hi : ∀ l ∈ ls, i ≤ l.stop) (t : Text) :
    netDepth ls i t = depth (bracketsOutside ls i t) := by
  induction t generalizing ls i with
  | nil => cases ls <;> rfl
  | cons c t ih =>
      rw [depth_bracketsOutside_cons]
      cases ls with
      | nil =>
          have hcode : InCode [] i := by simp [InCode]
          rw [netDepth, if_pos hcode, ih hls hle (by simp)]
      | cons l ls =>
          obtain ⟨hlater, hls'⟩ := List.pairwise_cons.1 hls
          obtain ⟨hl, hle'⟩ := List.forall_mem_cons.1 hle
          obtain ⟨hil, hi'⟩ := List.forall_mem_cons.1 hi
          have hbehind : ∀ x ∈ ls, l.stop < x.start ∧ x.start ≤ x.stop := fun x hx =>
            ⟨hlater x hx, hle' x hx⟩
          rw [netDepth]
          by_cases hbefore : i < l.start
          · -- in front of all literals
            have hcode : InCode (l :: ls) i := by
              refine List.forall_mem_cons.2 ⟨by omega, fun x hx => ?_⟩
              have hx := hbehind x hx
              omega
            rw [if_pos hbefore, if_pos hcode, ih hls hle]
            refine List.forall_mem_cons.2 ⟨by omega, fun x hx => ?_⟩
            have hx := hbehind x hx
            omega
          · have hnocode : ¬ InCode (l :: ls) i := fun hcode =>
              hcode l List.mem_cons_self ⟨by omega, hil⟩
            rw [if_neg hbefore, if_neg hnocode, Int.zero_add]
            have hrest : ∀ x ∈ ls, i + 1 ≤ x.stop := fun x hx => by
              have hx := hbehind x hx
              omega
            by_cases hinside : i < l.stop
            · rw [if_pos hinside, ih hls hle (List.forall_mem_cons.2 ⟨hinside, hrest⟩)]
            · -- the literal ends here
              rw [if_neg hinside, ih hls' hle' hrest]
              refine congrArg depth (bracketsOutside_congr (fun offset hoffset => ?_) t)
              simp only [InCode, List.forall_mem_cons]
              exact ⟨fun hcode => ⟨by omega, hcode⟩, And.right⟩

end EmbeddedSql.Bracket
