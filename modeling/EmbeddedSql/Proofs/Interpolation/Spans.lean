/-
**The offsets of a hole.**

The offsets of the holes of a text come from a list of gaps and holes.  Here they are described by
the automaton alone: a hole is a longest stretch of offsets at which an interpolation is open, and
what follows it starts in a mode that does not depend on the expression.

Main definitions:

* `Interpolation.HoleAt` — a longest stretch of offsets with an interpolation open;
* `Interpolation.OpenAt` — such a stretch that lasts to the end of the text;
* `Interpolation.spansIn` — the spans of a text that is read from some mode on;
* `Interpolation.expressions` — the texts of the complete interpolations;
* `Interpolation.Mode.enclosing` — the quote of the SQL string around an offset.

Main results:

* `Interpolation.mem_spans_iff` — **the spans of a text are its holes**;
* `Interpolation.HoleAt.run_eq` — the mode behind a hole, by the mode before it;
* `Interpolation.HoleAt.left_or_right`, `Interpolation.holeAt_append_left`,
  `Interpolation.holeAt_append_right`, `Interpolation.openAt_append_right` — the interpolations of a
  text that is cut outside of its holes.
-/

import EmbeddedSql.Proofs.Interpolation.Placeholder
import EmbeddedSql.Proofs.Interpolation.Scanner

set_option relaxedAutoImplicit false
set_option autoImplicit false

namespace EmbeddedSql.Interpolation

/-! ### Holes by the automaton -/

/-- An interpolation is open at the offsets between `lo` and `hi`, and at neither of the two. -/
structure HoleAt (m : Mode) (t : Text) (lo hi : Nat) : Prop where
  lt : lo + 1 < hi
  le : hi ≤ t.length
  before : (m.run (t.take lo)).isHole = false
  behind : (m.run (t.take hi)).isHole = false
  within : ∀ k, lo < k → k < hi → (m.run (t.take k)).isHole = true

/-- An interpolation is open at all offsets behind `lo`, and not at `lo`. -/
structure OpenAt (m : Mode) (t : Text) (lo : Nat) : Prop where
  lt : lo < t.length
  before : (m.run (t.take lo)).isHole = false
  within : ∀ k, lo < k → k ≤ t.length → (m.run (t.take k)).isHole = true

theorem run_take_succ (m : Mode) {t : Text} {k : Nat} {c : Char} (hc : t[k]? = some c) :
    m.run (t.take (k + 1)) = (m.run (t.take k)).step c := by
  rw [List.take_add_one, hc, Option.toList_some, Mode.run_snoc]

/-- What is open at an offset was opened at one place. -/
theorem opening_unique {m : Mode} {t : Text} {lo lo' n : Nat} (hlt : lo < n) (hlt' : lo' < n)
    (hbefore : (m.run (t.take lo)).isHole = false) (hbefore' : (m.run (t.take lo')).isHole = false)
    (hwithin : ∀ k, lo < k → k ≤ n → (m.run (t.take k)).isHole = true)
    (hwithin' : ∀ k, lo' < k → k ≤ n → (m.run (t.take k)).isHole = true) : lo = lo' := by
  rcases Nat.lt_trichotomy lo lo' with hlo | hlo | hlo
  · have hopen := hwithin lo' hlo (by omega)
    rw [hbefore'] at hopen
    cases hopen
  · exact hlo
  · have hopen := hwithin' lo hlo (by omega)
    rw [hbefore] at hopen
    cases hopen

/-- Two holes that end at the same offset start at the same offset. -/
theorem HoleAt.lo_unique {m : Mode} {t : Text} {lo lo' hi : Nat} (h : HoleAt m t lo hi)
    (h' : HoleAt m t lo' hi) : lo = lo' := by
  have hlt := h.lt
  have hlt' := h'.lt
  refine opening_unique (n := hi - 1) (by omega) (by omega) h.before h'.before ?_ ?_
  · intro k hlo hk
    exact h.within k hlo (by omega)
  · intro k hlo hk
    exact h'.within k hlo (by omega)

namespace OpenAt

variable {m : Mode} {s : Text} {lo : Nat} {c : Char}

theorem unique {lo' : Nat} (h : OpenAt m s lo) (h' : OpenAt m s lo') : lo = lo' :=
  opening_unique h.lt h'.lt h.before h'.before h.within h'.within

/-- At the end of the text it is open. -/
theorem isHole (h : OpenAt m s lo) : (m.run s).isHole = true := by
  have hend := h.within s.length h.lt (Nat.le_refl _)
  rwa [List.take_length] at hend

/-- It stays open unless a character closes it. -/
theorem snoc (h : OpenAt m s lo) (hnext : ((m.run s).step c).isHole = true) :
    OpenAt m (s ++ [c]) lo := by
  have hlt := h.lt
  refine ⟨by simp; omega, ?_, ?_⟩
  · rw [List.take_append_of_le_length (by omega)]
    exact h.before
  · intro k hlo hk
    by_cases hin : k ≤ s.length
    · rw [List.take_append_of_le_length hin]
      exact h.within k hlo hin
    · rw [List.take_of_length_le (by simp; omega), Mode.run_snoc]
      exact hnext

/-- The character that closes it makes it a hole. -/
theorem closes (h : OpenAt m s lo) (hnext : ((m.run s).step c).isHole = false) (t : Text) :
    HoleAt m (s ++ c :: t) lo (s.length + 1) := by
  have hlt := h.lt
  have hne : lo + 1 < s.length + 1 := by omega
  have htake : ∀ k ≤ s.length, (s ++ c :: t).take k = s.take k := fun k hk =>
    List.take_append_of_le_length hk
  refine ⟨hne, by simp, ?_, ?_, ?_⟩
  · rw [htake _ (by omega)]
    exact h.before
  · rw [run_take_succ m (c := c) (by simp), List.take_left]
    exact hnext
  · intro k hlo hk
    rw [htake k (by omega)]
    exact h.within k hlo (by omega)

end OpenAt

/-- A brace opens an interpolation where it stands. -/
theorem openAt_snoc {m : Mode} {s : Text} {c : Char} (hm : (m.run s).isHole = false)
    (hnext : ((m.run s).step c).isHole = true) : OpenAt m (s ++ [c]) s.length := by
  refine ⟨by simp, ?_, ?_⟩
  · rw [List.take_left]
    exact hm
  · intro k hlo hk
    rw [List.take_of_length_le (by simp; omega), Mode.run_snoc]
    exact hnext

namespace Template

/-- The text before an offset is read: `gap` and then `hole` end there, and `gap` starts at
`start`. -/
structure Read (m : Mode) (s gap hole : Text) (start : Nat) : Prop where
  length_eq : start + gap.length + hole.length = s.length
  closed : (m.run s).isHole = false → hole = []
  opened : (m.run s).isHole = true →
    (m.run (s.take (start + gap.length))).isHole = false ∧
      ∀ k, start + gap.length < k → k ≤ s.length → (m.run (s.take k)).isHole = true

namespace Read

variable {m : Mode} {s gap hole : Text} {start : Nat} {c : Char}

/-- Nothing is read yet. -/
theorem nil (hm : m.isHole = false) : Read m [] [] [] 0 where
  length_eq := rfl
  closed := fun _ => rfl
  opened := by
    rw [Mode.run_nil, hm]
    simp

theorem openAt (h : Read m s gap hole start) (hm : (m.run s).isHole = true) :
    OpenAt m s (start + gap.length) := by
  obtain ⟨hbefore, hwithin⟩ := h.opened hm
  have hlen := h.length_eq
  have hne : start + gap.length ≠ s.length := by
    intro hstart
    rw [hstart, List.take_length, hm] at hbefore
    cases hbefore
  exact ⟨by omega, hbefore, hwithin⟩

/-- The open hole grows, or one is opened. -/
theorem grow (h : Read m s gap hole start) (hnext : ((m.run s).step c).isHole = true) :
    Read m (s ++ [c]) gap (c :: hole) start where
  length_eq := by
    have hlen := h.length_eq
    simp only [List.length_cons, List.length_append, List.length_nil]
    omega
  closed := by
    rw [Mode.run_snoc, hnext]
    simp
  opened := by
    intro _
    have hopen : OpenAt m (s ++ [c]) (start + gap.length) := by
      cases hm : (m.run s).isHole with
      | true => exact (h.openAt hm).snoc hnext
      | false =>
          have hlen := h.length_eq
          have hstart : start + gap.length = s.length := by simpa [h.closed hm] using hlen
          rw [hstart]
          exact openAt_snoc hm hnext
    exact ⟨hopen.before, hopen.within⟩

/-- Behind a hole everything starts anew. -/
theorem anew (hnext : ((m.run s).step c).isHole = false) :
    Read m (s ++ [c]) [] [] (s.length + 1) where
  length_eq := by simp
  closed := fun _ => rfl
  opened := by
    rw [Mode.run_snoc, hnext]
    simp

/-- The gap grows. -/
theorem pass (h : Read m s gap hole start) (hm : (m.run s).isHole = false)
    (hnext : ((m.run s).step c).isHole = false) : Read m (s ++ [c]) (c :: gap) [] start where
  length_eq := by
    have hlen := h.length_eq
    rw [h.closed hm] at hlen
    simp only [List.length_cons, List.length_append, List.length_nil] at hlen ⊢
    omega
  closed := fun _ => rfl
  opened := by
    rw [Mode.run_snoc, hnext]
    simp

/-- The hole that is closed by a character. -/
theorem holeAt (h : Read m s gap hole start) (hm : (m.run s).isHole = true)
    (hnext : ((m.run s).step c).isHole = false) (t : Text) :
    HoleAt m (s ++ c :: t) (start + gap.length) (s.length + 1) :=
  (h.openAt hm).closes hnext t

end Read

theorem mem_spansFrom_iff {m : Mode} {s gap hole : Text} {start : Nat}
    (h : Read m s gap hole start) (t : Text) (lo hi : Nat) :
    (lo, hi) ∈ spansFrom start (ofTextFrom (m.run s) gap hole t).parts ↔
      HoleAt m (s ++ t) lo hi ∧ s.length < hi := by
  induction t generalizing s gap hole start with
  | nil =>
      simp only [ofTextFrom, spansFrom, List.not_mem_nil, false_iff, List.append_nil]
      rintro ⟨hhole, hlt⟩
      have hle := hhole.le
      omega
  | cons c t ih =>
      have happend : s ++ c :: t = s ++ [c] ++ t := by simp
      have hlength : (s ++ [c]).length = s.length + 1 := by simp
      have hstep : m.run ((s ++ c :: t).take (s.length + 1)) = (m.run s).step c := by
        rw [run_take_succ m (c := c) (by simp), List.take_left]
      cases hnext : ((m.run s).step c).isHole with
      | true =>
          rw [ofTextFrom_inside hnext, ← Mode.run_snoc, ih (h.grow hnext), ← happend, hlength]
          -- no hole ends behind `c`
          refine and_congr_right fun hhole => ⟨by omega, fun hlt => ?_⟩
          refine Nat.lt_of_le_of_ne hlt fun heq => ?_
          have hbehind := hhole.behind
          rw [← heq, hstep, hnext] at hbehind
          simp at hbehind
      | false =>
          cases hm : (m.run s).isHole with
          | true =>
              have hlen := h.length_eq
              have hclosed := h.holeAt hm hnext t
              have hend : start + gap.length + (hole.length + 1) = s.length + 1 := by omega
              rw [ofTextFrom_closes hm hnext]
              simp only [spansFrom, List.length_reverse, List.length_cons, List.mem_cons,
                Prod.mk.injEq, hend]
              rw [← Mode.run_snoc, ih (Read.anew hnext), ← happend, hlength]
              constructor
              · rintro (⟨rfl, rfl⟩ | ⟨hhole, hlt⟩)
                · exact ⟨hclosed, Nat.lt_succ_self _⟩
                · exact ⟨hhole, by omega⟩
              · rintro ⟨hhole, hlt⟩
                rcases Nat.eq_or_lt_of_le (Nat.succ_le_of_lt hlt) with heq | hlt
                · obtain rfl : hi = s.length + 1 := heq.symm
                  exact Or.inl ⟨hhole.lo_unique hclosed, rfl⟩
                · exact Or.inr ⟨hhole, hlt⟩
          | false =>
              rw [ofTextFrom_outside hm hnext, ← Mode.run_snoc, ih (h.pass hm hnext), ← happend,
                hlength]
              -- a hole that ends behind `c` would be open before it
              refine and_congr_right fun hhole => ⟨by omega, fun hlt => ?_⟩
              refine Nat.lt_of_le_of_ne hlt fun heq => ?_
              have hlo := hhole.lt
              have hopen := hhole.within s.length (by omega) (by omega)
              rw [List.take_left, hm] at hopen
              simp at hopen

end Template

/-- The holes of a text that is read from a mode on. -/
def spansIn (m : Mode) (t : Text) : List (Nat × Nat) :=
  (Template.ofTextFrom m [] [] t).spans

theorem mem_spansIn_iff {m : Mode} (hm : m.isHole = false) {t : Text} {lo hi : Nat} :
    (lo, hi) ∈ spansIn m t ↔ HoleAt m t lo hi := by
  have hiff := Template.mem_spansFrom_iff (Template.Read.nil hm) t lo hi
  rw [List.nil_append, Mode.run_nil] at hiff
  rw [spansIn, Template.spans, hiff]
  exact and_iff_left_of_imp fun hhole => Nat.lt_of_le_of_lt (Nat.zero_le _) hhole.lt

theorem spansIn_eq_nil_iff {m : Mode} (hm : m.isHole = false) {t : Text} :
    spansIn m t = [] ↔ ∀ lo hi, ¬HoleAt m t lo hi := by
  rw [List.eq_nil_iff_forall_not_mem, Prod.forall]
  simp only [mem_spansIn_iff hm]

/-- The scanner starts in plain query text. -/
theorem spans_eq_spansIn (t : Text) : spans t = spansIn .sql t :=
  spans_eq t

/-- **The spans of a text are its holes.** -/
theorem mem_spans_iff {t : Text} {lo hi : Nat} : (lo, hi) ∈ spans t ↔ HoleAt .sql t lo hi := by
  rw [spans_eq_spansIn]
  exact mem_spansIn_iff rfl

/-! ### The texts of the spans -/

/-- The texts of the complete interpolations. -/
def expressions (t : Text) : List Text :=
  (spans t).map fun s => t.slice s.1 s.2

theorem Template.map_slice_spansFrom (before : Text) (parts : List (Text × Text)) (rest : Text) :
    ((spansFrom before.length parts).map fun s =>
      Text.slice (before ++ Template.text ⟨parts, rest⟩) s.1 s.2) = parts.map Prod.snd := by
  induction parts generalizing before with
  | nil => rfl
  | cons part parts ih =>
      obtain ⟨gap, hole⟩ := part
      have hrest := ih (before ++ gap ++ hole)
      have hslice := Text.slice_append_append (before ++ gap) hole (Template.text ⟨parts, rest⟩)
      rw [List.length_append] at hslice
      simp only [List.append_assoc, List.length_append, ← Nat.add_assoc] at hrest hslice
      simp only [spansFrom, List.map_cons, text_cons, List.append_assoc, hrest, hslice]

theorem expressions_eq_holes (t : Text) : expressions t = (Template.ofText t).holes := by
  have h := Template.map_slice_spansFrom [] (Template.ofText t).parts (Template.ofText t).rest
  have htext : Template.text ⟨(Template.ofText t).parts, (Template.ofText t).rest⟩ = t :=
    Template.text_ofText t
  rw [htext] at h
  rw [expressions, spans_eq]
  exact h

/-! ### The mode behind a hole -/

namespace Mode

/-- The quote of the SQL string that is open, around an interpolation as well. -/
def enclosing : Mode → Option Char
  | .string q => some q
  | .hole outer _ _ => outer
  | _ => none

theorem enclosing_stepExpr (outer : Option Char) (nested : Nat) (c : Char) :
    (stepExpr outer nested c).isHole = true ∧ (stepExpr outer nested c).enclosing = outer ∨
      (stepExpr outer nested c).isHole = false ∧ stepExpr outer nested c = resume outer := by
  unfold stepExpr
  split
  · exact Or.inl ⟨rfl, rfl⟩
  · split
    · exact Or.inl ⟨rfl, rfl⟩
    · split
      · cases nested with
        | zero => exact Or.inr ⟨by cases outer <;> rfl, rfl⟩
        | succ k => exact Or.inl ⟨rfl, rfl⟩
      · exact Or.inl ⟨rfl, rfl⟩

/-- An interpolation stays in its string, and the string goes on behind it. -/
theorem step_hole {m : Mode} (hm : m.isHole = true) (c : Char) :
    (m.step c).isHole = true ∧ (m.step c).enclosing = m.enclosing ∨
      (m.step c).isHole = false ∧ m.step c = resume m.enclosing := by
  cases m with
  | sql => simp [isHole] at hm
  | dash => simp [isHole] at hm
  | string q => simp [isHole] at hm
  | comment => simp [isHole] at hm
  | hole outer n e =>
      cases e with
      | code => exact enclosing_stepExpr outer n c
      | string q =>
          simp only [step]
          split
          · exact Or.inl ⟨rfl, rfl⟩
          · split <;> exact Or.inl ⟨rfl, rfl⟩
      | escaped q => exact Or.inl ⟨rfl, rfl⟩
      | quoteSeen q =>
          simp only [step]
          split
          · exact Or.inl ⟨rfl, rfl⟩
          · exact enclosing_stepExpr outer n c

theorem enclosing_step_opens {m : Mode} {c : Char} (hm : m.isHole = false)
    (hnext : (m.step c).isHole = true) : (m.step c).enclosing = m.enclosing := by
  obtain rfl := eq_of_step_opens hm hnext
  cases m with
  | sql => rfl
  | dash => rfl
  | string q =>
      simp only [step] at hnext ⊢
      split at hnext
      · simp [isHole] at hnext
      · next hq => simp [hq, enclosing]
  | comment => simp [step, isHole] at hnext
  | hole outer n e => simp [isHole] at hm

end Mode

namespace HoleAt

variable {m : Mode} {t : Text} {lo hi : Nat}

theorem enclosing_eq (h : HoleAt m t lo hi) {k : Nat} (hlo : lo < k) (hhi : k < hi) :
    (m.run (t.take k)).enclosing = (m.run (t.take lo)).enclosing := by
  have hle := h.le
  induction k, hlo using Nat.le_induction with
  | base =>
      have hstep := run_take_succ m (List.getElem?_eq_getElem (show lo < t.length by omega))
      have hopen := h.within (lo + 1) (by omega) hhi
      rw [hstep] at hopen ⊢
      exact Mode.enclosing_step_opens h.before hopen
  | succ k hlo ih =>
      have hstep := run_take_succ m (List.getElem?_eq_getElem (show k < t.length by omega))
      have hopen := h.within (k + 1) (by omega) hhi
      rw [hstep] at hopen ⊢
      rw [← ih (by omega)]
      rcases Mode.step_hole (h.within k (by omega) (by omega)) t[k] with hgo | hend
      · exact hgo.2
      · rw [hend.1] at hopen
        simp at hopen

/-- The mode behind a hole is known from the mode before it. -/
theorem run_eq (h : HoleAt m t lo hi) :
    m.run (t.take hi) = Mode.resume (m.run (t.take lo)).enclosing := by
  have hlt := h.lt
  have hle := h.le
  obtain ⟨k, rfl⟩ : ∃ k, hi = k + 1 := ⟨hi - 1, by omega⟩
  have hstep := run_take_succ m (List.getElem?_eq_getElem (show k < t.length by omega))
  have hbehind := h.behind
  rw [← h.enclosing_eq (k := k) (by omega) (by omega)]
  rw [hstep] at hbehind ⊢
  rcases Mode.step_hole (h.within k (by omega) (by omega)) t[k] with hgo | hend
  · rw [hgo.1] at hbehind
    simp at hbehind
  · exact hend.2

/-- A hole starts with a brace. -/
theorem brace (h : HoleAt m t lo hi) : t[lo]? = some '{' := by
  have hlt := h.lt
  have hle := h.le
  have hget := List.getElem?_eq_getElem (show lo < t.length by omega)
  have hopen := h.within (lo + 1) (by omega) (by omega)
  rw [run_take_succ m hget] at hopen
  rw [hget, Mode.eq_of_step_opens h.before hopen]

/-- A hole lies on one side of an offset that is in none. -/
theorem left_or_right {s v : Text} (h : HoleAt m (s ++ v) lo hi)
    (hs : (m.run s).isHole = false) : hi ≤ s.length ∨ s.length ≤ lo := by
  by_contra hcross
  have hopen := h.within s.length (by omega) (by omega)
  rw [List.take_left, hs] at hopen
  simp at hopen

end HoleAt

/-- Without a brace there is no hole. -/
theorem spansIn_eq_nil {m : Mode} (hm : m.isHole = false) {t : Text} (ht : '{' ∉ t) :
    spansIn m t = [] := by
  rw [spansIn_eq_nil_iff hm]
  intro lo hi hhole
  exact ht (List.mem_of_getElem? hhole.brace)

/-! ### Cuts outside of holes -/

theorem holeAt_append_left {m : Mode} {s : Text} {lo hi : Nat} (hhi : hi ≤ s.length) (v : Text) :
    HoleAt m (s ++ v) lo hi ↔ HoleAt m s lo hi := by
  have htake : ∀ k ≤ s.length, (s ++ v).take k = s.take k := fun k hk =>
    List.take_append_of_le_length hk
  constructor
  · rintro ⟨hlt, -, hbefore, hbehind, hwithin⟩
    rw [htake _ (by omega)] at hbefore hbehind
    refine ⟨hlt, hhi, hbefore, hbehind, fun k hlo hk => ?_⟩
    rw [← htake k (by omega)]
    exact hwithin k hlo hk
  · rintro ⟨hlt, hle, hbefore, hbehind, hwithin⟩
    refine ⟨hlt, by rw [List.length_append]; omega, ?_, ?_, fun k hlo hk => ?_⟩
    · rwa [htake _ (by omega)]
    · rwa [htake _ hhi]
    · rw [htake k (by omega)]
      exact hwithin k hlo hk

/-- Behind a cut the text is read from the mode at the cut on. -/
theorem run_take_length_add (m : Mode) (s v : Text) (k : Nat) :
    m.run ((s ++ v).take (s.length + k)) = (m.run s).run (v.take k) := by
  rw [List.take_length_add_append, Mode.run_append]

theorem holeAt_append_right {m : Mode} (s v : Text) (lo hi : Nat) :
    HoleAt m (s ++ v) (s.length + lo) (s.length + hi) ↔ HoleAt (m.run s) v lo hi := by
  constructor
  · rintro ⟨hlt, hle, hbefore, hbehind, hwithin⟩
    rw [run_take_length_add] at hbefore hbehind
    rw [List.length_append] at hle
    refine ⟨by omega, by omega, hbefore, hbehind, fun k hlo hk => ?_⟩
    rw [← run_take_length_add]
    exact hwithin _ (by omega) (by omega)
  · rintro ⟨hlt, hle, hbefore, hbehind, hwithin⟩
    refine ⟨by omega, by rw [List.length_append]; omega, ?_, ?_, fun k hlo hk => ?_⟩
    · rwa [run_take_length_add]
    · rwa [run_take_length_add]
    · obtain ⟨k, rfl⟩ := Nat.exists_eq_add_of_le (show s.length ≤ k by omega)
      rw [run_take_length_add]
      exact hwithin k (by omega) (by omega)

theorem openAt_append_right {m : Mode} (s v : Text) (lo : Nat) :
    OpenAt m (s ++ v) (s.length + lo) ↔ OpenAt (m.run s) v lo := by
  constructor
  · rintro ⟨hlt, hbefore, hwithin⟩
    rw [run_take_length_add] at hbefore
    rw [List.length_append] at hlt hwithin
    refine ⟨by omega, hbefore, fun k hlo hk => ?_⟩
    rw [← run_take_length_add]
    exact hwithin _ (by omega) (by omega)
  · rintro ⟨hlt, hbefore, hwithin⟩
    refine ⟨by rw [List.length_append]; omega, ?_, fun k hlo hk => ?_⟩
    · rwa [run_take_length_add]
    · rw [List.length_append] at hk
      obtain ⟨k, rfl⟩ := Nat.exists_eq_add_of_le (show s.length ≤ k by omega)
      rw [run_take_length_add]
      exact hwithin k (by omega) (by omega)

/-- What is open at the end was opened behind every offset that is in no hole. -/
theorem OpenAt.length_le {m : Mode} {s v : Text} {lo : Nat} (h : OpenAt m (s ++ v) lo)
    (hs : (m.run s).isHole = false) : s.length ≤ lo := by
  by_contra hcross
  have hopen := h.within s.length (by omega) (by simp)
  rw [List.take_left, hs] at hopen
  cases hopen

end EmbeddedSql.Interpolation
