/-
**The literals of a text, one literal at a time.**

`Literal.scanFrom` reads one character after another and keeps a mode.  For proofs it is more
convenient to read a whole literal at once: a mark, the distance to the end of the literal, and the
scan of what follows.  `Literal.Scanned` is this reading, as a relation, and `Literal.scanned_iff`
says that it describes the same lists.  Everything else is an induction over the relation.

Main definitions:

* `Marks.opens?`, `Literal.endDistance?` — which literal a character opens in code, and how far its
  end is away;
* `Literal.Scanned` — the scan of the code from an offset on, literal by literal;
* `Literal.cutAt` — what is left of a literal when the scan stops at an offset.

Main results:

* `Literal.scanned_iff` — **the relation is the scan**;
* `Literal.Scanned.within`, `Literal.Scanned.pairwise` — literals lie in the text, in order and
  apart from each other, and only the last one may be unclosed;
* `Literal.scan_eq_cut` — **a scan that stops early** finds the literals of the whole text that
  start before the stop, cut off there;
* `Literal.exists_scanAll_eq`, `Literal.scan_concat` — the scan up to a literal and the scan into
  it;
* `Literal.closingQuote?_eq` — a string literal ends at the first quote that closes it.
-/

import EmbeddedSql.Literal
import Mathlib.Data.List.Nodup

set_option relaxedAutoImplicit false
set_option autoImplicit false

namespace EmbeddedSql

/-- What a character opens in code. -/
def Marks.opens? (m : Marks) (c : Char) : Option LiteralKind :=
  if c ∈ m.quotes then some .string else if c = m.comment then some .comment else none

namespace Literal

/-! ### The end of a literal -/

/-- How many characters stand before the end of a literal, behind its mark. -/
def endDistance? (mark : Char) : LiteralKind → Text → Option Nat
  | .string, t => closingDistance? mark t
  | .comment, t => t.findIdx? (· == '\n')

theorem closingDistance?_escape (quote d : Char) (t : Text) :
    closingDistance? quote ('\\' :: d :: t) = (closingDistance? quote t).map (· + 2) := by
  rw [closingDistance?.eq_def]
  simp

theorem closingDistance?_quote {quote : Char} (h : quote ≠ '\\') (t : Text) :
    closingDistance? quote (quote :: t) = some 0 := by
  rw [closingDistance?.eq_def]
  simp [h]

theorem closingDistance?_other {quote c : Char} (h : c ≠ '\\') (h' : c ≠ quote) (t : Text) :
    closingDistance? quote (c :: t) = (closingDistance? quote t).map (· + 1) := by
  rw [closingDistance?.eq_def]
  simp [h, h']

theorem closingDistance?_take (quote : Char) (t : Text) (n : Nat) :
    closingDistance? quote (t.take n) = (closingDistance? quote t).filter (· < n) := by
  fun_induction closingDistance? quote t generalizing n with
  | case1 => simp [closingDistance?]
  | case2 => cases n <;> simp [closingDistance?]
  | case3 d rest ih =>
      -- a backslash and the character behind it, or the backslash alone
      rcases n with _ | _ | n
      · simp [closingDistance?]
      · cases closingDistance? quote rest <;> simp [closingDistance?, Option.filter]
      · rw [List.take_succ_cons, List.take_succ_cons, closingDistance?_escape, ih]
        cases closingDistance? quote rest <;> simp [Option.filter]
  | case4 rest h =>
      cases n with
      | zero => simp [closingDistance?, Option.filter]
      | succ n =>
          rw [List.take_succ_cons, closingDistance?_quote h]
          simp [Option.filter]
  | case5 c rest h h' ih =>
      cases n with
      | zero => cases closingDistance? quote rest <;> simp [closingDistance?, Option.filter]
      | succ n =>
          rw [List.take_succ_cons, closingDistance?_other h h', ih]
          cases closingDistance? quote rest <;> simp [Option.filter]

theorem endDistance?_lt {mark : Char} {kind : LiteralKind} {t : Text} {n : Nat}
    (h : endDistance? mark kind t = some n) : n < t.length := by
  cases kind with
  | string => exact closingDistance?_lt h
  | comment =>
      obtain ⟨hn, -⟩ := List.findIdx?_eq_some_iff_getElem.1 h
      exact hn

/-- A text that is cut off ends a literal where the whole text does, if it gets that far. -/
theorem endDistance?_take (mark : Char) (kind : LiteralKind) (t : Text) (n : Nat) :
    endDistance? mark kind (t.take n) = (endDistance? mark kind t).filter (· < n) := by
  cases kind with
  | string => exact closingDistance?_take mark t n
  | comment =>
      simp only [endDistance?, List.findIdx?_take]
      cases t.findIdx? (· == '\n') <;> simp [Option.guard, Option.filter]

/-! ### Reading a literal at once -/

/-- From inside a string the scan goes on behind its closing quote. -/
theorem scanFrom_string (m : Marks) (q : Char) (start i : Nat) (t : Text) :
    scanFrom m (.string q start) i t =
      match closingDistance? q t with
      | some n => ⟨.string, start, i + n, q, true⟩ :: scanFrom m .code (i + n + 1) (t.drop (n + 1))
      | none => [⟨.string, start, i + t.length, q, false⟩] := by
  fun_induction closingDistance? q t generalizing i with
  | case1 => simp [scanFrom]
  | case2 => simp [scanFrom]
  | case3 d rest ih =>
      rw [scanFrom.eq_def]
      simp only [if_true, ih]
      cases closingDistance? q rest with
      | none => simp; omega
      | some n =>
          have hn : i + 2 + n = i + (n + 2) := by omega
          simp [hn]
  | case4 rest h =>
      rw [scanFrom.eq_def]
      simp [h]
  | case5 c rest h h' ih =>
      rw [scanFrom.eq_def]
      simp only [h, h', if_false, ih]
      cases closingDistance? q rest with
      | none => simp; omega
      | some n =>
          have hn : i + 1 + n = i + (n + 1) := by omega
          simp [hn]

/-- From inside a comment the scan goes on behind the newline. -/
theorem scanFrom_comment (m : Marks) (mark : Char) (start i : Nat) (t : Text) :
    scanFrom m (.comment mark start) i t =
      match t.findIdx? (· == '\n') with
      | some n =>
        ⟨.comment, start, i + n, mark, true⟩ :: scanFrom m .code (i + n + 1) (t.drop (n + 1))
      | none => [⟨.comment, start, i + t.length, mark, false⟩] := by
  induction t generalizing i with
  | nil => simp [scanFrom]
  | cons c t ih =>
      by_cases hc : c = '\n'
      · simp [scanFrom, hc, List.findIdx?_cons]
      · simp only [scanFrom, hc, if_false, ih, List.findIdx?_cons]
        cases t.findIdx? (· == '\n') with
        | none => simp [hc]; omega
        | some n =>
            have hn : i + 1 + n = i + (n + 1) := by omega
            simp [hc, hn]

/-- In code the scan passes over what opens nothing. -/
theorem scanFrom_code_other {m : Marks} {c : Char} (h : m.opens? c = none) (i : Nat) (t : Text) :
    scanFrom m .code i (c :: t) = scanFrom m .code (i + 1) t := by
  have hq : c ∉ m.quotes := fun hc => by simp [Marks.opens?, hc] at h
  have hc : c ≠ m.comment := by
    intro hc
    rw [Marks.opens?, if_neg hq, if_pos hc] at h
    simp at h
  simp [scanFrom, hq, hc]

/-- A newline that marks a comment is the whole comment. -/
theorem scanFrom_code_newline {m : Marks} (h : m.opens? '\n' = some .comment) (i : Nat) (t : Text) :
    scanFrom m .code i ('\n' :: t) =
      ⟨.comment, i, i, '\n', true⟩ :: scanFrom m .code (i + 1) t := by
  have hq : '\n' ∉ m.quotes := fun hc => by simp [Marks.opens?, hc] at h
  have hc : '\n' = m.comment := by
    by_contra hc
    simp [Marks.opens?, hq, hc] at h
  simp [scanFrom, hq, ← hc]

/-- Any other mark is followed by its literal. -/
theorem scanFrom_code_mark {m : Marks} {c : Char} {kind : LiteralKind} (h : m.opens? c = some kind)
    (hne : kind = .comment → c ≠ '\n') (i : Nat) (t : Text) :
    scanFrom m .code i (c :: t) =
      match endDistance? c kind t with
      | some n => ⟨kind, i, i + n + 1, c, true⟩ :: scanFrom m .code (i + n + 2) (t.drop (n + 1))
      | none => [⟨kind, i, i + t.length + 1, c, false⟩] := by
  have hshift : ∀ n, i + 1 + n = i + n + 1 := fun n => by omega
  unfold Marks.opens? at h
  split at h
  · next hq =>
      obtain rfl := Option.some.inj h
      simp only [scanFrom, hq, if_true, scanFrom_string, endDistance?, hshift]
  · next hq =>
      split at h
      · next hc =>
          obtain rfl := Option.some.inj h
          simp only [scanFrom, hq, hc.symm, hne rfl, if_true, if_false, scanFrom_comment,
            endDistance?, hshift]
      · simp at h

/-- The scan of the code from an offset on, literal by literal. -/
inductive Scanned (m : Marks) : Nat → Text → List Literal → Prop
  /-- The text ends in code. -/
  | nil (i : Nat) : Scanned m i [] []
  /-- A character that opens nothing. -/
  | other {i : Nat} {c : Char} {t : Text} {ls : List Literal} (hopen : m.opens? c = none)
      (h : Scanned m (i + 1) t ls) : Scanned m i (c :: t) ls
  /-- A newline that marks a comment. -/
  | newline {i : Nat} {t : Text} {ls : List Literal} (hopen : m.opens? '\n' = some .comment)
      (h : Scanned m (i + 1) t ls) : Scanned m i ('\n' :: t) (⟨.comment, i, i, '\n', true⟩ :: ls)
  /-- A literal that is closed. -/
  | closed {i n : Nat} {c : Char} {t : Text} {kind : LiteralKind} {ls : List Literal}
      (hopen : m.opens? c = some kind) (hne : kind = .comment → c ≠ '\n')
      (hend : endDistance? c kind t = some n) (h : Scanned m (i + n + 2) (t.drop (n + 1)) ls) :
      Scanned m i (c :: t) (⟨kind, i, i + n + 1, c, true⟩ :: ls)
  /-- A literal that is not closed takes the rest of the text. -/
  | unclosed {i : Nat} {c : Char} {t : Text} {kind : LiteralKind}
      (hopen : m.opens? c = some kind) (hne : kind = .comment → c ≠ '\n')
      (hend : endDistance? c kind t = none) :
      Scanned m i (c :: t) [⟨kind, i, i + t.length + 1, c, false⟩]

theorem scanned_scanFrom (m : Marks) (i : Nat) (t : Text) :
    Scanned m i t (scanFrom m .code i t) := by
  -- a literal takes several characters at once, so the induction is on the length
  induction hlen : t.length using Nat.strongRecOn generalizing i t with
  | _ len ih =>
      cases t with
      | nil => exact Scanned.nil i
      | cons c t =>
          simp only [List.length_cons] at hlen
          cases hopen : m.opens? c with
          | none =>
              rw [scanFrom_code_other hopen]
              exact Scanned.other hopen (ih t.length (by omega) (i + 1) t rfl)
          | some kind =>
              by_cases hnl : kind = .comment ∧ c = '\n'
              · obtain ⟨rfl, rfl⟩ := hnl
                rw [scanFrom_code_newline hopen]
                exact Scanned.newline hopen (ih t.length (by omega) (i + 1) t rfl)
              · have hne : kind = .comment → c ≠ '\n' := fun hk hc => hnl ⟨hk, hc⟩
                rw [scanFrom_code_mark hopen hne]
                cases hend : endDistance? c kind t with
                | none => exact Scanned.unclosed hopen hne hend
                | some n =>
                    refine Scanned.closed hopen hne hend (ih _ ?_ (i + n + 2) (t.drop (n + 1)) rfl)
                    rw [List.length_drop]
                    omega

namespace Scanned

theorem eq_scanFrom {m : Marks} {i : Nat} {t : Text} {ls : List Literal} (h : Scanned m i t ls) :
    ls = scanFrom m .code i t := by
  induction h with
  | nil i => rfl
  | other hopen _ ih => rw [scanFrom_code_other hopen, ih]
  | newline hopen _ ih => rw [scanFrom_code_newline hopen, ih]
  | closed hopen hne hend _ ih => rw [scanFrom_code_mark hopen hne, hend, ih]
  | unclosed hopen hne hend => rw [scanFrom_code_mark hopen hne, hend]

end Scanned

/-- **The relation is the scan.** -/
theorem scanned_iff {m : Marks} {i : Nat} {t : Text} {ls : List Literal} :
    Scanned m i t ls ↔ ls = scanFrom m .code i t :=
  ⟨Scanned.eq_scanFrom, fun h => h ▸ scanned_scanFrom m i t⟩

/-! ### Where literals lie -/

/-- A literal found between two offsets. -/
structure Within (lo hi : Nat) (l : Literal) : Prop where
  lo_le : lo ≤ l.start
  start_le : l.start ≤ l.stop
  start_lt : l.start < hi
  /-- A closed literal ends before the scan does. -/
  stop_lt : l.closed = true → l.stop < hi
  /-- An unclosed literal ends where the scan does. -/
  stop_eq : l.closed = false → l.stop = hi

theorem Within.weaken {lo lo' hi : Nat} {l : Literal} (h : Within lo hi l) (hlo : lo' ≤ lo) :
    Within lo' hi l :=
  ⟨Nat.le_trans hlo h.lo_le, h.start_le, h.start_lt, h.stop_lt, h.stop_eq⟩

namespace Scanned

variable {m : Marks} {i : Nat} {t : Text} {ls : List Literal}

/-- Literals lie in the text that was scanned. -/
theorem within (h : Scanned m i t ls) {l : Literal} (hl : l ∈ ls) :
    Within i (i + t.length) l := by
  induction h with
  | nil i => simp at hl
  | @other i c t ls _ _ ih =>
      have hlen : i + 1 + t.length = i + (c :: t).length := by simp; omega
      exact hlen ▸ (ih hl).weaken (by omega)
  | @newline i t ls _ _ ih =>
      have hlen : i + 1 + t.length = i + ('\n' :: t).length := by simp; omega
      rcases List.mem_cons.1 hl with rfl | hl
      · exact ⟨Nat.le_refl i, Nat.le_refl i, by simp, by simp, by simp⟩
      · exact hlen ▸ (ih hl).weaken (by omega)
  | @closed i n c t kind ls _ _ hend _ ih =>
      have hn := endDistance?_lt hend
      have hlen : i + n + 2 + (t.drop (n + 1)).length = i + (c :: t).length := by simp; omega
      rcases List.mem_cons.1 hl with rfl | hl
      · exact ⟨Nat.le_refl i, by simp; omega, by simp, by simp; omega, by simp⟩
      · exact hlen ▸ (ih hl).weaken (by omega)
  | @unclosed i c t kind _ _ _ =>
      obtain rfl := List.mem_singleton.1 hl
      exact ⟨Nat.le_refl i, by simp; omega, by simp, by simp, by simp; omega⟩

/-- Literals stand in order and apart from each other, and only the last may be unclosed. -/
theorem pairwise (h : Scanned m i t ls) :
    ls.Pairwise fun a b => a.closed = true ∧ a.stop < b.start := by
  induction h with
  | nil i => exact List.Pairwise.nil
  | other _ _ ih => exact ih
  | newline _ h ih =>
      refine List.Pairwise.cons (fun b hb => ⟨rfl, ?_⟩) ih
      exact (h.within hb).lo_le
  | closed _ _ _ h ih =>
      refine List.Pairwise.cons (fun b hb => ⟨rfl, ?_⟩) ih
      exact (h.within hb).lo_le
  | unclosed => exact List.pairwise_singleton _ _

theorem nodup_start (h : Scanned m i t ls) : (ls.map (·.start)).Nodup := by
  refine List.pairwise_map.2 (h.pairwise.imp_of_mem ?_)
  intro a b ha _ hab
  have := (h.within ha).start_le
  omega

/-- A literal is determined by its start. -/
theorem eq_of_start_eq (h : Scanned m i t ls) {x y : Literal} (hx : x ∈ ls) (hy : y ∈ ls)
    (hstart : x.start = y.start) : x = y :=
  List.inj_on_of_nodup_map h.nodup_start hx hy hstart

/-- A string literal ends at the first quote that closes it. -/
theorem closingDistance?_eq (h : Scanned m i t ls) {l : Literal} (hl : l ∈ ls)
    (hk : l.kind = .string) :
    (closingDistance? l.mark (t.drop (l.start + 1 - i))).map (l.start + 1 + ·) =
      if l.closed then some l.stop else none := by
  induction h with
  | nil i => simp at hl
  | @other i c t ls _ h ih =>
      have hlo := (h.within hl).lo_le
      have hdrop : l.start + 1 - i = l.start + 1 - (i + 1) + 1 := by omega
      rw [hdrop, List.drop_succ_cons]
      exact ih hl
  | @newline i t ls _ h ih =>
      rcases List.mem_cons.1 hl with rfl | hl
      · simp at hk
      · have hlo := (h.within hl).lo_le
        have hdrop : l.start + 1 - i = l.start + 1 - (i + 1) + 1 := by omega
        rw [hdrop, List.drop_succ_cons]
        exact ih hl
  | @closed i n c t kind ls _ _ hend h ih =>
      rcases List.mem_cons.1 hl with rfl | hl
      · obtain rfl : kind = .string := hk
        have hdrop : i + 1 - i = 0 + 1 := by omega
        rw [hdrop, List.drop_succ_cons, List.drop_zero]
        have hend : closingDistance? c t = some n := hend
        rw [hend]
        simp
        omega
      · have hlo := (h.within hl).lo_le
        have hdrop : l.start + 1 - i = (n + 1 + (l.start + 1 - (i + n + 2))) + 1 := by omega
        rw [hdrop, List.drop_succ_cons, ← List.drop_drop]
        exact ih hl
  | @unclosed i c t kind _ _ hend =>
      obtain rfl := List.mem_singleton.1 hl
      obtain rfl : kind = .string := hk
      have hdrop : i + 1 - i = 0 + 1 := by omega
      rw [hdrop, List.drop_succ_cons, List.drop_zero]
      have hend : closingDistance? c t = none := hend
      rw [hend]
      simp

end Scanned

/-! ### Scans that stop early -/

/-- What is left of a literal when the scan stops at an offset behind its start. -/
def cutAt (stop : Nat) (l : Literal) : Literal :=
  if l.closed && l.stop < stop then l else { l with stop := min l.stop stop, closed := false }

@[simp] theorem cutAt_kind (stop : Nat) (l : Literal) : (l.cutAt stop).kind = l.kind := by
  unfold cutAt
  split <;> rfl

@[simp] theorem cutAt_start (stop : Nat) (l : Literal) : (l.cutAt stop).start = l.start := by
  unfold cutAt
  split <;> rfl

@[simp] theorem cutAt_mark (stop : Nat) (l : Literal) : (l.cutAt stop).mark = l.mark := by
  unfold cutAt
  split <;> rfl

@[simp] theorem cutAt_closed (stop : Nat) (l : Literal) :
    (l.cutAt stop).closed = (l.closed && decide (l.stop < stop)) := by
  by_cases h : (l.closed && decide (l.stop < stop)) = true
  · rw [cutAt, if_pos h, h]
    exact (Bool.and_eq_true_iff.1 h).1
  · rw [cutAt, if_neg h]
    exact (Bool.eq_false_iff.2 h).symm

/-- A literal that is closed before the stop is not cut. -/
theorem cutAt_of_lt {stop : Nat} {l : Literal} (hclosed : l.closed = true) (h : l.stop < stop) :
    l.cutAt stop = l := by
  simp [cutAt, hclosed, h]

/-- Any other literal reaches up to the stop. -/
theorem cutAt_of_le {stop : Nat} {l : Literal} (h : stop ≤ l.stop) :
    l.cutAt stop = ⟨l.kind, l.start, stop, l.mark, false⟩ := by
  have hlt : ¬ l.stop < stop := by omega
  simp [cutAt, hlt, h]

theorem Scanned.filter_start_lt_eq_nil {m : Marks} {i stop : Nat} {t : Text} {ls : List Literal}
    (h : Scanned m i t ls) (hstop : stop ≤ i) : ls.filter (·.start < stop) = [] := by
  rw [List.filter_eq_nil_iff]
  intro l hl
  have := (h.within hl).lo_le
  simp
  omega

/-- The scan of a text that is cut off. -/
theorem Scanned.take {m : Marks} {i : Nat} {t : Text} {ls : List Literal} (h : Scanned m i t ls)
    (n : Nat) :
    Scanned m i (t.take n) ((ls.filter (·.start < i + n)).map (cutAt (i + n))) := by
  induction h generalizing n with
  | nil i => simpa using Scanned.nil i
  | @other i c t ls hopen h ih =>
      cases n with
      | zero =>
          rw [(Scanned.other hopen h).filter_start_lt_eq_nil (by omega)]
          exact Scanned.nil i
      | succ n =>
          have hsum : i + (n + 1) = i + 1 + n := by omega
          rw [hsum]
          exact Scanned.other hopen (ih n)
  | @newline i t ls hopen h ih =>
      cases n with
      | zero =>
          rw [(Scanned.newline hopen h).filter_start_lt_eq_nil (by omega)]
          exact Scanned.nil i
      | succ n =>
          have hsum : i + (n + 1) = i + 1 + n := by omega
          have hhead : i < i + 1 + n := by omega
          rw [hsum, List.filter_cons_of_pos (by simpa using hhead), List.map_cons,
            cutAt_of_lt rfl hhead]
          exact Scanned.newline hopen (ih n)
  | @closed i k c t kind ls hopen hne hend h ih =>
      cases n with
      | zero =>
          rw [(Scanned.closed hopen hne hend h).filter_start_lt_eq_nil (by omega)]
          exact Scanned.nil i
      | succ n =>
          have hk := endDistance?_lt hend
          rw [List.filter_cons_of_pos (by simp), List.map_cons, List.take_succ_cons]
          by_cases hkn : k < n
          · -- the end of the literal is still there
            have hsum : i + (n + 1) = i + k + 2 + (n - (k + 1)) := by omega
            rw [cutAt_of_lt rfl (by show i + k + 1 < _; omega)]
            refine Scanned.closed hopen hne ?_ ?_
            · simp [endDistance?_take, hend, hkn]
            · rw [List.drop_take, hsum]
              exact ih _
          · -- the literal is cut off, and nothing is left of what follows
            have hlen : (t.take n).length = n := by rw [List.length_take]; omega
            rw [cutAt_of_le (by show _ ≤ i + k + 1; omega), h.filter_start_lt_eq_nil (by omega)]
            have hcut := Scanned.unclosed (i := i) (t := t.take n) hopen hne
              (by simpa [endDistance?_take, hend] using hkn)
            rw [hlen] at hcut
            exact hcut
  | @unclosed i c t kind hopen hne hend =>
      cases n with
      | zero =>
          rw [(Scanned.unclosed hopen hne hend).filter_start_lt_eq_nil (by omega)]
          exact Scanned.nil i
      | succ n =>
          rw [List.filter_cons_of_pos (by simp), List.map_cons, List.take_succ_cons]
          have hcut := Scanned.unclosed (i := i) (t := t.take n) hopen hne
            (by simp [endDistance?_take, hend])
          have hmin : i + min n t.length + 1 = min (i + t.length + 1) (i + (n + 1)) := by omega
          rw [List.length_take, hmin] at hcut
          exact hcut

theorem scanned_scanAll (m : Marks) (text : Text) : Scanned m 0 text (scanAll m text) := by
  simpa [scanAll, scan] using scanned_scanFrom m 0 text

/-- **A scan that stops early** finds the literals of the whole text that start before the stop, cut
off there. -/
theorem scan_eq_cut (m : Marks) (text : Text) (stop : Nat) :
    scan m text 0 stop = ((scanAll m text).filter (·.start < stop)).map (cutAt stop) := by
  have h := ((scanned_scanAll m text).take stop).eq_scanFrom
  rw [Nat.zero_add] at h
  simpa [scan, Text.slice] using h.symm

/-! ### Scans up to a literal and into it -/

theorem map_cutAt_filter_of_lt {ls : List Literal} {stop : Nat}
    (h : ∀ x ∈ ls, x.closed = true ∧ x.start ≤ x.stop ∧ x.stop < stop) :
    (ls.filter (·.start < stop)).map (cutAt stop) = ls := by
  have hstart : ∀ x ∈ ls, decide (x.start < stop) = true := by
    intro x hx
    obtain ⟨-, hle, hlt⟩ := h x hx
    exact decide_eq_true (Nat.lt_of_le_of_lt hle hlt)
  rw [List.filter_eq_self.2 hstart,
    List.map_congr_left fun x hx => cutAt_of_lt (h x hx).1 (h x hx).2.2]
  exact List.map_id' ls

/-- A scan up to the start of a literal finds the literals before it, whole. -/
theorem exists_scanAll_eq {m : Marks} {text : Text} {l : Literal} (hl : l ∈ scanAll m text) :
    ∃ after, scanAll m text = scan m text 0 l.start ++ l :: after ∧
      (∀ x ∈ scan m text 0 l.start, x.closed = true ∧ x.start ≤ x.stop ∧ x.stop < l.start) ∧
      ∀ x ∈ after, l.stop < x.start := by
  have hscan := scanned_scanAll m text
  obtain ⟨before, after, heq⟩ := List.append_of_mem hl
  have hpair := hscan.pairwise
  rw [heq, List.pairwise_append, List.pairwise_cons] at hpair
  obtain ⟨-, ⟨hafter, -⟩, hbefore⟩ := hpair
  have hclosed : ∀ x ∈ before, x.closed = true ∧ x.start ≤ x.stop ∧ x.stop < l.start := by
    intro x hx
    obtain ⟨hclosed, hlt⟩ := hbefore x hx l List.mem_cons_self
    have hmem : x ∈ scanAll m text := by rw [heq]; exact List.mem_append_left _ hx
    exact ⟨hclosed, (hscan.within hmem).start_le, hlt⟩
  -- what stands before the literal is closed there, and nothing else starts before it
  have hlate : (l :: after).filter (·.start < l.start) = [] := by
    have hstop := (hscan.within hl).start_le
    rw [List.filter_eq_nil_iff]
    intro x hx
    rcases List.mem_cons.1 hx with rfl | hx
    · simp
    · have hlt := (hafter x hx).2
      simp
      omega
  have hscanned : scan m text 0 l.start = before := by
    rw [scan_eq_cut, heq, List.filter_append, hlate, List.append_nil,
      map_cutAt_filter_of_lt hclosed]
  exact ⟨after, hscanned ▸ heq, hscanned ▸ hclosed, fun x hx => (hafter x hx).2⟩

/-- A scan that stops inside a literal or right behind it ends with what it has seen of it. -/
theorem scan_concat {m : Marks} {text : Text} {l : Literal} (hl : l ∈ scanAll m text) {stop : Nat}
    (hlo : l.start < stop) (hhi : stop ≤ l.stop + 1) :
    scan m text 0 stop = scan m text 0 l.start ++ [l.cutAt stop] := by
  obtain ⟨after, heq, hclosed, hafter⟩ := exists_scanAll_eq hl
  have hbefore : ∀ x ∈ scan m text 0 l.start,
      x.closed = true ∧ x.start ≤ x.stop ∧ x.stop < stop := by
    intro x hx
    obtain ⟨hclosed, hle, hlt⟩ := hclosed x hx
    exact ⟨hclosed, hle, Nat.lt_trans hlt hlo⟩
  have hlate : after.filter (·.start < stop) = [] := by
    rw [List.filter_eq_nil_iff]
    intro x hx
    have hlt := hafter x hx
    simp
    omega
  rw [scan_eq_cut m text stop, heq, List.filter_append, List.map_append,
    map_cutAt_filter_of_lt hbefore, List.filter_cons_of_pos (by simpa using hlo), hlate]
  rfl

/-- Whether an offset before a literal stands in code can be told without that literal. -/
theorem containing?_scan {m : Marks} {text : Text} {l : Literal} (hl : l ∈ scanAll m text)
    {offset : Nat} (h : offset < l.start) :
    containing? (scan m text 0 l.start) offset = containing? (scanAll m text) offset := by
  obtain ⟨after, heq, -, -⟩ := exists_scanAll_eq hl
  have hstops : (l :: after).takeWhile (·.start ≤ offset) = [] := by
    have hle : ¬ l.start ≤ offset := by omega
    simp [hle]
  unfold containing?
  rw [heq, List.takeWhile_append, hstops, List.append_nil]
  split
  · next hlen => rw [(List.takeWhile_prefix _).eq_of_length hlen]
  · rfl

/-- The quote that closes a string literal is found if it stands before the limit. -/
theorem closingQuote?_eq {m : Marks} {text : Text} {l : Literal} (hl : l ∈ scanAll m text)
    (hk : l.kind = .string) (limit : Nat) :
    closingQuote? text (l.start + 1) l.mark limit =
      if l.closed && l.stop < limit then some l.stop else none := by
  have hclose := (scanned_scanAll m text).closingDistance?_eq hl hk
  rw [closingQuote?, Text.slice, closingDistance?_take]
  rw [Nat.sub_zero] at hclose
  cases hdist : closingDistance? l.mark (text.drop (l.start + 1)) with
  | none =>
      rw [hdist] at hclose
      cases hc : l.closed <;> simp [hc] at hclose ⊢
  | some n =>
      rw [hdist] at hclose
      cases hc : l.closed with
      | false => simp [hc] at hclose
      | true =>
          obtain hstop : l.start + 1 + n = l.stop := by simpa [hc] using hclose
          have hlimit : n < limit - (l.start + 1) ↔ l.stop < limit := by omega
          by_cases hlt : l.stop < limit
          · simp [Option.filter, hlimit, hlt, hstop]
          · simp [Option.filter, hlimit, hlt]

end Literal

end EmbeddedSql
