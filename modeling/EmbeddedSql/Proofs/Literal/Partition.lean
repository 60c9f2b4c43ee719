/-
**Literals cut a text into pieces.**

Whoever walks over the literals of a text relies on the same few facts: they come in order and apart
from each other, each has the ends its kind asks for, and outside of them stands nothing that could
open one.  Looking up an offset rests on the order alone.  Of all literals that start at or before
the offset the last one is tried, and the others cannot reach it because they end before that one
starts.

Main definitions:

* `Literal.Partition` — what holds of the literals of a part of a text.

Main results:

* `Literal.Scanned.commentEnd_eq` — a comment ends at its first newline;
* `Literal.Scanned.exists_covering` — a mark outside of all literals would have opened one;
* `Literal.containing?_eq_some_iff` — **looking up an offset** among literals in order;
* `Literal.literals_partition` — **the literals of a scan cut the text into pieces**, and every
  offset is looked up in its own.
-/

import EmbeddedSql.Proofs.Literal.Window
import Mathlib.Data.List.TakeWhile
import Mathlib.Order.Bounds.Basic

set_option relaxedAutoImplicit false
set_option autoImplicit false

namespace EmbeddedSql.Literal

variable {m : Marks} {i : Nat} {t : Text} {ls : List Literal}

/-! ### The ends of a comment -/

/-- A comment ends at the first newline from its mark on. -/
theorem Scanned.commentEnd_eq (h : Scanned m i t ls) {l : Literal} (hl : l ∈ ls)
    (hk : l.kind = .comment) :
    ((t.drop (l.start - i)).findIdx? (· == '\n')).map (l.start + ·) =
      if l.closed then some l.stop else none := by
  induction h with
  | nil i => simp at hl
  | @other i c t ls _ h ih =>
      have hlo := (h.within hl).lo_le
      have hdrop : l.start - i = l.start - (i + 1) + 1 := by omega
      rw [hdrop, List.drop_succ_cons]
      exact ih hl
  | @newline i t ls _ h ih =>
      rcases List.mem_cons.1 hl with rfl | hl
      · simp [List.findIdx?_cons]
      · have hlo := (h.within hl).lo_le
        have hdrop : l.start - i = l.start - (i + 1) + 1 := by omega
        rw [hdrop, List.drop_succ_cons]
        exact ih hl
  | @closed i n c t kind ls _ hne hend h ih =>
      rcases List.mem_cons.1 hl with rfl | hl
      · obtain rfl : kind = .comment := hk
        have hend : t.findIdx? (· == '\n') = some n := hend
        simp [List.findIdx?_cons, hne rfl, hend]
        omega
      · have hlo := (h.within hl).lo_le
        have hdrop : l.start - i = n + 1 + (l.start - (i + n + 2)) + 1 := by omega
        rw [hdrop, List.drop_succ_cons, ← List.drop_drop]
        exact ih hl
  | @unclosed i c t kind _ hne hend =>
      obtain rfl := List.mem_singleton.1 hl
      obtain rfl : kind = .comment := hk
      have hend : t.findIdx? (· == '\n') = none := hend
      simp [List.findIdx?_cons, hne rfl, hend]

/-! ### Nothing is left out -/

/-- A character that could open a literal belongs to one. -/
theorem Scanned.exists_covering (h : Scanned m i t ls) {k : Nat} {c : Char} (hc : t[k]? = some c)
    (hopen : m.opens? c ≠ none) : ∃ l ∈ ls, l.start ≤ i + k ∧ i + k ≤ l.stop := by
  induction h generalizing k with
  | nil i => simp at hc
  | @other i d t ls hother _ ih =>
      cases k with
      | zero =>
          obtain rfl : d = c := by simpa using hc
          exact absurd hother hopen
      | succ k =>
          obtain ⟨l, hl, hlo, hhi⟩ := ih (by simpa using hc)
          exact ⟨l, hl, by omega, by omega⟩
  | @newline i t ls _ _ ih =>
      cases k with
      | zero => exact ⟨_, List.mem_cons_self, by simp, by simp⟩
      | succ k =>
          obtain ⟨l, hl, hlo, hhi⟩ := ih (by simpa using hc)
          exact ⟨l, List.mem_cons_of_mem _ hl, by omega, by omega⟩
  | @closed i n d t kind ls _ _ _ _ ih =>
      by_cases hk : k ≤ n + 1
      · exact ⟨_, List.mem_cons_self, by simp, by simp; omega⟩
      · -- behind the literal
        have hindex : k = n + 1 + (k - (n + 2)) + 1 := by omega
        rw [hindex, List.getElem?_cons_succ, ← List.getElem?_drop] at hc
        obtain ⟨l, hl, hlo, hhi⟩ := ih hc
        exact ⟨l, List.mem_cons_of_mem _ hl, by omega, by omega⟩
  | @unclosed i d t kind _ _ _ =>
      obtain ⟨hlt, -⟩ := List.getElem?_eq_some_iff.1 hc
      rw [List.length_cons] at hlt
      exact ⟨_, List.mem_cons_self, by simp, by simp; omega⟩

/-! ### Looking up an offset -/

/-- **Looking up an offset** among literals in order finds the one that covers it. -/
theorem containing?_eq_some_iff (hpair : ls.Pairwise fun a b => a.stop < b.start)
    (hends : ∀ l ∈ ls, l.start ≤ l.stop) {offset : Nat} {l : Literal} :
    containing? ls offset = some l ↔ l ∈ ls ∧ l.start ≤ offset ∧ offset ≤ l.stop := by
  constructor
  · intro hfound
    obtain ⟨hlast, hhi⟩ := Option.filter_eq_some_iff.1 hfound
    have hmem := List.mem_of_getLast? hlast
    exact ⟨(List.takeWhile_sublist _).subset hmem, by simpa using List.mem_takeWhile_imp hmem,
      by simpa using hhi⟩
  · rintro ⟨hl, hlo, hhi⟩
    obtain ⟨before, after, rfl⟩ := List.append_of_mem hl
    rw [List.pairwise_append, List.pairwise_cons] at hpair
    obtain ⟨-, ⟨hafter, -⟩, hbefore⟩ := hpair
    -- the literals up to this one start at or before the offset, the next one does not
    have hfront : ∀ x ∈ before, decide (x.start ≤ offset) = true := by
      intro x hx
      have hle := hends x (List.mem_append_left _ hx)
      have hlt := hbefore x hx l List.mem_cons_self
      exact decide_eq_true (by omega)
    have hstops : after.takeWhile (·.start ≤ offset) = [] := by
      cases after with
      | nil => rfl
      | cons x after =>
          have hlt := hafter x List.mem_cons_self
          exact List.takeWhile_cons_of_neg (by simp; omega)
    rw [containing?, List.takeWhile_append_of_pos hfront,
      List.takeWhile_cons_of_pos (by simpa using hlo), hstops, List.getLast?_concat]
    simp [Option.filter, hhi]

/-! ### The pieces of a text -/

/-- The literals `ls` cut the part of a text between two offsets into pieces. -/
structure Partition (m : Marks) (text : Text) (start stop : Nat) (ls : List Literal) : Prop where
  /-- They come in order and apart from each other. -/
  ordered : ls.Pairwise fun a b => a.stop < b.start
  /-- Only the last one may be unclosed. -/
  closed : ∀ l ∈ ls.dropLast, l.closed = true
  inside : ∀ l ∈ ls, start ≤ l.start ∧ l.start ≤ l.stop ∧ l.stop ≤ min stop text.length
  /-- An unclosed literal takes all that is left. -/
  unclosed : ∀ l ∈ ls, l.closed = false → l.stop = min stop text.length
  /-- A literal starts with its mark, which tells its kind. -/
  opens : ∀ l ∈ ls, text[l.start]? = some l.mark ∧ m.opens? l.mark = some l.kind
  /-- A closed string ends with its quote as well. -/
  string : ∀ l ∈ ls, l.kind = .string → l.closed = true →
    l.start < l.stop ∧ text[l.stop]? = some l.mark
  /-- A closed comment ends at its first newline. -/
  comment : ∀ l ∈ ls, l.kind = .comment → l.closed = true →
    IsLeast {offset | l.start ≤ offset ∧ text[offset]? = some '\n'} l.stop
  /-- No mark stands outside. -/
  complete : ∀ offset c, start ≤ offset → offset < min stop text.length →
    text[offset]? = some c → c ∈ m.quotes ∨ c = m.comment →
    ∃ l ∈ ls, l.start ≤ offset ∧ offset ≤ l.stop

theorem opens?_ne_none_iff {c : Char} : m.opens? c ≠ none ↔ c ∈ m.quotes ∨ c = m.comment := by
  unfold Marks.opens?
  split
  · next hq => simp [hq]
  · next hq =>
      split
      · next hc => simp [hc]
      · next hc => simp [hq, hc]

theorem scanned_scan (m : Marks) (text : Text) (start stop : Nat) :
    Scanned m start (text.slice start stop) (scan m text start stop) :=
  scanned_scanFrom m start (text.slice start stop)

/-- The literals of a scan lie between its ends. -/
theorem within_scan {text : Text} {start stop : Nat} {l : Literal}
    (hl : l ∈ scan m text start stop) : Within start (min stop text.length) l := by
  have hwithin := (scanned_scan m text start stop).within hl
  have hlo := hwithin.lo_le
  have hlt := hwithin.start_lt
  rw [Text.length_slice] at hlt
  have hend : start + (text.slice start stop).length = min stop text.length := by
    rw [Text.length_slice]
    omega
  rwa [hend] at hwithin

/-- The part of a text that is scanned holds the characters of the text. -/
theorem getElem?_scanned {text : Text} {start stop offset : Nat} (hlo : start ≤ offset)
    (hhi : offset < min stop text.length) :
    (text.slice start stop)[offset - start]? = text[offset]? := by
  have hindex : offset - start < stop - start := by omega
  have hsum : start + (offset - start) = offset := by omega
  rw [Text.getElem?_slice, if_pos hindex, hsum]

/-- A closed comment of a scan ends at the first newline of the text from its mark on. -/
theorem isLeast_commentEnd {text : Text} {start stop : Nat} {l : Literal}
    (hl : l ∈ scan m text start stop) (hkind : l.kind = .comment) (hclosed : l.closed = true) :
    IsLeast {offset | l.start ≤ offset ∧ text[offset]? = some '\n'} l.stop := by
  have hwithin := within_scan hl
  have hlo := hwithin.lo_le
  have hstop := hwithin.stop_lt hclosed
  have hget : ∀ {offset}, l.start ≤ offset → offset ≤ l.stop →
      ((text.slice start stop).drop (l.start - start))[offset - l.start]? = text[offset]? := by
    intro offset hstart hle
    have hindex : l.start - start + (offset - l.start) = offset - start := by omega
    rw [List.getElem?_drop, hindex, getElem?_scanned (by omega) (by omega)]
  have hend := (scanned_scan m text start stop).commentEnd_eq hl hkind
  rw [hclosed, if_pos rfl] at hend
  obtain ⟨n, hn, hsum⟩ := Option.map_eq_some_iff.1 hend
  obtain ⟨hlt, hnewline, hbefore⟩ := List.findIdx?_eq_some_iff_getElem.1 hn
  constructor
  · have hindex : l.stop - l.start = n := by omega
    refine ⟨hwithin.start_le, ?_⟩
    rw [← hget hwithin.start_le (Nat.le_refl _), hindex, List.getElem?_eq_getElem hlt]
    simpa using hnewline
  · rintro offset ⟨hstart, hoffset⟩
    by_contra hearly
    rw [← hget hstart (by omega)] at hoffset
    obtain ⟨hlt', hoffset⟩ := List.getElem?_eq_some_iff.1 hoffset
    exact hbefore (offset - l.start) (by omega) (by simp [hoffset])

theorem partition_scan (m : Marks) (text : Text) (start stop : Nat) :
    Partition m text start stop (scan m text start stop) := by
  have hscan := scanned_scan m text start stop
  constructor
  · exact hscan.pairwise.imp fun h => h.2
  · intro l hl
    exact (hscan.closed_of_mem_dropLast (List.Sublist.refl _)
      (fun x hx => (within_scan hx).start_lt) hl).1
  · intro l hl
    have hwithin := within_scan hl
    refine ⟨hwithin.lo_le, hwithin.start_le, ?_⟩
    cases hclosed : l.closed with
    | true => exact Nat.le_of_lt (hwithin.stop_lt hclosed)
    | false => exact Nat.le_of_eq (hwithin.stop_eq hclosed)
  · intro l hl
    exact (within_scan hl).stop_eq
  · intro l hl
    have hwithin := within_scan hl
    rw [← getElem?_scanned hwithin.lo_le hwithin.start_lt]
    exact hscan.opens hl
  · intro l hl hkind hclosed
    have hwithin := within_scan hl
    have hlo := Nat.le_trans hwithin.lo_le hwithin.start_le
    rw [← getElem?_scanned hlo (hwithin.stop_lt hclosed)]
    exact hscan.closes_from hl ⟨hkind, hclosed⟩
  · exact fun l => isLeast_commentEnd
  · intro offset c hlo hhi hc hmark
    rw [← getElem?_scanned hlo hhi] at hc
    have hsum : start + (offset - start) = offset := by omega
    simpa only [hsum] using hscan.exists_covering hc (opens?_ne_none_iff.2 hmark)

/-- **The literals of a scan cut the text into pieces.**  They come in order and apart from each
other, lie where the scan looks, have the ends of their kind, and leave no mark out.  Looking up an
offset gives the one literal that covers it, or nothing if there is none. -/
theorem literals_partition (m : Marks) (text : Text) (start stop : Nat) :
    Partition m text start stop (scan m text start stop) ∧
      ∀ offset,
        (∀ l, containing? (scan m text start stop) offset = some l ↔
          l ∈ scan m text start stop ∧ l.start ≤ offset ∧ offset ≤ l.stop) ∧
        (containing? (scan m text start stop) offset = none ↔
          ∀ l ∈ scan m text start stop, ¬ (l.start ≤ offset ∧ offset ≤ l.stop)) := by
  have hpartition := partition_scan m text start stop
  refine ⟨hpartition, fun offset => ?_⟩
  have hfound : ∀ {l}, containing? (scan m text start stop) offset = some l ↔
      l ∈ scan m text start stop ∧ l.start ≤ offset ∧ offset ≤ l.stop :=
    containing?_eq_some_iff hpartition.ordered fun l hl => (hpartition.inside l hl).2.1
  refine ⟨fun l => hfound, ?_⟩
  rw [Option.eq_none_iff_forall_ne_some]
  constructor
  · intro hnone l hl hcovers
    exact hnone l (hfound.2 ⟨hl, hcovers⟩)
  · intro hno l hl
    obtain ⟨hmem, hcovers⟩ := hfound.1 hl
    exact hno l hmem hcovers

end EmbeddedSql.Literal
