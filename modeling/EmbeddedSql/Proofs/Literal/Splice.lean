/-
**Exchanging the content of a literal.**

A scan does not look back: what it finds behind an offset in code depends on the text behind it
only, up to where that text starts.  So when the content of a string literal is exchanged for
another content that does not close the literal early, all other literals stay as they are, and
those behind are moved.

Main definitions:

* `Literal.moved` — a literal of a text that starts somewhere else;
* `Literal.Outside` — an offset that no literal runs over.

Main results:

* `Literal.Scanned.append`, `Literal.Scanned.drop`, `Literal.Scanned.move` — the scan of two texts
  in a row, of the rest of a text, and of a text somewhere else;
* `Literal.scan_eq_filter` — **a scan that starts outside of all literals** finds the literals of
  the whole text;
* `Literal.scanAll_splice` — **the literals of a text after the content of one was exchanged**.
-/

import EmbeddedSql.Proofs.Literal.Scan

set_option relaxedAutoImplicit false
set_option autoImplicit false

namespace EmbeddedSql.Literal

variable {m : Marks} {i : Nat} {t : Text} {ls : List Literal}

/-! ### The characters around a literal -/

theorem getElem?_closingDistance {quote : Char} {n : Nat} (h : closingDistance? quote t = some n) :
    t[n]? = some quote := by
  fun_induction closingDistance? quote t generalizing n with
  | case1 => simp at h
  | case2 => simp at h
  | case3 d rest ih =>
      obtain ⟨k, hk, rfl⟩ := Option.map_eq_some_iff.1 h
      simpa using ih hk
  | case4 =>
      obtain rfl : 0 = n := by simpa using h
      rfl
  | case5 c rest h₁ h₂ ih =>
      obtain ⟨k, hk, rfl⟩ := Option.map_eq_some_iff.1 h
      simpa using ih hk

/-- A literal starts with its mark. -/
theorem Scanned.opens (h : Scanned m i t ls) {l : Literal} (hl : l ∈ ls) :
    t[l.start - i]? = some l.mark ∧ m.opens? l.mark = some l.kind := by
  induction h with
  | nil i => simp at hl
  | @other i c t ls _ h ih =>
      have hlo := (h.within hl).lo_le
      have hindex : l.start - i = l.start - (i + 1) + 1 := by omega
      rw [hindex, List.getElem?_cons_succ]
      exact ih hl
  | @newline i t ls hopen h ih =>
      rcases List.mem_cons.1 hl with rfl | hl
      · exact ⟨by simp, hopen⟩
      · have hlo := (h.within hl).lo_le
        have hindex : l.start - i = l.start - (i + 1) + 1 := by omega
        rw [hindex, List.getElem?_cons_succ]
        exact ih hl
  | @closed i n c t kind ls hopen _ _ h ih =>
      rcases List.mem_cons.1 hl with rfl | hl
      · exact ⟨by simp, hopen⟩
      · have hlo := (h.within hl).lo_le
        have hindex : l.start - i = n + 1 + (l.start - (i + n + 2)) + 1 := by omega
        rw [hindex, List.getElem?_cons_succ, ← List.getElem?_drop]
        exact ih hl
  | @unclosed i c t kind hopen _ _ =>
      obtain rfl := List.mem_singleton.1 hl
      exact ⟨by simp, hopen⟩

theorem mem_quotes_of_opens? {c : Char} (h : m.opens? c = some .string) : c ∈ m.quotes := by
  unfold Marks.opens? at h
  split at h
  · assumption
  · split at h <;> simp at h

/-- A closed string ends with the mark it starts with. -/
theorem Scanned.closes_from (h : Scanned m i t ls) {l : Literal} (hl : l ∈ ls)
    (hstring : l.kind = .string ∧ l.closed = true) :
    l.start < l.stop ∧ t[l.stop - i]? = some l.mark := by
  have hclose := h.closingDistance?_eq hl hstring.1
  rw [hstring.2, if_pos rfl] at hclose
  obtain ⟨n, hn, hstop⟩ := Option.map_eq_some_iff.1 hclose
  have hlo := (h.within hl).lo_le
  have hindex : l.start + 1 - i + n = l.stop - i := by omega
  have hmark := getElem?_closingDistance hn
  rw [List.getElem?_drop, hindex] at hmark
  exact ⟨by omega, hmark⟩

theorem Scanned.closes (h : Scanned m 0 t ls) {l : Literal} (hl : l ∈ ls)
    (hstring : l.kind = .string ∧ l.closed = true) :
    l.start < l.stop ∧ t[l.stop]? = some l.mark :=
  h.closes_from hl hstring

/-! ### Two texts in a row -/

theorem endDistance?_append {mark : Char} {kind : LiteralKind} {n : Nat}
    (h : endDistance? mark kind t = some n) (t' : Text) :
    endDistance? mark kind (t ++ t') = some n := by
  have htake := endDistance?_take mark kind (t ++ t') t.length
  rw [List.take_left, h] at htake
  obtain ⟨hend, -⟩ := Option.filter_eq_some_iff.1 htake.symm
  exact hend

/-- When all literals of a text are closed, what follows the text is read as code. -/
theorem Scanned.append (h : Scanned m i t ls) (hclosed : ∀ l ∈ ls, l.closed = true) {t' : Text}
    {ls' : List Literal} (h' : Scanned m (i + t.length) t' ls') :
    Scanned m i (t ++ t') (ls ++ ls') := by
  induction h with
  | nil i => exact h'
  | @other i c t ls hopen _ ih =>
      have hlen : i + (c :: t).length = i + 1 + t.length := by simp; omega
      exact Scanned.other hopen (ih hclosed (hlen ▸ h'))
  | @newline i t ls hopen _ ih =>
      have hlen : i + ('\n' :: t).length = i + 1 + t.length := by simp; omega
      exact Scanned.newline hopen (ih (List.forall_mem_cons.1 hclosed).2 (hlen ▸ h'))
  | @closed i n c t kind ls hopen hne hend _ ih =>
      have hn := endDistance?_lt hend
      have hlen : i + (c :: t).length = i + n + 2 + (t.drop (n + 1)).length := by simp; omega
      have hrest := ih (List.forall_mem_cons.1 hclosed).2 (hlen ▸ h')
      rw [← List.drop_append_of_le_length hn] at hrest
      exact Scanned.closed hopen hne (endDistance?_append hend t') hrest
  | unclosed => simp at hclosed

/-! ### The rest of a text -/

/-- No literal runs over an offset: it stands in code, or a literal starts there. -/
def Outside (ls : List Literal) (offset : Nat) : Prop :=
  ∀ l ∈ ls, ¬ (l.start < offset ∧ offset ≤ l.stop)

instance (ls : List Literal) (offset : Nat) : Decidable (Outside ls offset) :=
  inferInstanceAs (Decidable (∀ l ∈ ls, ¬ (l.start < offset ∧ offset ≤ l.stop)))

theorem Scanned.filter_le_start (h : Scanned m i t ls) : ls.filter (i ≤ ·.start) = ls := by
  rw [List.filter_eq_self]
  intro l hl
  exact decide_eq_true (h.within hl).lo_le

/-- A scan that starts outside of all literals finds those from there on. -/
theorem Scanned.drop (h : Scanned m i t ls) {n : Nat} (hout : Outside ls (i + n)) :
    Scanned m (i + n) (t.drop n) (ls.filter (i + n ≤ ·.start)) := by
  induction h generalizing n with
  | nil i => simpa using Scanned.nil (i + n)
  | @other i c t ls hopen h ih =>
      cases n with
      | zero => exact (Scanned.other hopen h).filter_le_start.symm ▸ Scanned.other hopen h
      | succ n =>
          have hsum : i + (n + 1) = i + 1 + n := by omega
          rw [hsum] at hout ⊢
          exact ih hout
  | @newline i t ls hopen h ih =>
      cases n with
      | zero => exact (Scanned.newline hopen h).filter_le_start.symm ▸ Scanned.newline hopen h
      | succ n =>
          have hsum : i + (n + 1) = i + 1 + n := by omega
          rw [hsum] at hout ⊢
          rw [List.filter_cons_of_neg (by simp; omega)]
          exact ih (List.forall_mem_cons.1 hout).2
  | @closed i k c t kind ls hopen hne hend h ih =>
      cases n with
      | zero =>
          exact (Scanned.closed hopen hne hend h).filter_le_start.symm ▸
            Scanned.closed hopen hne hend h
      | succ n =>
          obtain ⟨hhead, hout⟩ := List.forall_mem_cons.1 hout
          dsimp only at hhead
          -- the offset is behind the literal, since it is not inside
          have hsum : i + (n + 1) = i + k + 2 + (n - (k + 1)) := by omega
          have hdrop : (c :: t).drop (n + 1) = (t.drop (k + 1)).drop (n - (k + 1)) := by
            rw [List.drop_succ_cons, List.drop_drop]
            congr 1
            omega
          rw [List.filter_cons_of_neg (by simp), hdrop]
          rw [hsum] at hout ⊢
          exact ih hout
  | @unclosed i c t kind hopen hne hend =>
      cases n with
      | zero =>
          exact (Scanned.unclosed hopen hne hend).filter_le_start.symm ▸
            Scanned.unclosed hopen hne hend
      | succ n =>
          have hhead := hout _ List.mem_cons_self
          dsimp only at hhead
          rw [List.filter_cons_of_neg (by simp), List.drop_succ_cons,
            List.drop_eq_nil_of_le (by omega)]
          exact Scanned.nil _

/-- **A scan that starts outside of all literals** finds the literals of the whole text between its
ends, the last one cut off. -/
theorem scan_eq_filter {text : Text} {first stop : Nat} (hout : Outside (scanAll m text) first)
    (hle : first ≤ stop) :
    scan m text first stop =
      (((scanAll m text).filter (first ≤ ·.start)).filter (·.start < stop)).map (cutAt stop) := by
  have hdrop := (scanned_scanAll m text).drop (n := first) (by rwa [Nat.zero_add])
  have htake := (hdrop.take (stop - first)).eq_scanFrom
  have hstop : 0 + first + (stop - first) = stop := by omega
  rw [hstop, Nat.zero_add] at htake
  exact htake.symm

/-! ### A text somewhere else -/

/-- A literal of a text that starts at another offset. -/
def moved (i j : Nat) (l : Literal) : Literal :=
  { l with start := j + (l.start - i), stop := j + (l.stop - i) }

theorem moved_add {i j k : Nat} {l : Literal} (h : i + k ≤ l.start) (hle : l.start ≤ l.stop) :
    moved (i + k) (j + k) l = moved i j l := by
  have hstart : j + k + (l.start - (i + k)) = j + (l.start - i) := by omega
  have hstop : j + k + (l.stop - (i + k)) = j + (l.stop - i) := by omega
  simp only [moved, hstart, hstop]

theorem Scanned.map_moved_add {k : Nat} (h : Scanned m (i + k) t ls) (j : Nat) :
    ls.map (moved (i + k) (j + k)) = ls.map (moved i j) :=
  List.map_congr_left fun _ hl => moved_add (h.within hl).lo_le (h.within hl).start_le

/-- The scan of a text does not depend on where the text starts. -/
theorem Scanned.move (h : Scanned m i t ls) (j : Nat) : Scanned m j t (ls.map (moved i j)) := by
  induction h generalizing j with
  | nil i => exact Scanned.nil j
  | other hopen h ih => exact Scanned.other hopen (h.map_moved_add j ▸ ih (j + 1))
  | @newline i t ls hopen h ih =>
      have hrest := Scanned.newline hopen (h.map_moved_add j ▸ ih (j + 1))
      simpa [moved] using hrest
  | @closed i n c t kind ls hopen hne hend h ih =>
      have hrest := Scanned.closed hopen hne hend (h.map_moved_add (k := n + 2) j ▸ ih (j + n + 2))
      have hlen : i + n + 1 - i = n + 1 := by omega
      simpa [moved, hlen, Nat.add_assoc] using hrest
  | @unclosed i c t kind hopen hne hend =>
      have hlen : i + t.length + 1 - i = t.length + 1 := by omega
      simpa [moved, hlen, Nat.add_assoc] using Scanned.unclosed (i := j) hopen hne hend

/-! ### Exchanging a content -/

/-- What stands behind a literal is read as code. -/
theorem exists_scanned_behind {text : Text} {l : Literal} (hl : l ∈ scanAll m text) :
    ∃ after, scanAll m text = scan m text 0 l.start ++ l :: after ∧
      (∀ x ∈ scan m text 0 l.start, x.closed = true) ∧
      Scanned m (l.stop + 1) (text.drop (l.stop + 1)) after := by
  have hscan := scanned_scanAll m text
  obtain ⟨after, heq, hbefore, hafter⟩ := exists_scanAll_eq hl
  have hlow := (hscan.within hl).start_le
  have hout : Outside (scanAll m text) (0 + (l.stop + 1)) := by
    intro x hx
    rw [heq, List.mem_append, List.mem_cons] at hx
    rcases hx with hx | rfl | hx
    · obtain ⟨-, -, hlt⟩ := hbefore x hx
      omega
    · omega
    · have hlt := hafter x hx
      omega
  have hfilter : (scanAll m text).filter (l.stop + 1 ≤ ·.start) = after := by
    rw [heq, List.filter_append, List.filter_cons_of_neg (by simp; omega),
      List.filter_eq_nil_iff.2, List.filter_eq_self.2, List.nil_append]
    · intro x hx
      exact decide_eq_true (hafter x hx)
    · intro x hx
      obtain ⟨-, hle, hlt⟩ := hbefore x hx
      simp
      omega
  have hrest := hscan.drop hout
  rw [Nat.zero_add, hfilter] at hrest
  exact ⟨after, heq, fun x hx => (hbefore x hx).1, hrest⟩

/-- **The literals of a text after the content of one was exchanged** for a content that does not
close it early: the literal ends behind its new content, those before it stay, and those behind it
are moved. -/
theorem scanAll_splice {text : Text} {l : Literal} (hl : l ∈ scanAll m text)
    (hstring : l.kind = .string ∧ l.closed = true) {content : Text}
    (hcontent : ∀ rest, closingDistance? l.mark (content ++ l.mark :: rest) = some content.length) :
    ∃ before after, scanAll m text = before ++ l :: after ∧
      scanAll m (text.take (l.start + 1) ++ content ++ text.drop l.stop) =
        before ++ { l with stop := l.start + 1 + content.length } ::
          after.map (moved l.stop (l.start + 1 + content.length)) := by
  have hscan := scanned_scanAll m text
  obtain ⟨hmark, hopen⟩ := hscan.opens hl
  obtain ⟨hstart, hget⟩ := List.getElem?_eq_some_iff.1 hmark
  obtain ⟨hstop, hget'⟩ := List.getElem?_eq_some_iff.1 (hscan.closes hl hstring).2
  obtain ⟨after, heq, hclosed, hbehind⟩ := exists_scanned_behind hl
  refine ⟨scan m text 0 l.start, after, heq, ?_⟩
  -- the text before the literal, the literal with its new content, and the text behind it
  have hfront : Scanned m 0 (text.take l.start) (scan m text 0 l.start) := by
    have h := scanned_scanFrom m 0 (text.take l.start)
    simpa [scan, Text.slice] using h
  have hmoved := hbehind.move (l.start + 1 + content.length + 1)
  rw [hbehind.map_moved_add] at hmoved
  have hliteral : Scanned m l.start (l.mark :: (content ++ l.mark :: text.drop (l.stop + 1)))
      ({ l with stop := l.start + 1 + content.length } ::
        after.map (moved l.stop (l.start + 1 + content.length))) := by
    have hsum : l.start + content.length + 2 = l.start + 1 + content.length + 1 := by omega
    have hstop : l.start + content.length + 1 = l.start + 1 + content.length := by omega
    have hend : endDistance? l.mark l.kind (content ++ l.mark :: text.drop (l.stop + 1)) =
        some content.length := by
      rw [hstring.1]
      exact hcontent _
    have hrest : Scanned m (l.start + content.length + 2)
        ((content ++ l.mark :: text.drop (l.stop + 1)).drop (content.length + 1))
        (after.map (moved l.stop (l.start + 1 + content.length))) := by
      rw [hsum, List.drop_length_add_append]
      exact hmoved
    have hnew := Scanned.closed hopen (by simp [hstring.1]) hend hrest
    rw [hstop] at hnew
    simpa [hstring.2] using hnew
  have hlen : 0 + (text.take l.start).length = l.start := by
    rw [List.length_take]
    omega
  rw [← hlen] at hliteral
  have hall := hfront.append hclosed hliteral
  rw [hlen] at hall
  have htext : text.take (l.start + 1) ++ content ++ text.drop l.stop =
      text.take l.start ++ l.mark :: (content ++ l.mark :: text.drop (l.stop + 1)) := by
    rw [Nat.sub_zero] at hmark
    rw [List.take_add_one, hmark, List.drop_eq_getElem_cons hstop, hget']
    simp
  rw [htext, hall.eq_scanFrom]
  exact (scanned_scanAll m _).eq_scanFrom

end EmbeddedSql.Literal
