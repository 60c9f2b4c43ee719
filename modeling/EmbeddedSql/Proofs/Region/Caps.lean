/-
**Raising a cap hides no region.**

The caps of the scanners cut every search short: the document, the occurrences of a name, the blanks
before a parenthesis, the extent of a call.  A call whose end is not found extends as far as the
search for it got, so a longer search may find its end later, and more occurrences of a name may
take a literal away from the call that had it.  None of this makes a region disappear: a search
that looks further finds what it found before, or something behind the place where it had to stop.

Main definitions:

* `Limits.Raised` — caps that are nowhere lower, with the same look back for argument names.

Main results:

* `Bracket.closeDistance?_take`, `Bracket.openDistance?_take` — **a search that stops early** finds
  what the whole search finds before the stop, or nothing;
* `Call.stopOf_le_stopOf` — calls extend at least as far;
* `Region.exists_mem_callsIn` — every call that was followed still is;
* `Region.kept_when_caps_raised` — **every literal that was reported still is**.
-/

import EmbeddedSql.Proofs.Region.Survey

set_option relaxedAutoImplicit false
set_option autoImplicit false

namespace EmbeddedSql

/-! ### Searches that stop early -/

namespace Bracket

variable {m : Marks}

/-- The search for an opening parenthesis in a text that is cut off. -/
theorem openDistance?_take (t : Text) (n : Nat) :
    openDistance? (t.take n) = (openDistance? t).filter (· < n) := by
  induction t generalizing n with
  | nil => simp [openDistance?]
  | cons c t ih =>
      cases n with
      | zero => cases openDistance? (c :: t) <;> simp [openDistance?, Option.filter]
      | succ n =>
          rw [List.take_succ_cons, openDistance?, openDistance?, ih]
          split
          · simp [Option.filter]
          · split
            · cases openDistance? t <;> simp [Option.filter]
            · rfl

/-- A search that passes one character and goes on behind it. -/
theorem closeDistance?_take_cons {mode mode' : Mode} {depth depth' : Nat} {c : Char} {t : Text}
    (hstep : ∀ u, closeDistance? m mode depth (c :: u) =
      (closeDistance? m mode' depth' u).map (· + 1))
    (ih : ∀ n, closeDistance? m mode' depth' (t.take n) =
      (closeDistance? m mode' depth' t).filter (· < n)) (n : Nat) :
    closeDistance? m mode depth ((c :: t).take n) =
      ((closeDistance? m mode' depth' t).map (· + 1)).filter (· < n) := by
  cases n with
  | zero => cases closeDistance? m mode' depth' t <;> simp [closeDistance?, Option.filter]
  | succ n =>
      rw [List.take_succ_cons, hstep, ih]
      cases closeDistance? m mode' depth' t <;> simp [Option.filter]

/-- The search for a closing parenthesis in a text that is cut off. -/
theorem closeDistance?_take (mode : Mode) (depth : Nat) (t : Text) (n : Nat) :
    closeDistance? m mode depth (t.take n) = (closeDistance? m mode depth t).filter (· < n) := by
  fun_induction closeDistance? m mode depth t generalizing n with
  | case1 => simp [closeDistance?]
  | case2 => cases n <;> simp [closeDistance?]
  | case3 q depth d rest ih =>
      -- a backslash and the character behind it, or the backslash alone
      rcases n with _ | _ | n
      · cases closeDistance? m (.string q) depth rest <;> simp [closeDistance?, Option.filter]
      · cases closeDistance? m (.string q) depth rest <;> simp [closeDistance?, Option.filter]
      · rw [List.take_succ_cons, List.take_succ_cons, closeDistance?.eq_def]
        cases hrest : closeDistance? m (.string q) depth rest <;>
          simp [ih, hrest, Option.filter]
  | case4 depth c rest hc ih =>
      refine closeDistance?_take_cons (fun u => ?_) ih n
      rw [closeDistance?.eq_def]
      simp [hc]
  | case5 q depth c rest hc hq ih =>
      refine closeDistance?_take_cons (fun u => ?_) ih n
      rw [closeDistance?.eq_def]
      simp [hc, hq]
  | case6 depth rest ih =>
      exact closeDistance?_take_cons (fun u => by simp [closeDistance?]) ih n
  | case7 depth c rest hc ih =>
      exact closeDistance?_take_cons (fun u => by simp [closeDistance?, hc]) ih n
  | case8 depth c rest hq ih =>
      exact closeDistance?_take_cons (fun u => by simp [closeDistance?, hq]) ih n
  | case9 depth rest hq ih =>
      exact closeDistance?_take_cons (fun u => by simp [closeDistance?, hq]) ih n
  | case10 depth rest hq hc ih =>
      exact closeDistance?_take_cons (fun u => by simp [closeDistance?, hq, hc]) ih n
  | case11 rest hq hc _ =>
      cases n <;> simp [closeDistance?, hq, hc, Option.filter]
  | case12 rest d hq hc _ ih =>
      exact closeDistance?_take_cons (fun u => by simp [closeDistance?, hq, hc]) ih n
  | case13 depth c rest hq hc hopening hclosing ih =>
      refine closeDistance?_take_cons (fun u => ?_) ih n
      simp [closeDistance?, hq, hc, hopening, hclosing]

/-- The parenthesis that closes another one, when the search for it may look further. -/
theorem matchingClose?_of_le (text : Text) (opening : Nat) {reach reach' : Nat}
    (h : reach ≤ reach') : matchingClose? m text opening reach =
      (matchingClose? m text opening reach').filter (· < opening + 1 + reach) := by
  unfold matchingClose?
  split
  · next rest _ =>
      have hcut : rest.take reach = (rest.take reach').take reach := by
        rw [List.take_take, Nat.min_eq_left h]
      rw [hcut, closeDistance?_take]
      cases closeDistance? m .code 0 (rest.take reach') <;> simp [Option.filter]
  · rfl

/-- The opening parenthesis behind a name is found if the search may look further. -/
theorem callOpen?_of_le {text : Text} {nameEnd reach reach' opening : Nat} (h : reach ≤ reach')
    (hopen : callOpen? text nameEnd reach = some opening) :
    callOpen? text nameEnd reach' = some opening := by
  have hcut : (text.drop nameEnd).take reach = ((text.drop nameEnd).take reach').take reach := by
    rw [List.take_take, Nat.min_eq_left h]
  unfold callOpen? at hopen ⊢
  rw [hcut, openDistance?_take] at hopen
  obtain ⟨n, hn, rfl⟩ := Option.map_eq_some_iff.1 hopen
  rw [(Option.filter_eq_some_iff.1 hn).1]
  rfl

end Bracket

/-! ### Raised caps -/

/-- Caps that are nowhere lower.  Argument names are looked for as far back as before, and the caps
of the searches around a cursor are of no account. -/
structure Limits.Raised (a b : Limits) : Prop where
  documentSize : a.documentSize ≤ b.documentSize
  functionMatches : a.functionMatches ≤ b.functionMatches
  parenSearch : a.parenSearch ≤ b.parenSearch
  callLength : a.callLength ≤ b.callLength
  argumentLookback : a.argumentLookback = b.argumentLookback

section

variable {d : Detection} {limits : Limits} (h : d.limits.Raised limits)

include h

/-- **Calls extend at least as far.**  A parenthesis that is only found now stands behind the place
where the search had to stop. -/
theorem Call.stopOf_le_stopOf (text : Text) (opening : Nat) :
    stopOf d text opening ≤ stopOf { d with limits := limits } text opening := by
  have hreach := h.callLength
  simp only [stopOf, Bracket.matchingClose?_of_le text opening hreach]
  cases Bracket.matchingClose? d.marks text opening limits.callLength with
  | none =>
      simp only [Option.filter_none, Option.getD_none]
      omega
  | some close =>
      by_cases hclose : close < opening + 1 + d.limits.callLength
      · simp [Option.filter, hclose]
      · have hnone : (some close).filter (· < opening + 1 + d.limits.callLength) = none := by
          simp [Option.filter, hclose]
        rw [hnone, Option.getD_none, Option.getD_some]
        omega

namespace Region

/-- Every call that was followed still is, and extends at least as far. -/
theorem exists_mem_callsIn {text : Text} {call : Call} (hcall : call ∈ callsIn d text) :
    ∃ call' ∈ callsIn { d with limits := limits } text, call'.function = call.function ∧
      call'.opening = call.opening ∧ call.stop ≤ call'.stop := by
  obtain ⟨f, hf, start, hstart, rfl, hopening, hstop⟩ :=
    (mem_callsIn_iff_exists d text call).1 hcall
  refine ⟨⟨call.function, call.opening, Call.stopOf { d with limits := limits } text call.opening⟩,
    (mem_callsIn_iff_exists _ text _).2 ⟨call.function, hf, start, ?_, rfl, ?_, rfl⟩, rfl, rfl, ?_⟩
  · exact (List.take_subset_take_left _ h.functionMatches) hstart
  · exact Bracket.callOpen?_of_le h.parenSearch hopening
  · rw [hstop]
    exact Call.stopOf_le_stopOf h text call.opening

/-- A literal that a call accepts is accepted by the call that extends further. -/
theorem accepts_of_le {text : Text} {l : Literal} {call call' : Call}
    (hfunction : call'.function = call.function) (hopening : call'.opening = call.opening)
    (hstop : call.stop ≤ call'.stop) (hacc : accepts d text l call = true) :
    accepts { d with limits := limits } text l call' = true := by
  simp only [accepts, Bool.and_eq_true, decide_eq_true_eq] at hacc ⊢
  obtain ⟨⟨hlo, hhi⟩, hargument⟩ := hacc
  refine ⟨⟨by omega, by omega⟩, ?_⟩
  rw [hfunction, ← h.argumentLookback]
  exact hargument

/-- A literal that was reported still is, maybe for a call further inside. -/
theorem exists_ofLiteral? {doc : Document} {l : Literal} {r : Region}
    (hr : ofLiteral? d doc (Literal.scanAll d.marks doc.text) (callsIn d doc.text) l = some r) :
    ∃ s, ofLiteral? { d with limits := limits } doc (Literal.scanAll d.marks doc.text)
        (callsIn { d with limits := limits } doc.text) l = some s ∧
      s.range = r.range ∧ s.raw = r.raw := by
  unfold ofLiteral? at hr ⊢
  split at hr
  · next hstring =>
      rw [if_pos hstring]
      obtain ⟨call, hown, rfl⟩ := Option.map_eq_some_iff.1 hr
      have hspec := Call.owner?_spec d doc.text l (callsIn d doc.text)
      rw [hown] at hspec
      obtain ⟨call', hcall', hfunction, hopening, hstop⟩ := exists_mem_callsIn h hspec.1
      have hacc := accepts_of_le h hfunction hopening hstop hspec.2.1
      have hspec' := Call.owner?_spec { d with limits := limits } doc.text l
        (callsIn { d with limits := limits } doc.text)
      cases hown' : owner? { d with limits := limits } doc.text l
          (callsIn { d with limits := limits } doc.text) with
      | none =>
          rw [hown'] at hspec'
          simp [hspec' call' hcall'] at hacc
      | some owner => exact ⟨_, rfl, rfl, rfl⟩
  · simp at hr

end Region

end

namespace Region

/-- What one search finds and another one finds as well stands in both results in the same
order. -/
theorem map_filterMap_sublist {α β γ : Type} {f g : α → Option β} {p : β → γ} {as : List α}
    (h : ∀ a ∈ as, ∀ b, f a = some b → ∃ c, g a = some c ∧ p c = p b) :
    ((as.filterMap f).map p).Sublist ((as.filterMap g).map p) := by
  induction as with
  | nil => exact List.Sublist.refl _
  | cons a as ih =>
      obtain ⟨hhead, hrest⟩ := List.forall_mem_cons.1 h
      cases hf : f a with
      | none =>
          rw [List.filterMap_cons_none hf]
          refine (ih hrest).trans (List.Sublist.map p ?_)
          exact List.Sublist.filterMap g (List.sublist_cons_self a as)
      | some b =>
          obtain ⟨c, hc, hp⟩ := hhead b hf
          rw [List.filterMap_cons_some hf, List.filterMap_cons_some hc, List.map_cons,
            List.map_cons, hp]
          exact (ih hrest).cons_cons _

/-- **Every literal that was reported still is** when caps are raised: its range and its content are
reported, and the ranges that were reported before come in the same order. -/
theorem kept_when_caps_raised {d : Detection} {limits : Limits} (h : d.limits.Raised limits)
    (doc : Document) :
    (∀ r ∈ all d doc, ∃ s ∈ all { d with limits := limits } doc,
      s.range = r.range ∧ s.raw = r.raw) ∧
      ((all d doc).map (·.range)).Sublist
        ((all { d with limits := limits } doc).map (·.range)) := by
  by_cases hsize : doc.text.length ≤ d.limits.documentSize
  · have hsize' : doc.text.length ≤ limits.documentSize := Nat.le_trans hsize h.documentSize
    rw [all_eq hsize, all_eq (d := { d with limits := limits }) hsize']
    constructor
    · intro r hr
      obtain ⟨l, hl, hr⟩ := List.mem_filterMap.1 hr
      obtain ⟨s, hs, hsame⟩ := exists_ofLiteral? h hr
      exact ⟨s, List.mem_filterMap.2 ⟨l, hl, hs⟩, hsame⟩
    · refine map_filterMap_sublist fun l _ r hr => ?_
      obtain ⟨s, hs, hrange, -⟩ := exists_ofLiteral? h hr
      exact ⟨s, hs, hrange⟩
  · rw [all_eq_nil (Nat.lt_of_not_le hsize)]
    exact ⟨fun r hr => by simp at hr, List.nil_sublist _⟩

/-- Under the low caps the second call of `sql` is not followed and the call around it ends early.
Raised caps give its string to `sql` and add the string behind it. -/
theorem kept_when_caps_raised_inside :
    let doc : Document := ⟨"", "sql('a') dbGetQuery(con, sql('b'), 'c')".toList, 0⟩
    let d : Detection := { limits := { functionMatches := 1, callLength := 15 } }
    let a : Region := ⟨⟨⟨0, 5⟩, ⟨0, 6⟩⟩, "sql", false, false, ['a'], true⟩
    let b : Region := ⟨⟨⟨0, 30⟩, ⟨0, 31⟩⟩, "dbGetQuery", false, false, ['b'], false⟩
    let b' : Region := ⟨⟨⟨0, 30⟩, ⟨0, 31⟩⟩, "sql", false, false, ['b'], true⟩
    let c : Region := ⟨⟨⟨0, 36⟩, ⟨0, 37⟩⟩, "dbGetQuery", false, false, ['c'], true⟩
    (d.limits.Raised {} ∧ all d doc = [a, b] ∧ all {} doc = [a, b', c]) ∧
      (∀ r ∈ [a, b], ∃ s ∈ [a, b', c], s.range = r.range ∧ s.raw = r.raw) ∧
      [a.range, b.range].Sublist [a.range, b'.range, c.range] := by
  intro doc d a b b' c
  have hraised : d.limits.Raised {} :=
    ⟨by decide, by decide, by decide, by decide, rfl⟩
  have hlow : all d doc = [a, b] := by decide +kernel
  have hraise : all { d with limits := {} } doc = [a, b', c] := by decide +kernel
  have hkept := kept_when_caps_raised hraised doc
  rw [hlow, hraise] at hkept
  exact ⟨⟨hraised, hlow, hraise⟩, hkept⟩

end Region

end EmbeddedSql
