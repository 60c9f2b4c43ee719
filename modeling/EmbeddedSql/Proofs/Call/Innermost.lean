/-
**The innermost call around a literal.**

Two folds choose a call: one takes the call with the last opening parenthesis among those that
accept a literal, the other takes it among all calls around the literal and prefers longer names.
Both are one fold with a different filter and a different order, `Call.pick`, and both orders are
strict, so the choice is a maximum.

Main definitions:

* `Call.pick` — the first admitted call that no later admitted one is better than;
* `Call.Around` — the calls that contain a literal;
* `Call.Innermost` — the call around a literal with the last opening parenthesis.

Main results:

* `Call.pick_spec` — **the choice is a maximum**;
* `Call.Innermost.unique` — there is one innermost call only;
* `Call.stopOf_le` — how far a call can reach.
-/

import EmbeddedSql.Cursor
import EmbeddedSql.Proofs.Call.Occurrence
import EmbeddedSql.Region
import Mathlib.Data.List.Induction

set_option relaxedAutoImplicit false
set_option autoImplicit false

namespace EmbeddedSql.Call

/-! ### Choosing a call -/

/-- The first admitted call that no later admitted one is better than. -/
def pick (admits : Call → Bool) (better : Call → Call → Bool) (calls : List Call) : Option Call :=
  calls.foldl (fun best call =>
    if admits call then
      match best with
      | none => some call
      | some b => if better b call then some call else best
    else best) none

theorem pick_concat (admits : Call → Bool) (better : Call → Call → Bool) (calls : List Call)
    (call : Call) :
    pick admits better (calls ++ [call]) =
      if admits call then
        match pick admits better calls with
        | none => some call
        | some b => if better b call then some call else some b
      else pick admits better calls := by
  rw [pick, List.foldl_concat]
  change (if admits call then
    match pick admits better calls with
    | none => some call
    | some b => if better b call then some call else pick admits better calls
    else pick admits better calls) = _
  cases pick admits better calls <;> rfl

/-- **The choice is a maximum** of the admitted calls. -/
theorem pick_spec (admits : Call → Bool) (better : Call → Call → Bool)
    (hirrefl : ∀ a, better a a = false)
    (htrans : ∀ a b c, better a b = true → better b c = true → better a c = true)
    (calls : List Call) :
    match pick admits better calls with
    | none => ∀ x ∈ calls, admits x = false
    | some b =>
      b ∈ calls ∧ admits b = true ∧ ∀ x ∈ calls, admits x = true → better b x = false := by
  induction calls using List.reverseRecOn with
  | nil => simp [pick]
  | append_singleton calls call ih =>
      rw [pick_concat]
      by_cases hadm : admits call = true
      · rw [if_pos hadm]
        cases hb : pick admits better calls with
        | none =>
            rw [hb] at ih
            refine ⟨by simp, hadm, fun x hx hx' => ?_⟩
            rcases List.mem_append.1 hx with hx | hx
            · simp [ih x hx] at hx'
            · rw [List.mem_singleton.1 hx]
              exact hirrefl call
        | some b =>
            rw [hb] at ih
            obtain ⟨hmem, hadmb, hmax⟩ := ih
            by_cases hbetter : better b call = true
            · -- the new call is better than the best one, hence better than the others
              simp only [hbetter, if_true]
              refine ⟨by simp, hadm, fun x hx hx' => ?_⟩
              rcases List.mem_append.1 hx with hx | hx
              · by_contra hcall
                have := htrans b call x hbetter (by simpa using hcall)
                simp [hmax x hx hx'] at this
              · rw [List.mem_singleton.1 hx]
                exact hirrefl call
            · simp only [hbetter]
              refine ⟨by simp [hmem], hadmb, fun x hx hx' => ?_⟩
              rcases List.mem_append.1 hx with hx | hx
              · exact hmax x hx hx'
              · rw [List.mem_singleton.1 hx]
                simpa using hbetter
      · rw [if_neg hadm]
        cases hb : pick admits better calls with
        | none =>
            rw [hb] at ih
            intro x hx
            rcases List.mem_append.1 hx with hx | hx
            · exact ih x hx
            · rw [List.mem_singleton.1 hx]
              simpa using hadm
        | some b =>
            rw [hb] at ih
            obtain ⟨hmem, hadmb, hmax⟩ := ih
            refine ⟨by simp [hmem], hadmb, fun x hx hx' => ?_⟩
            rcases List.mem_append.1 hx with hx | hx
            · exact hmax x hx hx'
            · rw [List.mem_singleton.1 hx] at hx'
              exact absurd hx' hadm

theorem owner?_eq_pick (d : Detection) (text : Text) (l : Literal) (calls : List Call) :
    Region.owner? d text l calls =
      pick (Region.accepts d text l) (fun a b => decide (a.opening < b.opening)) calls := by
  unfold Region.owner? pick
  refine congrArg (fun step => calls.foldl step none) ?_
  funext best call
  cases best <;> simp

/-- The owner of a literal is a call that accepts it, with the last opening parenthesis. -/
theorem owner?_spec (d : Detection) (text : Text) (l : Literal) (calls : List Call) :
    match Region.owner? d text l calls with
    | none => ∀ x ∈ calls, Region.accepts d text l x = false
    | some b => b ∈ calls ∧ Region.accepts d text l b = true ∧
        ∀ x ∈ calls, Region.accepts d text l x = true → x.opening ≤ b.opening := by
  have hspec := pick_spec (Region.accepts d text l) (fun a b => decide (a.opening < b.opening))
    (fun a => by simp) (fun a b c hab hbc => by simp at hab hbc ⊢; omega) calls
  rw [← owner?_eq_pick] at hspec
  cases hown : Region.owner? d text l calls with
  | none => simpa [hown] using hspec
  | some b => simpa [hown] using hspec

theorem innermost?_eq_pick (calls : List Call) :
    Cursor.innermost? calls = pick (fun _ => true) Cursor.prefers calls := by
  unfold Cursor.innermost? pick
  refine congrArg (fun step => calls.foldl step none) ?_
  funext best call
  cases best <;> simp

theorem prefers_eq_true_iff (a b : Call) :
    Cursor.prefers a b = true ↔
      a.opening < b.opening ∨ a.opening = b.opening ∧ a.function.length < b.function.length := by
  simp [Cursor.prefers]

theorem prefers_irrefl (a : Call) : Cursor.prefers a a = false := by
  rw [← Bool.not_eq_true, prefers_eq_true_iff]
  omega

theorem prefers_trans (a b c : Call) (hab : Cursor.prefers a b = true)
    (hbc : Cursor.prefers b c = true) : Cursor.prefers a c = true := by
  rw [prefers_eq_true_iff] at *
  omega

/-! ### Calls around a literal -/

/-- A call that contains the literal between two offsets. -/
structure Around (d : Detection) (text : Text) (opening stop : Nat) (call : Call) : Prop where
  found : Found d text call
  opening_lt : call.opening < opening
  lt_stop : stop < call.stop

/-- The call around a literal with the last opening parenthesis. -/
structure Innermost (d : Detection) (text : Text) (opening stop : Nat) (call : Call) : Prop where
  around : Around d text opening stop call
  le_opening : ∀ x, Around d text opening stop x → x.opening ≤ call.opening

/-- There is one innermost call only. -/
theorem Innermost.unique {d : Detection} {text : Text} {opening stop : Nat} {x y : Call}
    (hwords : ∀ f ∈ d.functions, IsWord f.toList) (hx : Innermost d text opening stop x)
    (hy : Innermost d text opening stop y) : x = y := by
  refine hx.around.found.eq_of_opening_eq hwords hy.around.found (Nat.le_antisymm ?_ ?_)
  · exact hy.le_opening x hx.around
  · exact hx.le_opening y hy.around

/-- A list of all calls around a literal yields the innermost one. -/
theorem innermost?_eq_some {d : Detection} {text : Text} {opening stop : Nat} {calls : List Call}
    (hmem : ∀ x, x ∈ calls ↔ Around d text opening stop x) {call : Call}
    (h : Cursor.innermost? calls = some call) : Innermost d text opening stop call := by
  have hspec := pick_spec (fun _ => true) Cursor.prefers prefers_irrefl prefers_trans calls
  rw [← innermost?_eq_pick, h] at hspec
  obtain ⟨hcall, -, hmax⟩ := hspec
  refine ⟨(hmem call).1 hcall, fun x hx => ?_⟩
  have hle := hmax x ((hmem x).2 hx) rfl
  rw [← Bool.not_eq_true, prefers_eq_true_iff] at hle
  omega

theorem exists_innermost?_eq_some {calls : List Call} {call : Call} (h : call ∈ calls) :
    ∃ inner, Cursor.innermost? calls = some inner := by
  have hspec := pick_spec (fun _ => true) Cursor.prefers prefers_irrefl prefers_trans calls
  rw [← innermost?_eq_pick] at hspec
  cases hinner : Cursor.innermost? calls with
  | none =>
      rw [hinner] at hspec
      simpa using hspec call h
  | some inner => exact ⟨inner, rfl⟩

/-! ### How far a call reaches -/

theorem closeDistance?_lt {m : Marks} {mode : Bracket.Mode} {depth : Nat} {t : Text} {n : Nat}
    (h : Bracket.closeDistance? m mode depth t = some n) : n < t.length := by
  fun_induction Bracket.closeDistance? m mode depth t generalizing n <;>
    simp only [reduceCtorEq, Option.map_eq_some_iff, Option.some.injEq] at h <;>
    grind

theorem stopOf_le (d : Detection) (text : Text) (opening : Nat) :
    stopOf d text opening ≤ opening + 1 + d.limits.callLength := by
  unfold stopOf
  cases hclose : Bracket.matchingClose? d.marks text opening d.limits.callLength with
  | none =>
      simp only [Option.getD_none]
      omega
  | some close =>
      unfold Bracket.matchingClose? at hclose
      split at hclose
      · obtain ⟨n, hn, rfl⟩ := Option.map_eq_some_iff.1 hclose
        have hlt := closeDistance?_lt hn
        rw [List.length_take] at hlt
        simp only [Option.getD_some]
        omega
      · simp at hclose

end EmbeddedSql.Call
