/-
**Which values have a text.**

A value is turned into text by a recursion that has an end: lists and objects that stand in each
other too deeply use up the call stack, and a whole number of more than 4300 digits is not written
at all.  Both are told by the value, without the recursion: by its height, and by the numbers that
stand in it.  Where both are the case, the order of the parts decides which of the two comes up.

Main definitions:

* `Value.height` — how many lists and objects stand in each other, with what stands in the last one;
* `Value.holdsOversized` — whether a whole number with too many digits stands in a value;
* `Shown` — a text that may be missing, with a condition for each reason;
* `Value.Printable` — a value that has a text.

Main results:

* `Shown.bind` — one text behind another;
* `Value.shown_display` — the display of a value, **for every depth**;
* `Value.text_eq_error_iff` — a value has no text exactly if it is not printable.
-/

import EmbeddedSql.Value.Basic
import Mathlib.Order.MinMax

set_option relaxedAutoImplicit false
set_option autoImplicit false

namespace EmbeddedSql

/-! ### Missing texts -/

/-- A result that is there if neither condition holds; each reason for it to be missing has its own
condition. -/
inductive Shown {α : Type} (deep oversized : Prop) : Except TextError α → Prop
  | ok (a : α) (hdeep : ¬ deep) (hoversized : ¬ oversized) : Shown deep oversized (.ok a)
  | tooDeep (h : deep) : Shown deep oversized (.error .tooDeep)
  | oversized (h : oversized) : Shown deep oversized (.error .oversized)

namespace Shown

variable {α β : Type} {deep deep' oversized oversized' : Prop}

/-- One text behind another. -/
theorem bind {x : Except TextError α} {f : α → Except TextError β} (hx : Shown deep oversized x)
    (hf : ∀ a, Shown deep' oversized' (f a)) :
    Shown (deep ∨ deep') (oversized ∨ oversized') (x >>= f) := by
  cases hx with
  | tooDeep h => exact .tooDeep (Or.inl h)
  | oversized h => exact .oversized (Or.inl h)
  | ok a hdeep hoversized =>
      have ha := hf a
      change Shown _ _ (f a)
      generalize f a = y at ha ⊢
      cases ha with
      | tooDeep h => exact .tooDeep (Or.inr h)
      | oversized h => exact .oversized (Or.inr h)
      | ok b hdeep' hoversized' =>
          exact .ok b (not_or.2 ⟨hdeep, hdeep'⟩) (not_or.2 ⟨hoversized, hoversized'⟩)

/-- What is made of a text is there if the text is. -/
theorem map {x : Except TextError α} (hx : Shown deep oversized x) (f : α → β) :
    Shown deep oversized (x >>= fun a => pure (f a)) := by
  cases hx with
  | ok a hdeep hoversized => exact .ok (f a) hdeep hoversized
  | tooDeep h => exact .tooDeep h
  | oversized h => exact .oversized h

/-- A text is missing exactly if one of the conditions holds. -/
theorem eq_error_iff {x : Except TextError α} (hx : Shown deep oversized x) :
    (∃ e, x = .error e) ↔ deep ∨ oversized := by
  cases hx with
  | ok a hdeep hoversized => simp [hdeep, hoversized]
  | tooDeep h => exact ⟨fun _ => Or.inl h, fun _ => ⟨_, rfl⟩⟩
  | oversized h => exact ⟨fun _ => Or.inr h, fun _ => ⟨_, rfl⟩⟩

end Shown

/-! ### Scalars -/

namespace Scalar

/-- Whether a scalar is a whole number with too many digits. -/
def isOversized : Scalar → Bool
  | .int n => Text.Numeral.isOversized n
  | _ => false

theorem shown_display (s : Scalar) : Shown False (s.isOversized = true) s.display := by
  cases s with
  | int n =>
      rw [display, isOversized]
      cases Text.Numeral.isOversized n with
      | false => exact .ok _ not_false Bool.false_ne_true
      | true => exact .oversized rfl
  | bool b => cases b <;> exact .ok _ not_false Bool.false_ne_true
  | _ => exact .ok _ not_false Bool.false_ne_true

theorem shown_text (s : Scalar) : Shown False (s.isOversized = true) s.text := by
  cases s with
  | str t => exact .ok t not_false Bool.false_ne_true
  | moment m => exact .ok m.text not_false Bool.false_ne_true
  | null => exact shown_display .null
  | bool b => exact shown_display (.bool b)
  | int n => exact shown_display (.int n)
  | real r => exact shown_display (.real r)

theorem shown_displayAt (depth : Nat) (s : Scalar) :
    Shown (depth < 1) (s.isOversized = true) (s.displayAt depth) := by
  cases depth with
  | zero => exact .tooDeep Nat.one_pos
  | succ depth => simpa [displayAt] using s.shown_display

/-- A scalar is not nested, so it has no other flaw. -/
theorem eq_oversized_of_text {s : Scalar} {e : TextError} (h : s.text = .error e) :
    e = .oversized := by
  have hs := s.shown_text
  rw [h] at hs
  cases hs with
  | tooDeep hdeep => exact hdeep.elim
  | oversized => rfl

end Scalar

/-! ### Values -/

namespace Value

mutual

/-- How many lists and objects stand in each other, with what stands in the last one. -/
def height : Value → Nat
  | .scalar _ => 1
  | .list items => heightOfItems items + 1
  | .object entries => heightOfEntries entries + 1

/-- The height of the highest item. -/
def heightOfItems : List Value → Nat
  | [] => 0
  | v :: rest => max v.height (heightOfItems rest)

/-- The height of the highest entry. -/
def heightOfEntries : List (Scalar × Value) → Nat
  | [] => 0
  | (_, v) :: rest => max v.height (heightOfEntries rest)

end

mutual

/-- Whether a whole number with too many digits stands in a value. -/
def holdsOversized : Value → Bool
  | .scalar s => s.isOversized
  | .list items => itemsHoldOversized items
  | .object entries => entriesHoldOversized entries

/-- Whether one stands in some item. -/
def itemsHoldOversized : List Value → Bool
  | [] => false
  | v :: rest => v.holdsOversized || itemsHoldOversized rest

/-- Whether one stands in some entry, or is its key. -/
def entriesHoldOversized : List (Scalar × Value) → Bool
  | [] => false
  | (k, v) :: rest => k.isOversized || v.holdsOversized || entriesHoldOversized rest

end

theorem height_pos (v : Value) : 1 ≤ v.height := by
  cases v <;> simp [height]

mutual

/-- The display of a value, **for every depth**: it is missing if the value is higher, or if an
oversized number stands in it. -/
theorem shown_display (depth : Nat) (v : Value) :
    Shown (depth < v.height) (v.holdsOversized = true) (display depth v) := by
  cases v with
  | scalar s =>
      rw [display]
      exact s.shown_displayAt depth
  | list items =>
      cases depth with
      | zero =>
          rw [display]
          · exact .tooDeep (Nat.succ_pos _)
          · nofun
      | succ depth =>
          rw [display]
          simpa [height, holdsOversized] using (shown_displayItems depth items).map _
  | object entries =>
      cases depth with
      | zero =>
          rw [display]
          · exact .tooDeep (Nat.succ_pos _)
          · nofun
      | succ depth =>
          rw [display]
          simpa [height, holdsOversized] using (shown_displayEntries depth entries).map _

theorem shown_displayItems (depth : Nat) (items : List Value) :
    Shown (depth < heightOfItems items) (itemsHoldOversized items = true)
      (displayItems depth items) := by
  cases items with
  | nil => exact .ok [] (Nat.not_lt_zero depth) Bool.false_ne_true
  | cons v rest =>
      rw [displayItems]
      simpa [heightOfItems, itemsHoldOversized, lt_max_iff] using
        (shown_display depth v).bind fun first => (shown_displayItems depth rest).map _

theorem shown_displayEntries (depth : Nat) (entries : List (Scalar × Value)) :
    Shown (depth < heightOfEntries entries) (entriesHoldOversized entries = true)
      (displayEntries depth entries) := by
  cases entries with
  | nil => exact .ok [] (Nat.not_lt_zero depth) Bool.false_ne_true
  | cons e rest =>
      obtain ⟨k, v⟩ := e
      -- the key stands as deep as the value, so it adds no height
      have hkey : (depth < 1 ∨ depth < v.height ∨ depth < heightOfEntries rest) ↔
          depth < v.height ∨ depth < heightOfEntries rest := by
        have hv := v.height_pos
        omega
      have hshown := (k.shown_displayAt depth).bind fun key => (shown_display depth v).bind
        fun value => (shown_displayEntries depth rest).map fun shown =>
          (key ++ ": " ++ value) :: shown
      rw [hkey] at hshown
      rw [displayEntries]
      simpa [heightOfEntries, entriesHoldOversized, lt_max_iff, or_assoc] using hshown

end

/-! ### Texts -/

/-- A value that has a text: no whole number in it has too many digits, and lists and objects stand
in each other no deeper than `depth`. -/
def Printable (depth : Nat) (v : Value) : Prop :=
  v.holdsOversized = false ∧ ((∃ s, v = .scalar s) ∨ v.height ≤ depth)

theorem shown_text (depth : Nat) (v : Value) :
    Shown ((∀ s, v ≠ .scalar s) ∧ depth < v.height) (v.holdsOversized = true) (text depth v) := by
  cases v with
  | scalar s => simpa [text, holdsOversized] using s.shown_text
  | list items => simpa [text] using shown_display depth (.list items)
  | object entries => simpa [text] using shown_display depth (.object entries)

/-- A value has no text **exactly if** it is not printable. -/
theorem text_eq_error_iff (depth : Nat) (v : Value) :
    (∃ e, text depth v = .error e) ↔ ¬ v.Printable depth := by
  rw [(shown_text depth v).eq_error_iff, Printable, Classical.not_and_iff_not_or_not, not_or,
    Nat.not_le, not_exists, Bool.not_eq_false, or_comm]

/-- Only a value that is higher than the stack bears uses it up. -/
theorem lt_height_of_text {depth : Nat} {v : Value} (h : text depth v = .error .tooDeep) :
    depth < v.height := by
  have hv := shown_text depth v
  rw [h] at hv
  cases hv with
  | tooDeep hdeep => exact hdeep.2

end Value

end EmbeddedSql
