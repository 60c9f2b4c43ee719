/-
**Overrides laid over an object.**

Entries of overrides are merged into an object one after another.  When no key occurs twice, as
in any mapping, the order does not matter, and what stands under a key afterwards is told by two
lookups: what stood there before, and what the overrides hold there.  An object merged into itself
stays what it is.

Main definitions:

* `Value.Distinct` — no object in a value holds a key twice;
* `Value.Keyed` — all keys of an object are among the given texts;
* `Value.atPath?` — the value that a list of keys leads to.

Main results:

* `Value.lookup_merge` — **what stands under a key of the merged object**;
* `Value.keyed_merge_iff` — its keys are those of both;
* `Value.mergeValue_self` — **a value merged into itself** is the value.
-/

import EmbeddedSql.Settings.Merge

set_option relaxedAutoImplicit false
set_option autoImplicit false

namespace EmbeddedSql

namespace Scalar

@[simp] theorem same_self (a : Scalar) : a.same a = true := by
  unfold same
  cases a.size? <;> simp

/-- No other scalar is the same key as a text. -/
theorem str_same (s : String) (a : Scalar) : (Scalar.str s).same a = true ↔ a = .str s := by
  cases a with
  | real r => cases r <;> simp [same, size?]
  | str t => simpa [same, size?] using eq_comm
  | _ => simp [same, size?]

end Scalar

namespace Value

/-! ### Values without double keys -/

/-- No object in a value holds a key twice. -/
inductive Distinct : Value → Prop
  | scalar (s : Scalar) : Distinct (.scalar s)
  | list {items : List Value} (h : ∀ v ∈ items, Distinct v) : Distinct (.list items)
  | object {es : List (Scalar × Value)} (hkeys : es.Pairwise fun a b => a.1.same b.1 = false)
      (hvalues : ∀ e ∈ es, Distinct e.2) : Distinct (.object es)

theorem Distinct.ofNat (n : Nat) : (Value.ofNat n).Distinct := .scalar _

theorem Distinct.ofNames (xs : List String) : (Value.ofNames xs).Distinct := by
  refine .list fun v hv => ?_
  obtain ⟨x, -, rfl⟩ := List.mem_map.1 hv
  exact .scalar _

theorem Distinct.record {entries : List (String × Value)} (hkeys : (entries.map Prod.fst).Nodup)
    (hvalues : ∀ e ∈ entries, e.2.Distinct) : (Value.record entries).Distinct := by
  refine .object ?_ ?_
  · rw [List.pairwise_map]
    refine (List.pairwise_map.1 hkeys).imp fun {a b} hne => ?_
    simpa [Bool.eq_false_iff, Scalar.same_str] using hne
  · rw [List.forall_mem_map]
    exact hvalues

/-- All keys of an object are among the given texts. -/
def Keyed (keys : List String) (es : List (Scalar × Value)) : Prop :=
  ∀ e ∈ es, ∃ key ∈ keys, e.1 = .str key

/-- The value that a list of keys leads to. -/
def atPath? : List String → Value → Option Value
  | [], v => some v
  | key :: path, v => (v.get? key).bind (atPath? path)

variable {es changes : List (Scalar × Value)} {key : String} {v : Value}

theorem lookup_cons (key : String) (e : Scalar × Value) (es : List (Scalar × Value)) :
    lookup key (e :: es) = if e.1 = .str key then some e.2 else lookup key es := by
  obtain ⟨other, v⟩ := e
  by_cases h : other = .str key
  · simp [lookup, h]
  · have hne : (Scalar.str key == other) = false := by simpa using fun hk => h hk.symm
    simp [lookup, List.lookup_cons, h, hne]

theorem atKey?_str (key : String) (es : List (Scalar × Value)) :
    atKey? (.str key) es = lookup key es := by
  induction es with
  | nil => rfl
  | cons e es ih =>
      by_cases h : e.1 = .str key
      · simp [atKey?, lookup_cons, h]
      · have hne : e.1.same (.str key) = false := by
          simpa using fun hs => h ((Scalar.same_str _ key).1 hs)
        simpa [atKey?, lookup_cons, h, hne] using ih

theorem mem_of_lookup (h : lookup key es = some v) : (Scalar.str key, v) ∈ es := by
  induction es with
  | nil => simp [lookup] at h
  | cons e es ih =>
      rw [lookup_cons] at h
      split at h
      · next hkey =>
          obtain rfl := Option.some.inj h
          rw [← hkey]
          exact List.mem_cons_self
      · exact List.mem_cons_of_mem _ (ih h)

/-- Setting the value under a key leaves what stands under the texts that are other keys. -/
theorem lookup_insertKey_of_ne {other : Scalar} (h : other ≠ .str key) (v : Value)
    (es : List (Scalar × Value)) : lookup key (insertKey other v es) = lookup key es := by
  induction es with
  | nil => simp [insertKey, lookup_cons, h]
  | cons e es ih =>
      rw [insertKey]
      split
      · next hsame =>
          -- the entry that is changed has another key as well
          have hne : e.1 ≠ .str key := by
            intro hkey
            rw [hkey, Scalar.str_same] at hsame
            exact h hsame
          simp [lookup_cons, hne]
      · simp [lookup_cons, ih]

/-- **What stands under a key of the merged object.** -/
theorem lookup_merge (key : String)
    (hkeys : changes.Pairwise fun a b => a.1.same b.1 = false) (es : List (Scalar × Value)) :
    lookup key (merge es changes) =
      match lookup key changes with
      | none => lookup key es
      | some v => some (mergeValue (lookup key es) v) := by
  induction changes generalizing es with
  | nil => simp [merge, lookup]
  | cons c changes ih =>
      obtain ⟨other, v⟩ := c
      obtain ⟨hother, hkeys⟩ := List.pairwise_cons.1 hkeys
      rw [merge, ih hkeys, lookup_cons]
      by_cases h : other = .str key
      · subst h
        -- the key does not occur again
        have hnone : lookup key changes = none := by
          cases hfound : lookup key changes with
          | none => rfl
          | some w => simpa using hother _ (mem_of_lookup hfound)
        simp [hnone, lookup_insertKey, atKey?_str]
      · simp [h, lookup_insertKey_of_ne h]

/-! ### The keys of a merged object -/

theorem keyed_cons_iff {keys : List String} {e : Scalar × Value} :
    Keyed keys (e :: es) ↔ (∃ key ∈ keys, e.1 = .str key) ∧ Keyed keys es :=
  List.forall_mem_cons

theorem keyed_insertKey_iff {keys : List String} {other : Scalar} :
    Keyed keys (insertKey other v es) ↔ (∃ key ∈ keys, other = .str key) ∧ Keyed keys es := by
  induction es with
  | nil => simp [insertKey, Keyed]
  | cons e es ih =>
      rw [insertKey]
      split
      · next hsame =>
          rw [keyed_cons_iff, keyed_cons_iff]
          -- an entry with the same key has this key, if it is a text
          have hkey : (∃ key ∈ keys, e.1 = .str key) → ∃ key ∈ keys, other = .str key := by
            rintro ⟨key, hmem, heq⟩
            rw [heq, Scalar.str_same] at hsame
            exact ⟨key, hmem, hsame⟩
          constructor
          · rintro ⟨he, hes⟩
            exact ⟨hkey he, he, hes⟩
          · rintro ⟨-, he, hes⟩
            exact ⟨he, hes⟩
      · rw [keyed_cons_iff, keyed_cons_iff, ih]
        exact and_left_comm

/-- The keys of the merged object are those of both. -/
theorem keyed_merge_iff {keys : List String} (es changes : List (Scalar × Value)) :
    Keyed keys (merge es changes) ↔ Keyed keys es ∧ Keyed keys changes := by
  induction changes generalizing es with
  | nil => simp [merge, Keyed]
  | cons c changes ih =>
      rw [merge, ih, keyed_insertKey_iff, keyed_cons_iff, and_assoc, and_left_comm]

theorem merge_ne_nil (h : es ≠ []) (changes : List (Scalar × Value)) : merge es changes ≠ [] := by
  induction changes generalizing es with
  | nil => simpa [merge] using h
  | cons c changes ih =>
      rw [merge]
      refine ih ?_
      cases es with
      | nil => simp [insertKey]
      | cons e es =>
          rw [insertKey]
          split <;> simp

/-! ### Merging with itself -/

theorem insertKey_append_of_forall {other : Scalar} {front : List (Scalar × Value)}
    (hfront : ∀ e ∈ front, e.1.same other = false) (w : Value) (es : List (Scalar × Value)) :
    insertKey other w (front ++ (other, v) :: es) = front ++ (other, w) :: es := by
  induction front with
  | nil => simp [insertKey]
  | cons e front ih =>
      obtain ⟨he, hfront⟩ := List.forall_mem_cons.1 hfront
      simp [insertKey, he, ih hfront]

theorem atKey?_append_of_forall {other : Scalar} {front : List (Scalar × Value)}
    (hfront : ∀ e ∈ front, e.1.same other = false) (es : List (Scalar × Value)) :
    atKey? other (front ++ (other, v) :: es) = some v := by
  induction front with
  | nil => simp [atKey?]
  | cons e front ih =>
      obtain ⟨he, hfront⟩ := List.forall_mem_cons.1 hfront
      simpa [atKey?, he] using ih hfront

/-- Entries that the object holds already change nothing. -/
theorem merge_append_self {front : List (Scalar × Value)}
    (hkeys : (front ++ changes).Pairwise fun a b => a.1.same b.1 = false)
    (hvalues : ∀ e ∈ changes, mergeValue (some e.2) e.2 = e.2) :
    merge (front ++ changes) changes = front ++ changes := by
  induction changes generalizing front with
  | nil => simp [merge]
  | cons c changes ih =>
      obtain ⟨other, v⟩ := c
      obtain ⟨hv, hvalues⟩ := List.forall_mem_cons.1 hvalues
      have hfront : ∀ e ∈ front, e.1.same other = false := by
        intro e he
        exact (List.pairwise_append.1 hkeys).2.2 e he _ List.mem_cons_self
      rw [merge, atKey?_append_of_forall hfront, hv, insertKey_append_of_forall hfront]
      -- the entry belongs to the front from now on
      have hsplit : front ++ (other, v) :: changes = (front ++ [(other, v)]) ++ changes := by simp
      rw [hsplit] at hkeys ⊢
      exact ih hkeys hvalues

/-- **A value merged into itself** is the value. -/
theorem mergeValue_self (h : v.Distinct) : mergeValue (some v) v = v := by
  induction h with
  | scalar s => simp [mergeValue]
  | list h _ => simp [mergeValue]
  | @object es hkeys _ ih =>
      have hmerged : merge ([] ++ es) es = [] ++ es := merge_append_self hkeys ih
      rw [mergeValue]
      exact congrArg object hmerged

end Value

end EmbeddedSql
