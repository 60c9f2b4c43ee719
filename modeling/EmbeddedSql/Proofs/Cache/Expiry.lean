/-
**What is too old stays too old.**

A lookup removes an entry that is too old, so an early lookup could take an entry away that a later
one would still have served.  It cannot when the clock does not go back: the age of an entry is a
difference of rounded readings, and rounding keeps the order.  So whether a lookup was made before
is of no account for what a later one answers.

That rounding keeps the order also tells which lifetimes there are: the longest one is finite as a
double, and so is every shorter one.

Main definition:

* `Cache.lifetimeBound` — the first lifetime that is too long.

Main results:

* `Cache.seconds_eq_error_iff` — **which lifetimes there are**;
* `Cache.expired_of_le` — an entry that is too old stays so;
* `Cache.find_fst_of_le` — what was not found is not found later;
* `Cache.find_find` — **an early lookup changes no later one**.
-/

import EmbeddedSql.Proofs.Cache.History

set_option relaxedAutoImplicit false
set_option autoImplicit false

namespace EmbeddedSql

namespace Cache

/-! ### Lifetimes -/

/-- The first lifetime in milliseconds that is no double: it rounds to `2 ^ 1024`. -/
def lifetimeBound : Nat :=
  2 ^ 1024 - 2 ^ 970

/-- **Which lifetimes there are.** -/
theorem seconds_eq_error_iff (ms : Nat) :
    seconds ms = .error .longLifetime ↔ lifetimeBound ≤ ms := by
  constructor
  · intro herror
    by_contra hlt
    -- the longest lifetime is finite, and so is every shorter one
    have hlow : (Real.finite (.zero false)).le (Real.ofInt ms) = true :=
      Real.ofInt_le_ofInt (Int.natCast_nonneg ms)
    have hhigh : (Real.ofInt ms).le (Real.ofInt (lifetimeBound - 1 : Int)) = true :=
      Real.ofInt_le_ofInt (by omega)
    have hlongest : Real.ofInt (lifetimeBound - 1 : Int) = .finite ⟨false, 2 ^ 53 - 1, 971⟩ := by
      decide +kernel
    have hscaled : (Real.finite ⟨false, 2 ^ 53 - 1, 971⟩).scale 1 1000 =
        .finite ⟨false, 4611686018427387, 962⟩ := by decide +kernel
    rw [hlongest] at hhigh
    have hlow' := Real.scale_le_scale hlow 1 (show 0 < 1000 by decide)
    have hhigh' := Real.scale_le_scale hhigh 1 (show 0 < 1000 by decide)
    rw [hscaled] at hhigh'
    obtain ⟨t, ht⟩ := Real.exists_eq_finite hlow hhigh
    obtain ⟨u, hu⟩ := Real.exists_eq_finite hlow' hhigh'
    rw [seconds, hu, ht] at herror
    cases herror
  · intro hle
    have hinfinite : Real.ofInt lifetimeBound = .infinite false := by decide +kernel
    have hms := Real.ofInt_le_ofInt (Int.ofNat_le.2 hle)
    rw [hinfinite] at hms
    unfold seconds
    cases hcase : Real.ofInt ms with
    | finite b =>
        rw [hcase] at hms
        cases hms
    | infinite s => rfl
    | undefined => rfl

/-! ### Ages -/

/-- An entry that is too old stays so. -/
theorem expired_of_le {lifetime : Binary} {now later stored : Real}
    (hlater : now.le later = true) (h : expired lifetime stored now = true) :
    expired lifetime stored later = true := by
  unfold expired Real.sub at h ⊢
  generalize stored.neg = c at *
  have hnow : now.add c ≠ .undefined := by
    intro hundefined
    rw [hundefined] at h
    cases h
  refine Real.le_trans h (Real.add_le_add hlater hnow ?_)
  -- two infinite numbers of different sign could still be added
  intro hundefined
  cases later with
  | undefined => cases now <;> cases hlater
  | finite y =>
      cases c with
      | undefined => cases now <;> exact absurd rfl hnow
      | infinite u => cases hundefined
      | finite z => exact Real.round_ne_undefined _ _ _ hundefined
  | infinite t =>
      cases c with
      | undefined => cases now <;> exact absurd rfl hnow
      | finite z => cases hundefined
      | infinite u =>
          cases u with
          | true =>
              -- no lifetime is as short as that age
              rw [Real.add_infinite hnow] at h
              cases h
          | false =>
              obtain rfl : t = true := by simpa [Real.add] using hundefined
              cases now with
              | infinite s =>
                  obtain rfl : s = true := by simpa [Real.le] using hlater
                  exact hnow rfl
              | _ => cases hlater

/-! ### Lookups -/

variable {α : Type}

theorem find_fst_of_le {c : Cache α} {uri : String} {version : Int} {now later : Real}
    (hlater : now.le later = true) (h : (c.find uri version now).1 = none) :
    (c.find uri version later).1 = none := by
  unfold find at h ⊢
  cases hentry : c.get? uri with
  | none => rfl
  | some e =>
      rw [hentry] at h
      dsimp only at h ⊢
      split at h
      · next hgone =>
          have hgone' : (e.version ≠ version || expired c.lifetime e.stored later) = true := by
            rcases Bool.or_eq_true_iff.1 hgone with hversion | hold
            · rw [hversion, Bool.true_or]
            · rw [expired_of_le hlater hold, Bool.or_true]
          rw [if_pos hgone']
      · cases h

/-- A lookup leaves the cache as it is, or removes the entry that does not serve. -/
theorem find_cases (c : Cache α) (uri : String) (version : Int) (now : Real) :
    (c.find uri version now).2 = c ∨ c.find uri version now = (none, c.erase uri) := by
  unfold find
  cases c.get? uri with
  | none => exact Or.inl rfl
  | some e =>
      dsimp only
      split
      · exact Or.inr rfl
      · exact Or.inl rfl

theorem find_erase (c : Cache α) (uri : String) (version : Int) (now : Real) :
    ((c.erase uri).find uri version now).1 = none := by
  unfold find
  rw [get?_erase, if_pos rfl]

/-- What was put into a cache is found or too old. -/
theorem find_insert (c : Cache α) (uri : String) (version : Int) (content : α)
    (stored now : Real) :
    ((c.insert uri version content stored).find uri version now).1 = some content ∨
      ((c.insert uri version content stored).find uri version now).1 = none := by
  unfold find
  rw [get?_insert, if_pos rfl]
  dsimp only
  split
  · exact Or.inr rfl
  · exact Or.inl rfl

/-- **An early lookup changes no later one.** -/
theorem find_find (c : Cache α) (uri : String) (version : Int) {now later : Real}
    (hlater : now.le later = true) :
    ((c.find uri version now).2.find uri version later).1 = (c.find uri version later).1 := by
  rcases c.find_cases uri version now with hsame | hremoved
  · rw [hsame]
  · rw [find_fst_of_le hlater (congrArg Prod.fst hremoved), hremoved]
    exact c.find_erase uri version _

end Cache

end EmbeddedSql
