/-
**Entries by name.**

* `Named` — entries, each under a name;
* `Named.get?` — the entry under a name;
* `Named.insert`, `Named.erase` — writing and removing an entry.

An entry replaces an older one of the same name, and no operation touches the entries of other
names.
-/

set_option relaxedAutoImplicit false
set_option autoImplicit false

namespace EmbeddedSql

/-- Entries, each under a name. -/
abbrev Named (α : Type) := List (String × α)

namespace Named

variable {α : Type}

/-- The entry under a name. -/
def get? (es : Named α) (name : String) : Option α :=
  es.lookup name

/-- The entries without the one under a name. -/
def erase (es : Named α) (name : String) : Named α :=
  es.filter (·.1 ≠ name)

/-- The entries with a new one under a name. -/
def insert (es : Named α) (name : String) (a : α) : Named α :=
  (name, a) :: es.erase name

/-- The names of the entries. -/
def names (es : Named α) : List String :=
  es.map Prod.fst

@[simp] theorem get?_nil (name : String) : get? ([] : Named α) name = none := rfl

theorem get?_cons (name other : String) (a : α) (es : Named α) :
    get? ((name, a) :: es) other = if other = name then some a else get? es other := by
  by_cases h : other = name
  · simp [get?, h]
  · have hne : (other == name) = false := by simpa using h
    simp [get?, List.lookup_cons, h, hne]

/-- Removing an entry leaves the others. -/
theorem get?_erase (es : Named α) (name other : String) :
    (es.erase name).get? other = if other = name then none else es.get? other := by
  induction es with
  | nil => simp [erase]
  | cons e es ih =>
    obtain ⟨k, a⟩ := e
    by_cases hk : k = name
    · have hcons : erase ((k, a) :: es) name = erase es name := by simp [erase, hk]
      rw [hcons, ih, get?_cons, hk]
      split <;> rfl
    · have hcons : erase ((k, a) :: es) name = (k, a) :: erase es name := by simp [erase, hk]
      rw [hcons, get?_cons, get?_cons, ih]
      by_cases ho : other = k
      · simp [ho, hk]
      · simp [ho]

/-- Writing an entry leaves the others. -/
theorem get?_insert (es : Named α) (name other : String) (a : α) :
    (es.insert name a).get? other = if other = name then some a else es.get? other := by
  rw [insert, get?_cons, get?_erase]
  split <;> rfl

/-- A name is among the names of the entries if there is an entry under it. -/
theorem mem_names_iff (es : Named α) (name : String) :
    name ∈ es.names ↔ (es.get? name).isSome = true := by
  induction es with
  | nil => simp [names]
  | cons e es ih =>
    obtain ⟨k, a⟩ := e
    rw [get?_cons]
    by_cases hk : name = k
    · simp [names, hk]
    · simpa [names, hk] using ih

theorem nodup_names_erase {es : Named α} (h : es.names.Nodup) (name : String) :
    (es.erase name).names.Nodup :=
  List.Nodup.sublist (List.filter_sublist.map Prod.fst) h

/-- No name is ever listed twice. -/
theorem nodup_names_insert {es : Named α} (h : es.names.Nodup) (name : String) (a : α) :
    (es.insert name a).names.Nodup := by
  have hnew : name ∉ (es.erase name).names := by
    rw [mem_names_iff, get?_erase]
    simp
  exact List.nodup_cons.2 ⟨hnew, nodup_names_erase h name⟩

end Named

end EmbeddedSql
