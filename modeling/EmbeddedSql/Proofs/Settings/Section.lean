/-
**Overrides of a section.**

Settings stand in sections, and sections in larger ones.  Overrides are laid over the raw form of a
section and the outcome is checked as a whole, so what they do to a single setting has to be found
again behind the merging, the keys of the section and the checks of its other fields.

One predicate goes through all sections: it says which overrides are accepted, and what each setting
is then.  It holds of a single setting, because a value that is no object is replaced; it goes from
the fields of a section to the section, and through a rule between the fields.

Main definitions:

* `Setting` — a single setting of a section, with its path in raw data and its own check;
* `Setting.Follows` — what overrides make of a setting: its value is kept, or its check reads the
  value at its path;
* `FitsSection` — raw values that fit as overrides of a section;
* `Overridable` — how overrides act on a section.

Main results:

* `Overridable.single`, `Overridable.field_iff` — a single setting, and a field that was merged with
  overrides;
* `Overridable.section_of_build`, `Overridable.andThen` — **a section is overridden part by part**,
  and a rule between its parts;
* `overridable_positive`, `overridable_names`, … — the kinds of values that settings have.
-/

import EmbeddedSql.Proofs.Settings.Outcome
import EmbeddedSql.Proofs.Value.Merge

set_option relaxedAutoImplicit false
set_option autoImplicit false

namespace EmbeddedSql

/-! ### Checks that give a result -/

namespace Checked

variable {α β : Type}

@[simp] theorem ok_inj {a b : α} : (ok a : Checked α) = ok b ↔ a = b := by
  simp [ok]

@[simp] theorem fail_ne_ok (path : List String) (kind : FaultKind) (a : α) :
    (fail path kind : Checked α) ≠ ok a := by
  simp [fail, ok]

theorem eq_ok_iff {c : Checked α} {a : α} : c = ok a ↔ c.faults = [] ∧ c.result = some a := by
  obtain ⟨faults, result⟩ := c
  simp [ok]

/-- A check of several fields gives a result when that of the first ones and that of the last one
do. -/
theorem exists_ap_iff {f : Checked (α → β)} {c : Checked α} {P : β → Prop} :
    (∃ b, f.ap c = ok b ∧ P b) ↔ ∃ g, f = ok g ∧ ∃ a, c = ok a ∧ P (g a) := by
  constructor
  · rintro ⟨b, hb, hP⟩
    obtain ⟨hfaults, hresult⟩ := eq_ok_iff.1 hb
    obtain ⟨hf, hc⟩ := List.append_eq_nil_iff.1 hfaults
    obtain ⟨g, hg, hresult⟩ := Option.bind_eq_some_iff.1 hresult
    obtain ⟨a, ha, rfl⟩ := Option.map_eq_some_iff.1 hresult
    exact ⟨g, eq_ok_iff.2 ⟨hf, hg⟩, a, eq_ok_iff.2 ⟨hc, ha⟩, hP⟩
  · rintro ⟨g, rfl, a, rfl, hP⟩
    exact ⟨g a, rfl, hP⟩

theorem exists_ok_iff {a : α} {P : α → Prop} : (∃ b, ok a = ok b ∧ P b) ↔ P a := by
  simp

theorem withFaults_eq_ok_iff {c : Checked α} {faults : List Fault} {a : α} :
    c.withFaults faults = ok a ↔ faults = [] ∧ c = ok a := by
  cases faults with
  | nil => simp [withFaults, eq_ok_iff]
  | cons f fs => simp [withFaults, eq_ok_iff]

theorem andThen_eq_ok_iff {c : Checked β} {f : β → Checked α} {a : α} :
    c.andThen f = ok a ↔ ∃ b, c = ok b ∧ f b = ok a := by
  obtain ⟨faults, result⟩ := c
  cases result with
  | none => simp [andThen, eq_ok_iff]
  | some b =>
      have hstep : (⟨faults, some b⟩ : Checked β).andThen f = (f b).withFaults faults := rfl
      rw [hstep, withFaults_eq_ok_iff]
      constructor
      · rintro ⟨rfl, hok⟩
        exact ⟨b, rfl, hok⟩
      · rintro ⟨b', hb, hok⟩
        cases hb
        exact ⟨rfl, hok⟩

theorem toExcept_eq_ok_iff {c : Checked α} {a : α} : c.toExcept = .ok a ↔ c = ok a := by
  obtain ⟨faults, result⟩ := c
  unfold toExcept
  split
  · next hfaults hresult => simp_all [ok]
  · next hne =>
      constructor
      · simp
      · intro h
        obtain ⟨rfl, rfl⟩ := eq_ok_iff.1 h
        exact absurd rfl (hne a rfl)

theorem mapError_toExcept_eq_ok_iff {ε : Type} {c : Checked α} {f : List Fault → ε} {a : α} :
    c.toExcept.mapError f = .ok a ↔ c = ok a := by
  rw [← toExcept_eq_ok_iff]
  cases c.toExcept <;> simp [Except.mapError]

theorem Reads.of_eq_ok {P : α → Prop} {wrong : Option Settings.Error} {c : Checked α}
    (h : Reads P wrong c) {a : α} (ha : c = ok a) : P a := by
  obtain ⟨hfaults, hresult⟩ := eq_ok_iff.1 ha
  obtain ⟨b, hb, hP⟩ := h.result hfaults
  rw [hresult] at hb
  exact Option.some.inj hb ▸ hP

end Checked

open Check Checked Value

/-- A section gives a result when it is an object with keys of the section only. -/
theorem Check.fields_eq_ok_iff {α : Type} {path keys : List String}
    {build : List (Scalar × Value) → Checked α} {v : Value} {a : α} :
    fields path keys build v = ok a ↔ ∃ es, v = .object es ∧ Keyed keys es ∧ build es = ok a := by
  have hkeys : ∀ es : List (Scalar × Value),
      (es.filterMap fun e => keyFault? path keys e.1) = [] ↔ Keyed keys es := by
    intro es
    rw [List.filterMap_eq_nil_iff]
    refine forall₂_congr fun e _ => ?_
    cases e.1 <;> simp [keyFault?]
  cases v with
  | object es => simp [fields, withFaults_eq_ok_iff, hkeys]
  | scalar s => simp [fields]
  | list items => simp [fields]

/-! ### Single settings -/

/-- A single setting of a section. -/
structure Setting (σ : Type) where
  /-- The kind of its values. -/
  Kind : Type
  /-- The keys that lead to it in raw data. -/
  path : List String
  get : σ → Kind
  /-- How a raw value under a path is read. -/
  check : List String → Value → Checked Kind

namespace Setting

variable {σ τ : Type}

/-- The setting that is all of a section. -/
def single (check : List String → Value → Checked σ) : Setting σ where
  Kind := σ
  path := []
  get := id
  check := check

/-- A setting of a section as one of a larger section. -/
def under (key : String) (part : τ → σ) (x : Setting σ) : Setting τ where
  Kind := x.Kind
  path := key :: x.path
  get s := x.get (part s)
  check := x.check

/-- What overrides of a section make of a setting: one that they do not name keeps its value, any
other one has the value that its check reads. -/
def Follows (x : Setting σ) (path : List String) (overrides : Value) (old new : σ) : Prop :=
  match overrides.atPath? x.path with
  | none => x.get new = x.get old
  | some v => x.check (path ++ x.path) v = ok (x.get new)

variable {x : Setting σ} {key : String} {part : τ → σ} {path : List String}
  {changes : List (Scalar × Value)} {old new : τ}

theorem under_follows_of_none (h : lookup key changes = none) :
    (x.under key part).Follows path (.object changes) old new ↔
      x.get (part new) = x.get (part old) := by
  simp [Follows, under, atPath?, get?, h]

theorem under_follows_of_some {v : Value} (h : lookup key changes = some v) :
    (x.under key part).Follows path (.object changes) old new ↔
      x.Follows (path ++ [key]) v (part old) (part new) := by
  simp [Follows, under, atPath?, get?, h]

end Setting

/-! ### Sections -/

/-- Raw values that fit as overrides of a section: objects with keys of the section only, whose
values under the keys of its sections fit there. -/
def FitsSection (keys : List String) (sections : List (String × (Value → Prop))) (v : Value) :
    Prop :=
  ∃ es, v = .object es ∧ Keyed keys es ∧
    ∀ p ∈ sections, ∀ w, lookup p.1 es = some w → p.2 w

/-- How overrides act on a section under a path, or on a single setting: which of them are accepted,
and what the section is then.  Raw forms are read back. -/
structure Overridable {σ : Type} (path : List String) (check : Value → Checked σ)
    (dump : σ → Value) (Valid : σ → Prop) (Fits : Value → Prop) (settings : List (Setting σ)) :
    Prop where
  unnamed : ∀ old new, check (dump old) = ok new ↔ Valid new ∧ new = old
  named : ∀ old new v, v.Distinct →
    (check (mergeValue (some (dump old)) v) = ok new ↔
      Fits v ∧ Valid new ∧ ∀ x ∈ settings, x.Follows path v old new)
  /-- No setting is left out. -/
  ext : ∀ a b, (∀ x ∈ settings, x.get a = x.get b) → a = b

namespace Overridable

variable {σ τ : Type} {path : List String} {dump : σ → Value} {Valid : σ → Prop}
  {Fits : Value → Prop} {settings : List (Setting σ)}

section Fields

variable {check : List String → Value → Checked σ}

/-- A value that is no object is replaced by whatever overrides it. -/
theorem single (hplain : ∀ a es, dump a ≠ .object es)
    (hdump : ∀ a b, check path (dump a) = ok b ↔ Valid b ∧ b = a)
    (hvalid : ∀ v a, check path v = ok a → Valid a) :
    Overridable path (check path) dump Valid (fun _ => True) [.single check] := by
  have hreplaced : ∀ old v, mergeValue (some (dump old)) v = v := by
    intro old v
    cases v with
    | object es =>
        cases hold : dump old with
        | object base => exact absurd hold (hplain old base)
        | scalar s => simp [mergeValue]
        | list items => simp [mergeValue]
    | scalar s => simp [mergeValue]
    | list items => simp [mergeValue]
  refine ⟨hdump, fun old new v _ => ?_, fun a b h => h _ List.mem_cons_self⟩
  rw [hreplaced, List.forall_mem_singleton, true_and]
  simp only [Setting.Follows, Setting.single, atPath?, List.append_nil, id_eq]
  exact ⟨fun h => ⟨hvalid v new h, h⟩, fun h => h.2⟩

/-- A field of a section whose raw form was merged with overrides. -/
theorem field_iff (h : ∀ path, Overridable path (check path) dump Valid Fits settings)
    (part : τ → σ) (old new : τ) {changes : List (Scalar × Value)}
    (hchanges : (Value.object changes).Distinct) ⦃base : List (Scalar × Value)⦄ ⦃key : String⦄
    (hbase : lookup key base = some (dump (part old))) (path : List String) (default : σ) :
    field (merge base changes) path key default check = ok (part new) ↔
      (∀ v, lookup key changes = some v → Fits v) ∧ Valid (part new) ∧
        ∀ x ∈ settings.map (Setting.under key part), x.Follows path (.object changes) old new := by
  obtain ⟨hkeys, hvalues⟩ : changes.Pairwise (fun a b => a.1.same b.1 = false) ∧
      ∀ e ∈ changes, e.2.Distinct := by
    cases hchanges with
    | object hkeys hvalues => exact ⟨hkeys, hvalues⟩
  rw [field, lookup_merge key hkeys, hbase, List.forall_mem_map]
  cases hlookup : lookup key changes with
  | none =>
      simp only [(h _).unnamed, Setting.under_follows_of_none hlookup]
      constructor
      · rintro ⟨hvalid, hsame⟩
        exact ⟨by simp, hvalid, fun x _ => congrArg x.get hsame⟩
      · rintro ⟨-, hvalid, hsame⟩
        exact ⟨hvalid, (h path).ext _ _ hsame⟩
  | some v =>
      have hdistinct := hvalues _ (mem_of_lookup hlookup)
      simp only [(h _).named _ _ v hdistinct, Setting.under_follows_of_some hlookup,
        Option.some.injEq, forall_eq']

/-- A single setting of a section. -/
theorem setting_iff
    (h : ∀ path, Overridable path (check path) dump Valid (fun _ => True) [.single check])
    (part : τ → σ) (old new : τ) {changes : List (Scalar × Value)}
    (hchanges : (Value.object changes).Distinct) ⦃base : List (Scalar × Value)⦄ ⦃key : String⦄
    (hbase : lookup key base = some (dump (part old))) (path : List String) (default : σ) :
    field (merge base changes) path key default check = ok (part new) ↔
      Valid (part new) ∧
        ((Setting.single check).under key part).Follows path (.object changes) old new := by
  simp [field_iff h part old new hchanges hbase path default]

end Fields

/-- A section is overridden part by part. -/
theorem section_of_build {keys : List String} {sections : List (String × (Value → Prop))}
    {check : Value → Checked σ} {entries : σ → List (Scalar × Value)}
    {build : List (Scalar × Value) → Checked σ}
    (hcheck : ∀ v, check v = fields path keys build v)
    (hdump : ∀ a, dump a = .object (entries a)) (hkeys : ∀ a, Keyed keys (entries a))
    (hpath : ∀ x ∈ settings, x.path ≠ [])
    (hext : ∀ a b, (∀ x ∈ settings, x.get a = x.get b) → a = b)
    (hbuild : ∀ old new changes, (Value.object changes).Distinct →
      (build (merge (entries old) changes) = ok new ↔
        (∀ p ∈ sections, ∀ w, lookup p.1 changes = some w → p.2 w) ∧ Valid new ∧
          ∀ x ∈ settings, x.Follows path (.object changes) old new)) :
    Overridable path check dump Valid (FitsSection keys sections) settings := by
  refine ⟨fun old new => ?_, fun old new v hv => ?_, hext⟩
  · -- overrides without entries name nothing
    have hempty : (Value.object []).Distinct := .object List.Pairwise.nil (by simp)
    have hfollows : ∀ x ∈ settings, x.Follows path (.object []) old new ↔
        x.get new = x.get old := by
      intro x hx
      cases hx' : x.path with
      | nil => exact absurd hx' (hpath x hx)
      | cons key path => simp [Setting.Follows, hx', atPath?, get?, lookup]
    have hplain := hbuild old new [] hempty
    rw [merge] at hplain
    rw [hcheck, hdump, fields_eq_ok_iff]
    constructor
    · rintro ⟨es, hes, -, hok⟩
      obtain rfl := Value.object.inj hes
      obtain ⟨-, hvalid, hsame⟩ := hplain.1 hok
      exact ⟨hvalid, hext _ _ fun x hx => (hfollows x hx).1 (hsame x hx)⟩
    · rintro ⟨hvalid, rfl⟩
      exact ⟨_, rfl, hkeys new, hplain.2 ⟨by simp [lookup], hvalid,
        fun x hx => (hfollows x hx).2 rfl⟩⟩
  · rw [hcheck, hdump, fields_eq_ok_iff]
    cases v with
    | object changes =>
        rw [mergeValue]
        constructor
        · rintro ⟨es, hes, hkeyed, hok⟩
          obtain rfl := Value.object.inj hes
          obtain ⟨hfits, hrest⟩ := (hbuild old new changes hv).1 hok
          exact ⟨⟨changes, rfl, ((keyed_merge_iff _ _).1 hkeyed).2, hfits⟩, hrest⟩
        · rintro ⟨⟨es, hes, hkeyed, hfits⟩, hrest⟩
          obtain rfl := Value.object.inj hes
          exact ⟨_, rfl, (keyed_merge_iff _ _).2 ⟨hkeys old, hkeyed⟩,
            (hbuild old new changes hv).2 ⟨hfits, hrest⟩⟩
    | scalar s => simp [mergeValue, FitsSection]
    | list items => simp [mergeValue, FitsSection]

/-- A rule between the parts of a section. -/
theorem andThen {check check' : Value → Checked σ} {rule : σ → Checked σ} {Valid' : σ → Prop}
    (hcheck : ∀ v, check' v = (check v).andThen rule)
    (hrule : ∀ a b, Valid a ∧ rule a = ok b ↔ Valid' b ∧ b = a)
    (h : Overridable path check dump Valid Fits settings) :
    Overridable path check' dump Valid' Fits settings := by
  refine ⟨fun old new => ?_, fun old new v hv => ?_, h.ext⟩
  · rw [hcheck, andThen_eq_ok_iff]
    simp only [h.unnamed]
    constructor
    · rintro ⟨_, ⟨hvalid, rfl⟩, hok⟩
      exact (hrule _ new).1 ⟨hvalid, hok⟩
    · intro hnew
      obtain ⟨hvalid, hok⟩ := (hrule old new).2 hnew
      exact ⟨old, ⟨hvalid, rfl⟩, hok⟩
  · rw [hcheck, andThen_eq_ok_iff]
    simp only [h.named old _ v hv]
    constructor
    · rintro ⟨b, ⟨hfits, hvalid, hfollows⟩, hok⟩
      obtain ⟨hvalid', rfl⟩ := (hrule b new).1 ⟨hvalid, hok⟩
      exact ⟨hfits, hvalid', hfollows⟩
    · rintro ⟨hfits, hvalid', hfollows⟩
      obtain ⟨hvalid, hok⟩ := (hrule new new).2 ⟨hvalid', rfl⟩
      exact ⟨new, ⟨hfits, hvalid, hfollows⟩, hok⟩

end Overridable

/-! ### The kinds of values -/

section Kinds

theorem wholeNumber_ofNat (path : List String) (n : Nat) :
    wholeNumber path (.ofNat n) = ok (n : Int) := rfl

theorem overridable_positive (path : List String) :
    Overridable path (positive path) .ofNat (0 < ·) (fun _ => True) [.single positive] := by
  refine .single (by simp [Value.ofNat]) (fun a b => ?_) fun v a h =>
    (reads_positive path v).of_eq_ok h
  simp only [positive, andThen_eq_ok_iff, wholeNumber_ofNat, ok_inj, exists_eq_left']
  split
  · next hpos => simp; omega
  · next hpos => simp; omega

theorem overridable_natural (path : List String) :
    Overridable path (natural path) .ofNat (fun _ => True) (fun _ => True) [.single natural] := by
  refine .single (by simp [Value.ofNat]) (fun a b => ?_) fun _ _ _ => trivial
  simp only [natural, andThen_eq_ok_iff, wholeNumber_ofNat, ok_inj, exists_eq_left']
  simp [eq_comm]

theorem overridable_truth (path : List String) :
    Overridable path (truth path) .bool (fun _ => True) (fun _ => True) [.single truth] := by
  refine .single (by simp) (fun a b => ?_) fun _ _ _ => trivial
  simp [truth, eq_comm]

/-- Names that are texts are read back, whatever `depth` is. -/
theorem overridable_names (depth : Nat) (path : List String) :
    Overridable path (names depth path) .ofNames (fun _ => True) (fun _ => True)
      [.single (names depth)] := by
  refine .single (by simp [Value.ofNames]) (fun a b => ?_) fun _ _ _ => trivial
  have htexts : (a.map Value.str).mapM (Value.text depth) = .ok a := by
    induction a with
    | nil => rfl
    | cons name rest ih =>
        rw [List.map_cons, List.mapM_cons, ih]
        rfl
  rw [Value.ofNames, names, htexts]
  simp [Except.mapError, checked, eq_comm]

theorem overridable_string (path : List String) :
    Overridable path (string path) (fun t => .str (String.ofList t)) (fun _ => True) (fun _ => True)
      [.single string] := by
  refine .single (by simp) (fun a b => ?_) fun _ _ _ => trivial
  simp [string, eq_comm]

theorem overridable_character (path : List String) :
    Overridable path (character path) (fun c => .str c.toString) (fun _ => True) (fun _ => True)
      [.single character] := by
  refine .single (by simp) (fun a b => ?_) fun _ _ _ => trivial
  simp only [character, string, Char.toString, String.toList_singleton, andThen_eq_ok_iff, ok_inj,
    exists_eq_left']
  simp [eq_comm]

theorem overridable_keywordCase (path : List String) :
    Overridable path (Check.keywordCase path) KeywordCase.dump (fun _ => True) (fun _ => True)
      [.single Check.keywordCase] := by
  refine .single (fun a es => ?_) (fun a b => ?_) fun _ _ _ => trivial
  · rcases a with _ | k <;> simp [KeywordCase.dump]
  · rcases a with _ | _ | _ | _ <;>
      simp [KeywordCase.dump, KeywordCase.name, Check.keywordCase, eq_comm]

end Kinds

end EmbeddedSql
