/-
**What a cache holds is told by its history.**

A lookup removes the entry that does not serve it, so reading changes a cache as writing does.  An
entry is there from the moment it was put until the first action that ends it: another put under
its name, its removal, or a lookup for another version or at a time when it is too old.  That makes
a specification by the history alone, without any dictionary: look for the last put under a name,
and for what came after it.

Times are what a clock reads, in seconds.  An entry is kept while the difference of two readings,
rounded to double precision, is below the lifetime.

Main definitions:

* `Real.lt` — the strict order of doubles;
* `Cache.Action`, `Cache.run` — what is done with a cache;
* `Cache.Fresh` — an entry is not too old;
* `Cache.Action.Ends` — an action that replaces or removes an entry;
* `Cache.Standing` — the last put under a name, which nothing has ended.

Main results:

* `Cache.get?_apply_iff` — the entries after one action;
* `Cache.get?_run_iff` — **the entries after all actions** are the standing puts;
* `Cache.standing_filter_iff` — what is done with other names is of no account;
* `Cache.answers_by_history` — **lookups and the number of entries are told by the history**.
-/

import EmbeddedSql.Cache
import EmbeddedSql.Document
import EmbeddedSql.Proofs.Value.Rounding
import Mathlib.Data.Set.Card
import Mathlib.Data.List.Induction

set_option relaxedAutoImplicit false
set_option autoImplicit false

namespace EmbeddedSql

/-! ### Order of doubles -/

namespace Real

/-- Strict order of numbers; what is no number stands in no order. -/
def lt : Real → Real → Bool
  | .finite a, .finite b => a.quotient.1 * b.quotient.2 < b.quotient.1 * a.quotient.2
  | .infinite s, .infinite t => s && !t
  | .infinite s, .finite _ => s
  | .finite _, .infinite t => !t
  | _, _ => false

/-- Numbers are in order one way or the other. -/
theorem le_eq_false_iff {a b : Real} (ha : a ≠ .undefined) (hb : b ≠ .undefined) :
    le a b = false ↔ lt b a = true := by
  cases a with
  | undefined => exact absurd rfl ha
  | finite a =>
      cases b with
      | undefined => exact absurd rfl hb
      | finite b => simp [le, lt]
      | infinite t => simp [le, lt]
  | infinite s =>
      cases b with
      | undefined => exact absurd rfl hb
      | finite b => simp [le, lt]
      | infinite t => cases s <;> cases t <;> simp [le, lt]

end Real

namespace Cache

variable {α : Type}

/-! ### Actions -/

/-- What is done with a cache.  A time is what the clock reads, in seconds; what is to be dropped is
a document or a name. -/
inductive Action (α : Type) where
  | get (doc : Document) (now : Binary)
  | put (doc : Document) (content : α) (now : Binary)
  | invalidate (target : Document ⊕ String)
  | clear

namespace Action

/-- The name under which something is dropped. -/
def nameOf : Document ⊕ String → String
  | .inl doc => doc.uri
  | .inr uri => uri

/-- The answer to an action, and the cache it leaves behind. -/
def apply (c : Cache α) : Action α → Option α × Cache α
  | .get doc now => c.find doc.uri doc.version (.finite now)
  | .put doc content now => (none, c.insert doc.uri doc.version content (.finite now))
  | .invalidate target => (none, c.erase (nameOf target))
  | .clear => (none, c.clear)

/-- Whether an action has to do with a name. -/
def concerns (uri : String) : Action α → Bool
  | .get doc _ => doc.uri = uri
  | .put doc _ _ => doc.uri = uri
  | .invalidate target => nameOf target = uri
  | .clear => true

end Action

/-- The cache after some actions. -/
def run (c : Cache α) (as : List (Action α)) : Cache α :=
  as.foldl (fun c a => (a.apply c).2) c

theorem run_concat (c : Cache α) (as : List (Action α)) (a : Action α) :
    c.run (as ++ [a]) = (a.apply (c.run as)).2 := by
  simp [run]

/-! ### The specification -/

/-- An entry is not too old: less time has passed than the lifetime. -/
def Fresh (lifetime : Binary) (stored now : Real) : Prop :=
  (now.sub stored).lt (.finite lifetime) = true

instance (lifetime : Binary) (stored now : Real) : Decidable (Fresh lifetime stored now) :=
  inferInstanceAs (Decidable (_ = true))

/-- The actions that replace or remove an entry under a name. -/
def Action.Ends (lifetime : Binary) (uri : String) (e : CacheEntry α) : Action α → Prop
  | .get doc now =>
    doc.uri = uri ∧ (doc.version ≠ e.version ∨ ¬ Fresh lifetime e.stored (.finite now))
  | .put doc _ _ => doc.uri = uri
  | .invalidate target => nameOf target = uri
  | .clear => True

/-- An entry was put under a name, and no action since has replaced or removed it. -/
structure Standing (lifetime : Binary) (as : List (Action α)) (uri : String) (e : CacheEntry α) :
    Prop where
  last : ∃ before after doc now, as = before ++ .put doc e.content now :: after ∧
    doc.uri = uri ∧ doc.version = e.version ∧ .finite now = e.stored ∧
    ∀ a ∈ after, ¬ a.Ends lifetime uri e

theorem Action.Ends.concerns {lifetime : Binary} {uri : String} {e : CacheEntry α} {a : Action α}
    (h : a.Ends lifetime uri e) : a.concerns uri = true := by
  cases a with
  | get doc now => exact decide_eq_true h.1
  | put doc content now => exact decide_eq_true h
  | invalidate target => exact decide_eq_true h
  | clear => rfl

/-! ### One action -/

/-- All times of storing are numbers. -/
def Timed (c : Cache α) : Prop :=
  ∀ uri e, c.get? uri = some e → ∃ now, e.stored = .finite now

theorem expired_eq_false_iff (lifetime stored now : Binary) :
    expired lifetime (.finite stored) (.finite now) = false ↔
      Fresh lifetime (.finite stored) (.finite now) :=
  Real.le_eq_false_iff (by simp) (Real.round_ne_undefined _ _ _)

@[simp] theorem lifetime_apply (c : Cache α) (a : Action α) :
    (a.apply c).2.lifetime = c.lifetime := by
  cases a with
  | get doc now =>
      simp only [Action.apply, find]
      split
      · rfl
      · split <;> rfl
  | put doc content now => rfl
  | invalidate target => rfl
  | clear => rfl

variable {c : Cache α}

/-- A lookup leaves the entries of other documents. -/
theorem get?_find_of_ne {doc : Document} {uri : String} (h : uri ≠ doc.uri) (now : Binary) :
    (c.find doc.uri doc.version (.finite now)).2.get? uri = c.get? uri := by
  unfold find
  split
  · rfl
  · split
    · rw [get?_erase, if_neg h]
    · rfl

/-- What a lookup leaves of the entries. -/
theorem get?_find_iff (hc : c.Timed) (doc : Document) (now : Binary) {uri : String}
    {e : CacheEntry α} :
    (c.find doc.uri doc.version (.finite now)).2.get? uri = some e ↔
      c.get? uri = some e ∧ ¬ (Action.get doc now).Ends c.lifetime uri e := by
  simp only [Action.Ends]
  by_cases huri : uri = doc.uri
  · subst huri
    unfold find
    cases hentry : c.get? doc.uri with
    | none => simp [hentry]
    | some f =>
        obtain ⟨stored, hstored⟩ := hc doc.uri f hentry
        have hfresh := expired_eq_false_iff c.lifetime stored now
        rw [← hstored] at hfresh
        dsimp only
        split
        · next hgone =>
            -- the entry is stale or too old, so it is removed
            have hends : f.version ≠ doc.version ∨ ¬ Fresh c.lifetime f.stored (.finite now) := by
              rw [← hfresh]
              simpa using hgone
            rw [get?_erase, if_pos rfl]
            refine ⟨fun h => by simp at h, ?_⟩
            rintro ⟨hf, hnot⟩
            obtain rfl := Option.some.inj hf
            exact absurd ⟨rfl, hends.imp_left Ne.symm⟩ hnot
        · next hkept =>
            have hserves : f.version = doc.version ∧ Fresh c.lifetime f.stored (.finite now) := by
              rw [← hfresh]
              simpa using hkept
            rw [hentry]
            refine ⟨?_, And.left⟩
            intro hf
            obtain rfl := Option.some.inj hf
            exact ⟨rfl, fun h => h.2.elim (absurd hserves.1.symm) (absurd hserves.2)⟩
  · rw [get?_find_of_ne huri]
    exact ⟨fun he => ⟨he, fun h => huri h.1.symm⟩, And.left⟩

/-- **The entries after one action**: the one that was put, and those that were not ended. -/
theorem get?_apply_iff (hc : c.Timed) (a : Action α) {uri : String} {e : CacheEntry α} :
    (a.apply c).2.get? uri = some e ↔
      (∃ doc now, a = .put doc e.content now ∧ doc.uri = uri ∧ doc.version = e.version ∧
        .finite now = e.stored) ∨
      c.get? uri = some e ∧ ¬ a.Ends c.lifetime uri e := by
  cases a with
  | get doc now =>
      rw [Action.apply, get?_find_iff hc]
      simp
  | put doc content now =>
      simp only [Action.apply, get?_insert, Action.Ends]
      by_cases huri : uri = doc.uri
      · subst huri
        obtain ⟨version, content', stored⟩ := e
        simp [and_assoc, and_left_comm]
      · simp [huri, Ne.symm huri]
  | invalidate target =>
      simp only [Action.apply, get?_erase, Action.Ends]
      by_cases huri : uri = Action.nameOf target
      · simp [huri]
      · simp [huri, Ne.symm huri]
  | clear => simp [Action.apply, Action.Ends]

theorem Timed.apply (hc : c.Timed) (a : Action α) : (a.apply c).2.Timed := by
  intro uri e he
  rcases (get?_apply_iff hc a).1 he with ⟨doc, now, -, -, -, hnow⟩ | ⟨hkept, -⟩
  · exact ⟨now, hnow.symm⟩
  · exact hc uri e hkept

/-! ### All actions -/

/-- What one more action makes of the standing puts. -/
theorem standing_concat_iff {lifetime : Binary} {as : List (Action α)} {a : Action α} {uri : String}
    {e : CacheEntry α} :
    Standing lifetime (as ++ [a]) uri e ↔
      (∃ doc now, a = .put doc e.content now ∧ doc.uri = uri ∧ doc.version = e.version ∧
        .finite now = e.stored) ∨
      Standing lifetime as uri e ∧ ¬ a.Ends lifetime uri e := by
  constructor
  · rintro ⟨before, after, doc, now, heq, huri, hversion, hnow, hends⟩
    rcases List.eq_nil_or_concat after with rfl | ⟨after, b, rfl⟩
    · obtain ⟨-, ha⟩ := List.append_inj' heq rfl
      exact Or.inl ⟨doc, now, by simpa using ha, huri, hversion, hnow⟩
    · rw [List.concat_eq_append, ← List.cons_append, ← List.append_assoc] at heq
      obtain ⟨rfl, hb⟩ := List.append_inj' heq rfl
      obtain rfl : a = b := by simpa using hb
      refine Or.inr ⟨⟨before, after, doc, now, rfl, huri, hversion, hnow, ?_⟩, ?_⟩
      · exact fun x hx => hends x (by simp [hx])
      · exact hends a (by simp)
  · rintro (⟨doc, now, rfl, huri, hversion, hnow⟩ |
      ⟨⟨before, after, doc, now, rfl, huri, hversion, hnow, hends⟩, ha⟩)
    · exact ⟨as, [], doc, now, rfl, huri, hversion, hnow, by simp⟩
    · refine ⟨before, after ++ [a], doc, now, by simp, huri, hversion, hnow, ?_⟩
      intro x hx
      rcases List.mem_append.1 hx with hx | hx
      · exact hends x hx
      · rwa [List.mem_singleton.1 hx]

/-- **The entries after all actions** are the standing puts. -/
theorem get?_run_iff (lifetime : Binary) (as : List (Action α)) :
    (run { lifetime := lifetime } as).Timed ∧
      (run { lifetime := lifetime } as).lifetime = lifetime ∧
      ∀ uri e, (run { lifetime := lifetime } as).get? uri = some e ↔
        Standing lifetime as uri e := by
  induction as using List.reverseRecOn with
  | nil =>
      have hnone : ∀ uri, (run ({ lifetime := lifetime } : Cache α) []).get? uri = none :=
        fun _ => rfl
      refine ⟨fun uri e he => by simp [hnone] at he, rfl, fun uri e => ?_⟩
      simp only [hnone, reduceCtorEq, false_iff]
      rintro ⟨before, after, doc, now, heq, -⟩
      simp at heq
  | append_singleton as a ih =>
      obtain ⟨htimed, hlifetime, hentries⟩ := ih
      rw [run_concat]
      refine ⟨htimed.apply a, by rw [lifetime_apply, hlifetime], fun uri e => ?_⟩
      rw [get?_apply_iff htimed, hlifetime, hentries, standing_concat_iff]

/-- What is done with other names is of no account. -/
theorem standing_filter_iff {lifetime : Binary} {as : List (Action α)} {uri : String}
    {e : CacheEntry α} :
    Standing lifetime (as.filter (·.concerns uri)) uri e ↔ Standing lifetime as uri e := by
  constructor
  · rintro ⟨before, after, doc, now, heq, huri, hversion, hnow, hends⟩
    obtain ⟨before', rest, rfl, -, hrest⟩ := List.filter_eq_append_iff.1 heq
    obtain ⟨between, after', rfl, -, -, rfl⟩ := List.filter_eq_cons_iff.1 hrest
    refine ⟨before' ++ between, after', doc, now, by simp, huri, hversion, hnow, ?_⟩
    intro a ha hend
    exact hends a (List.mem_filter.2 ⟨ha, hend.concerns⟩) hend
  · rintro ⟨before, after, doc, now, rfl, huri, hversion, hnow, hends⟩
    refine ⟨before.filter (·.concerns uri), after.filter (·.concerns uri), doc, now, ?_, huri,
      hversion, hnow, fun a ha => hends a (List.mem_of_mem_filter ha)⟩
    rw [List.filter_append, List.filter_cons_of_pos (by simpa [Action.concerns] using huri)]

/-! ### Lookups and the number of entries -/

/-- A lookup serves the entry that is there, if it is the right version and not too old. -/
theorem find_eq_some_iff (hc : c.Timed) (doc : Document) (now : Binary) (content : α) :
    (c.find doc.uri doc.version (.finite now)).1 = some content ↔
      ∃ e, c.get? doc.uri = some e ∧ e.version = doc.version ∧
        Fresh c.lifetime e.stored (.finite now) ∧ e.content = content := by
  unfold find
  cases hentry : c.get? doc.uri with
  | none => simp
  | some e =>
      obtain ⟨stored, hstored⟩ := hc doc.uri e hentry
      have hfresh := expired_eq_false_iff c.lifetime stored now
      rw [← hstored] at hfresh
      by_cases hversion : e.version = doc.version
      · cases hold : expired c.lifetime e.stored (.finite now) with
        | true => simp [hversion, hold, ← hfresh]
        | false => simp [hversion, hold, ← hfresh]
      · simp [hversion]

theorem nodup_names_apply (h : c.entries.names.Nodup) (a : Action α) :
    (a.apply c).2.entries.names.Nodup := by
  cases a with
  | get doc now =>
      simp only [Action.apply, find]
      split
      · exact h
      · split
        · exact Named.nodup_names_erase h _
        · exact h
  | put doc content now => exact Named.nodup_names_insert h _ _
  | invalidate target => exact Named.nodup_names_erase h _
  | clear => exact List.nodup_nil

theorem nodup_names_run (lifetime : Binary) (as : List (Action α)) :
    (run { lifetime := lifetime } as).entries.names.Nodup := by
  induction as using List.reverseRecOn with
  | nil => exact List.nodup_nil
  | append_singleton as a ih =>
      rw [run_concat]
      exact nodup_names_apply ih a

/-- A cache has as many entries as there are names with an entry. -/
theorem size_eq_ncard (h : c.entries.names.Nodup) :
    c.size = {uri | ∃ e, c.get? uri = some e}.ncard := by
  have hnames : {uri | ∃ e, c.get? uri = some e} = (c.entries.names.toFinset : Set String) := by
    ext uri
    rw [Set.mem_ofPred_eq, List.coe_toFinset, Set.mem_ofPred_eq, Named.mem_names_iff]
    exact Option.isSome_iff_exists.symm
  rw [hnames, Set.ncard_coe_finset, List.toFinset_card_of_nodup h, size, Named.names,
    List.length_map]

/-- **Lookups and the number of entries are told by the history**, whatever was done with the cache
and whatever the clock reads.  A lookup finds what was put last under the name, if it was put for
the same version, is not too old now, and was not ended in between; else it finds nothing.  What is
done with other names never matters.  There are as many entries as names with a put that was not
ended. -/
theorem answers_by_history (lifetime : Binary) (as : List (Action α)) :
    (∀ (doc : Document) (now : Binary) (content : α),
      ((Action.get doc now).apply (run { lifetime := lifetime } as)).1 = some content ↔
        ∃ e, Standing lifetime as doc.uri e ∧ e.version = doc.version ∧
          Fresh lifetime e.stored (.finite now) ∧ e.content = content) ∧
    (∀ (doc : Document) (now : Binary),
      ((Action.get doc now).apply (run { lifetime := lifetime } as)).1 =
        ((Action.get doc now).apply
          (run { lifetime := lifetime } (as.filter (·.concerns doc.uri)))).1) ∧
    (run { lifetime := lifetime } as).size = {uri | ∃ e, Standing lifetime as uri e}.ncard := by
  have hanswer : ∀ (as : List (Action α)) (doc : Document) (now : Binary) (content : α),
      ((Action.get doc now).apply (run { lifetime := lifetime } as)).1 = some content ↔
        ∃ e, Standing lifetime as doc.uri e ∧ e.version = doc.version ∧
          Fresh lifetime e.stored (.finite now) ∧ e.content = content := by
    intro as doc now content
    obtain ⟨htimed, hlifetime, hentries⟩ := get?_run_iff lifetime as
    simp only [Action.apply, find_eq_some_iff htimed, hlifetime, hentries]
  refine ⟨hanswer as, ?_, ?_⟩
  · intro doc now
    refine Option.ext fun content => ?_
    rw [hanswer, hanswer]
    simp only [standing_filter_iff]
  · obtain ⟨-, -, hentries⟩ := get?_run_iff lifetime as
    rw [size_eq_ncard (nodup_names_run lifetime as)]
    simp only [hentries]

/-- Within its five seconds the entry serves its own version; a lookup for another one removes it,
while another document has no part in this. -/
example :
    let a : Document := ⟨"a", [], 1⟩
    let b : Document := ⟨"b", [], 1⟩
    let as : List (Action Nat) := [.put a 7 ⟨false, 100, 0⟩, .get b ⟨false, 200, 0⟩]
    ((Action.get a ⟨false, 104, 0⟩).apply (run { lifetime := ⟨false, 5, 0⟩ } as)).1 = some 7 ∧
      ((Action.get a ⟨false, 105, 0⟩).apply (run { lifetime := ⟨false, 5, 0⟩ } as)).1 = none ∧
      (run { lifetime := ⟨false, 5, 0⟩ }
        (as ++ [.get { a with version := 2 } ⟨false, 104, 0⟩])).size = 0 := by
  decide +kernel

end Cache

end EmbeddedSql
