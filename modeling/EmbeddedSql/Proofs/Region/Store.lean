/-
**What the region store answers.**

The store keeps the scan of a document until it is told that the document changed.  A scan that is
kept may serve a version that repeats, so its version says little; what counts is that it is a scan
of the document as it is now.  Nor do the settings of the store tell by which ones a kept scan goes:
settings without a cache of their own leave the old cache in place.  So the settings are listed that
a scan of each document may go by.  A store that keeps to such a list is called faithful to it;
where the list of a document holds the settings of the store and no others, it answers as if it kept
nothing.

Main definitions:

* `RegionStore.Faithful` — every scan that is kept is one of the current document, by settings of a
  list.

Main results:

* `Region.gives_survey` — a survey that nobody cancels ends;
* `RegionStore.ofDetection_eq_error_iff` — the settings for which there is no store;
* `RegionStore.exists_lookup_eq` — **a faithful store answers with the regions of the document** by
  settings of the list, and stays faithful;
* `RegionStore.exists_lookup_eq_own` — with the regions by its own settings, if the list has no
  others.
-/

import EmbeddedSql.Proofs.Cache.Expiry
import EmbeddedSql.Proofs.Region.Survey
import EmbeddedSql.Region.Store

set_option relaxedAutoImplicit false
set_option autoImplicit false

namespace EmbeddedSql

namespace Region

open Signal

/-- A survey that nobody cancels ends. -/
theorem gives_survey (d : Detection) (doc : Document) :
    Gives (survey silent d doc) (surveyAll d doc) := by
  obtain ⟨found, hgives⟩ : ∃ found, Gives (survey silent d doc) found := by
    dsimp only [survey]
    split
    · exact ⟨_, gives_pure _⟩
    · exact ⟨_, (gives_mapM (gives_callsOf d doc.text) d.functions).bind (gives_pure _)⟩
  obtain ⟨asked, hrun⟩ := hgives 0
  have hfound : surveyAll d doc = found := by rw [surveyAll, hrun]; rfl
  rw [hfound]
  exact hgives

end Region

namespace RegionStore

/-- Every scan that is kept is a scan of the current document of that name, by one of the settings
that are listed for it. -/
def Faithful (s : RegionStore) (listed : String → List Detection)
    (current : String → Option Document) : Prop :=
  ∀ uri e, s.cache.get? uri = some e →
    ∃ doc, current uri = some doc ∧ ∃ d ∈ listed uri, e.content = Region.all d doc

variable {s : RegionStore} {listed listed' : String → List Detection}
  {current current' : String → Option Document}

/-- A new store has the settings that it was asked for, and is empty. -/
theorem ofDetection_eq_ok_iff {d : Detection} :
    ofDetection d = .ok s ↔
      ∃ lifetime, Cache.seconds d.limits.cacheLifetime = .ok lifetime ∧
        s = ⟨d, { lifetime := lifetime }⟩ := by
  unfold ofDetection Cache.ofMilliseconds
  cases Cache.seconds d.limits.cacheLifetime with
  | error e => simp [Except.map]
  | ok lifetime => simp [Except.map, eq_comm]

/-- There is no store for a lifetime that is no double. -/
theorem ofDetection_eq_error_iff {d : Detection} {e : Cache.Error} :
    ofDetection d = .error e ↔ Cache.lifetimeBound ≤ d.limits.cacheLifetime := by
  rw [← Cache.seconds_eq_error_iff]
  cases e
  unfold ofDetection Cache.ofMilliseconds
  cases Cache.seconds d.limits.cacheLifetime with
  | error e => cases e; simp [Except.map]
  | ok lifetime => simp [Except.map]

theorem detection_of_ofDetection {d : Detection} (h : ofDetection d = .ok s) : s.detection = d := by
  obtain ⟨lifetime, -, rfl⟩ := ofDetection_eq_ok_iff.1 h
  rfl

theorem faithful_of_empty (h : s.cache.entries = []) : s.Faithful listed current := by
  intro uri e he
  simp [Cache.get?, h] at he

theorem faithful_of_ofDetection {d : Detection} (h : ofDetection d = .ok s) :
    s.Faithful listed current := by
  obtain ⟨lifetime, -, rfl⟩ := ofDetection_eq_ok_iff.1 h
  exact faithful_of_empty rfl

/-- More settings may be listed. -/
theorem Faithful.mono (h : s.Faithful listed current)
    (hlisted : ∀ uri, ∀ d ∈ listed uri, d ∈ listed' uri) : s.Faithful listed' current := by
  intro uri e he
  obtain ⟨doc, hdoc, d, hd, hcontent⟩ := h uri e he
  exact ⟨doc, hdoc, d, hlisted uri d hd, hcontent⟩

/-- Where no document is open nothing is kept, so any settings may be listed. -/
theorem Faithful.relist (h : s.Faithful listed current)
    (hlisted : ∀ uri, current uri = none ∨ listed' uri = listed uri) :
    s.Faithful listed' current := by
  intro uri e he
  obtain ⟨doc, hdoc, d, hd, hcontent⟩ := h uri e he
  rcases hlisted uri with hnone | hsame
  · rw [hnone] at hdoc
    cases hdoc
  · exact ⟨doc, hdoc, d, hsame ▸ hd, hcontent⟩

/-- Without the scan of a document, the document may be any, by any settings. -/
theorem Faithful.forget {uri : String} (h : s.Faithful listed current)
    (hsame : ∀ other, other ≠ uri → current' other = current other ∧ listed' other = listed other) :
    (s.forget uri).Faithful listed' current' := by
  intro other e he
  rw [RegionStore.forget, Cache.get?_erase] at he
  split at he
  · simp at he
  · next hne =>
      obtain ⟨hcurrent, hlisted⟩ := hsame other hne
      rw [hcurrent, hlisted]
      exact h other e he

/-- A store is faithful if nothing is kept under the one name that is in question. -/
theorem Faithful.of_forget {uri : String} (h : (s.forget uri).Faithful listed current)
    (hnone : s.cache.get? uri = none) : s.Faithful listed current := by
  intro other e he
  refine h other e ?_
  rw [RegionStore.forget, Cache.get?_erase]
  split
  · next heq =>
      rw [heq, hnone] at he
      simp at he
  · exact he

/-- A look-up in the cache of a faithful store gives regions of the document, if anything. -/
theorem Faithful.find (h : s.Faithful listed current) {doc : Document}
    (hdoc : current doc.uri = some doc) (now : Real) :
    (∀ found, (s.cache.find doc.uri doc.version now).1 = some found →
      ∃ d ∈ listed doc.uri, found = Region.all d doc) ∧
      RegionStore.Faithful
        { s with cache := (s.cache.find doc.uri doc.version now).2 } listed current := by
  cases he : s.cache.get? doc.uri with
  | none => simpa [Cache.find, he] using h
  | some e =>
      obtain ⟨doc', hdoc', d, hd, hcontent⟩ := h doc.uri e he
      obtain rfl : doc = doc' := Option.some.inj (hdoc.symm.trans hdoc')
      simp only [Cache.find, he]
      split
      · exact ⟨by simp, h.forget fun _ _ => ⟨rfl, rfl⟩⟩
      · exact ⟨fun found hfound => ⟨d, hd, (Option.some.inj hfound) ▸ hcontent⟩, h⟩

/-- **A faithful store answers with the regions of the document** by settings of the list, and stays
faithful. -/
theorem exists_lookup_eq (h : s.Faithful listed current) {doc : Document}
    (hdoc : current doc.uri = some doc) (hown : s.detection ∈ listed doc.uri) (now : Real) :
    ∃ d ∈ listed doc.uri, ∃ asked s',
      s.lookup .silent now doc = (some (Region.all d doc, asked), s') ∧
      s'.detection = s.detection ∧ s'.Faithful listed current := by
  obtain ⟨hfound, hkept⟩ := h.find hdoc now
  unfold lookup
  rcases hfind : s.cache.find doc.uri doc.version now with ⟨_ | found, cache⟩
  · -- nothing is kept, so the document is surveyed
    obtain ⟨asked, hrun⟩ := Region.gives_survey s.detection doc 0
    rw [hfind] at hkept
    refine ⟨s.detection, hown, asked, ⟨s.detection, cache.insert doc.uri doc.version
      (Region.all s.detection doc) now⟩, ?_, rfl, ?_⟩
    · simp only [hrun]
      rfl
    · intro uri e he
      rw [Cache.get?_insert] at he
      split at he
      · next heq =>
          obtain rfl := Option.some.inj he
          exact ⟨doc, heq ▸ hdoc, s.detection, heq ▸ hown, rfl⟩
      · exact hkept uri e he
  · rw [hfind] at hfound hkept
    obtain ⟨d, hd, hregions⟩ := hfound found rfl
    exact ⟨d, hd, 0, { s with cache := cache }, by rw [hregions], rfl, hkept⟩

/-- With the regions by its own settings, if the list has no others. -/
theorem exists_lookup_eq_own (h : s.Faithful listed current) {doc : Document}
    (hdoc : current doc.uri = some doc) (hown : listed doc.uri = [s.detection]) (now : Real) :
    ∃ asked s', s.lookup .silent now doc = (some (Region.all s.detection doc, asked), s') ∧
      s'.detection = s.detection ∧ s'.Faithful listed current := by
  obtain ⟨d, hd, hrest⟩ := exists_lookup_eq h hdoc (by simp [hown]) now
  obtain rfl : d = s.detection := by simpa [hown] using hd
  exact hrest

end RegionStore

end EmbeddedSql
