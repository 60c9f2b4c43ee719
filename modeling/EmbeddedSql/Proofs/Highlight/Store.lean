/-
**What the highlight store answers.**

Like the region store, the highlight store may keep an answer while versions repeat.  It is faithful
when every answer it keeps is the one that the current document gives, and then a request cannot
tell whether anything is kept.

Main definitions:

* `Highlight.ofDocument` — the highlights of a document;
* `HighlightStore.Faithful` — every answer that is kept is that of the current document;
* `HighlightStore.answerTo` — what a client gets that asks for highlights;
* `HighlightStore.noting` — the store after a buffer was highlighted.

Main results:

* `HighlightStore.exists_parse_eq` — a parse stores the highlights of the document;
* `HighlightStore.exists_request_eq` — **a faithful store answers from the document alone** and
  stays faithful;
* `HighlightStore.request_fst_eq` — highlights of the version are the answer, whatever settings they
  go by.
-/

import EmbeddedSql.Highlight.Store
import EmbeddedSql.Proofs.Region.Store

set_option relaxedAutoImplicit false
set_option autoImplicit false

namespace EmbeddedSql

/-- The highlights of a region; a region of blanks has none. -/
def Highlight.ofFilled (ls : List Text) (r : Region) : List Highlight :=
  if Text.isAllBlank r.raw then [] else ofRegion ls r

/-- The highlights of a document. -/
def Highlight.ofDocument (d : Detection) (doc : Document) : List Highlight :=
  (Region.all d doc).flatMap (Highlight.ofFilled doc.lines)

namespace HighlightStore

open Signal

theorem gives_ofRegions (ls : List Text) (rs : List Region) :
    Gives (ofRegions silent ls rs) (rs.flatMap (Highlight.ofFilled ls)) := by
  induction rs with
  | nil => exact gives_pure []
  | cons r rs ih =>
      rw [ofRegions, List.flatMap_cons]
      exact gives_poll_silent.bind (ih.bind (gives_pure _))

/-- Every answer that is kept belongs to the current document of that name. -/
def Faithful (s : HighlightStore) (d : Detection) (shown : String → Option Document) : Prop :=
  ∀ uri version hs, s.entries.get? uri = some (version, hs) →
    uri.isEmpty = false ∧ ∃ doc, shown uri = some doc ∧ hs = Highlight.ofDocument d doc

theorem faithful_empty (d : Detection) (shown : String → Option Document) :
    Faithful {} d shown := by
  intro uri version hs h
  simp at h

theorem Faithful.forget {s : HighlightStore} {d : Detection}
    {shown shown' : String → Option Document} {uri : String} (h : s.Faithful d shown)
    (hsame : ∀ other, other ≠ uri → shown' other = shown other) :
    (s.forget uri).Faithful d shown' := by
  intro other version hs he
  rw [HighlightStore.forget, Named.get?_erase] at he
  split at he
  · simp at he
  · next hne =>
      rw [hsame other hne]
      exact h other version hs he

/-- Storing the highlights of a document makes up for whatever was kept under its name. -/
theorem Faithful.insert {s : HighlightStore} {d : Detection}
    {shown : String → Option Document} {doc : Document} (h : (s.forget doc.uri).Faithful d shown)
    (hname : doc.uri.isEmpty = false) (hdoc : shown doc.uri = some doc) (version : Int) :
    (s.insert doc.uri version (Highlight.ofDocument d doc)).Faithful d shown := by
  intro other v hs he
  rw [HighlightStore.insert, Named.get?_insert] at he
  split at he
  · next heq =>
      obtain ⟨-, rfl⟩ := Prod.mk.inj (Option.some.inj he)
      exact heq ▸ ⟨hname, doc, hdoc, rfl⟩
  · next hne =>
      refine h other v hs ?_
      rw [HighlightStore.forget, Named.get?_erase, if_neg hne]
      exact he

/-- A store is faithful if nothing is kept under the one name that is in question. -/
theorem Faithful.of_forget {s : HighlightStore} {d : Detection}
    {shown : String → Option Document} {uri : String} (h : (s.forget uri).Faithful d shown)
    (hnone : s.entries.get? uri = none) : s.Faithful d shown := by
  intro other version hs he
  refine h other version hs ?_
  rw [HighlightStore.forget, Named.get?_erase]
  split
  · next heq =>
      rw [heq, hnone] at he
      simp at he
  · exact he

variable {s : HighlightStore} {regions : RegionStore} {listed : String → List Detection}
  {current shown : String → Option Document}

/-- A parse stores the highlights of the document, by settings of the list, unless the document has
no name. -/
theorem exists_parse_eq (s : HighlightStore) (h : regions.Faithful listed current) {doc : Document}
    (hdoc : current doc.uri = some doc) (hown : regions.detection ∈ listed doc.uri) (now : Real) :
    ∃ d ∈ listed doc.uri, ∃ regions' : RegionStore, regions'.detection = regions.detection ∧
      regions'.Faithful listed current ∧
      s.parse regions .silent now doc =
        if doc.uri.isEmpty then (.error .noName, regions', s)
        else (.ok (some (Highlight.ofDocument d doc)), regions',
          s.insert doc.uri doc.version (Highlight.ofDocument d doc)) := by
  unfold parse
  by_cases hname : doc.uri.isEmpty = true
  · exact ⟨regions.detection, hown, regions, rfl, h, by simp [hname]⟩
  · obtain ⟨d, hd, asked, regions', hlookup, hdetection, hfaithful⟩ :=
      RegionStore.exists_lookup_eq h hdoc hown now
    obtain ⟨asked', hrun⟩ := gives_ofRegions doc.lines (Region.all d doc) asked
    refine ⟨d, hd, regions', hdetection, hfaithful, ?_⟩
    simp only [hname, hlookup, hrun]
    rfl

/-- What a client gets that asks for the highlights of a buffer. -/
def answerTo (d : Detection) (b : Buffer) (range : Option Range) : Option (List Int) :=
  if b.isR && !b.uri.isEmpty then
    (Highlight.encode b range (Highlight.ofDocument d b.document)).toOption
  else none

theorem exists_get_eq (hr : regions.Faithful listed current)
    (hs : s.Faithful regions.detection shown) {doc : Document} (hdoc : current doc.uri = some doc)
    (hown : listed doc.uri = [regions.detection]) (hshown : shown doc.uri = some doc) (now : Real) :
    ∃ (regions' : RegionStore) (s' : HighlightStore), regions'.detection = regions.detection ∧
      regions'.Faithful listed current ∧ s'.Faithful regions.detection shown ∧
      s.get regions now doc =
        (if doc.uri.isEmpty then .error .noName
          else .ok (Highlight.ofDocument regions.detection doc), regions', s') := by
  obtain ⟨d, hd, regions', hdetection, hfaithful, hparse⟩ :=
    exists_parse_eq s hr hdoc (by simp [hown]) now
  obtain rfl : d = regions.detection := by simpa [hown] using hd
  -- a fresh parse gives the highlights of the document and stores them
  have hfresh : ∃ s' : HighlightStore, s'.Faithful regions.detection shown ∧
      (((s.parse regions .silent now doc).1.map (·.getD []), (s.parse regions .silent now doc).2.1,
        (s.parse regions .silent now doc).2.2) : Except Error (List Highlight) × _ × _) =
        (if doc.uri.isEmpty then .error .noName
          else .ok (Highlight.ofDocument regions.detection doc), regions', s') := by
    rw [hparse]
    by_cases hname : doc.uri.isEmpty = true
    · exact ⟨s, hs, by simp [hname]; rfl⟩
    · rw [Bool.not_eq_true] at hname
      exact ⟨_, (hs.forget fun _ _ => rfl).insert hname hshown doc.version, by simp [hname]; rfl⟩
  obtain ⟨s', hs', hfresh⟩ := hfresh
  unfold get
  cases he : s.entries.get? doc.uri with
  | none => exact ⟨regions', s', hdetection, hfaithful, hs', hfresh⟩
  | some entry =>
      obtain ⟨version, kept⟩ := entry
      obtain ⟨hname, doc', hdoc', rfl⟩ := hs doc.uri version kept he
      obtain rfl : doc = doc' := Option.some.inj (hshown.symm.trans hdoc')
      dsimp only
      split
      · exact ⟨regions, s, rfl, hr, hs, by simp [hname]⟩
      · exact ⟨regions', s', hdetection, hfaithful, hs', hfresh⟩

/-- **A faithful store answers from the document alone** and stays faithful. -/
theorem exists_request_eq (hr : regions.Faithful listed current)
    (hs : s.Faithful regions.detection shown) {b : Buffer}
    (hb : current b.uri = some b.document) (hown : listed b.uri = [regions.detection])
    (hshown : b.isR = true → shown b.uri = some b.document) (now : Real) (range : Option Range) :
    ∃ (regions' : RegionStore) (s' : HighlightStore), regions'.detection = regions.detection ∧
      regions'.Faithful listed current ∧ s'.Faithful regions.detection shown ∧
      s.request regions now b range = (answerTo regions.detection b range, regions', s') := by
  unfold request answerTo
  cases hR : b.isR with
  | false => exact ⟨regions, s, rfl, hr, hs, rfl⟩
  | true =>
      have hdoc : current b.document.uri = some b.document := hb
      have hshown : shown b.document.uri = some b.document := hshown hR
      obtain ⟨regions', s', hdetection, hr', hs', hget⟩ :=
        exists_get_eq hr hs hdoc hown hshown now
      refine ⟨regions', s', hdetection, hr', hs', ?_⟩
      have huri : b.document.uri = b.uri := rfl
      rw [huri] at hget
      cases hname : b.uri.isEmpty <;> simp [hget, hname, Except.toOption]

/-! ### Highlights of other settings -/

/-- The highlights of a buffer are stored, if it gets any. -/
def noting (hs : HighlightStore) (d : Detection) (b : Buffer) : HighlightStore :=
  if b.isR && !b.uri.isEmpty then
    hs.insert b.uri b.versionNumber (Highlight.ofDocument d b.document)
  else hs

theorem get?_noting (hs : HighlightStore) (d : Detection) (b : Buffer) (uri : String) :
    (hs.noting d b).entries.get? uri =
      if (b.isR && !b.uri.isEmpty) = true ∧ uri = b.uri then
        some (b.versionNumber, Highlight.ofDocument d b.document)
      else hs.entries.get? uri := by
  unfold noting
  split
  · next h => simp [insert, Named.get?_insert, h]
  · next h => simp [h]

/-- Nothing is kept of documents without a name. -/
def AllNamed (hs : HighlightStore) : Prop :=
  ∀ uri entry, hs.entries.get? uri = some entry → uri.isEmpty = false

theorem AllNamed.noting {hs : HighlightStore} (h : hs.AllNamed) (d : Detection) (b : Buffer) :
    (hs.noting d b).AllNamed := by
  intro uri entry hentry
  rw [get?_noting] at hentry
  split at hentry
  · next hand =>
      obtain ⟨hnamed, rfl⟩ := hand
      simpa using (Bool.and_eq_true_iff.1 hnamed).2
  · exact h uri entry hentry

theorem AllNamed.forget {hs : HighlightStore} (h : hs.AllNamed) (uri : String) :
    (hs.forget uri).AllNamed := by
  intro other entry hentry
  rw [HighlightStore.forget, Named.get?_erase] at hentry
  split at hentry
  · simp at hentry
  · exact h other entry hentry

theorem AllNamed.get?_eq_none {hs : HighlightStore} (h : hs.AllNamed) {uri : String}
    (huri : uri.isEmpty = true) : hs.entries.get? uri = none := by
  cases hentry : hs.entries.get? uri with
  | none => rfl
  | some entry => simp [h uri entry hentry] at huri

/-- A parse of a buffer notes its highlights, by settings of the list. -/
theorem exists_parse_snd_eq (hs : HighlightStore) (h : regions.Faithful listed current) {b : Buffer}
    (hb : current b.uri = some b.document) (hown : regions.detection ∈ listed b.uri)
    (hR : b.isR = true) (now : Real) :
    ∃ d ∈ listed b.uri, ∃ regions' : RegionStore, regions'.detection = regions.detection ∧
      regions'.Faithful listed current ∧
      (hs.parse regions .silent now b.document).2 = (regions', hs.noting d b) := by
  have hdoc : current b.document.uri = some b.document := hb
  obtain ⟨d, hd, regions', hdetection, hfaithful, hparse⟩ := exists_parse_eq hs h hdoc hown now
  have huri : b.document.uri = b.uri := rfl
  refine ⟨d, hd, regions', hdetection, hfaithful, ?_⟩
  rw [hparse, noting, hR, huri]
  cases b.uri.isEmpty <;> rfl

/-- A request stores highlights only if none of the version are kept. -/
theorem exists_request_snd_eq (hs : HighlightStore) (h : regions.Faithful listed current)
    {b : Buffer} (hb : current b.uri = some b.document) (hown : regions.detection ∈ listed b.uri)
    (now : Real) (range : Option Range) :
    ∃ (d : Detection) (regions' : RegionStore) (hs' : HighlightStore),
      regions'.detection = regions.detection ∧ regions'.Faithful listed current ∧
      (hs.request regions now b range).2 = (regions', hs') ∧
      (hs' = hs ∨ hs' = hs.noting d b ∧
        ∀ kept, hs.entries.get? b.uri ≠ some (b.versionNumber, kept)) := by
  unfold request
  cases hR : b.isR with
  | false => exact ⟨regions.detection, regions, hs, rfl, h, rfl, Or.inl rfl⟩
  | true =>
      obtain ⟨d, -, regions', hdetection, hfaithful, hnoting⟩ :=
        exists_parse_snd_eq hs h hb hown hR now
      simp only [get]
      cases hentry : hs.entries.get? b.document.uri with
      | none =>
          refine ⟨d, regions', _, hdetection, hfaithful, hnoting, Or.inr ⟨rfl, ?_⟩⟩
          intro kept hkept
          simpa using hentry.symm.trans hkept
      | some entry =>
          obtain ⟨version, kept⟩ := entry
          by_cases hversion : version = b.document.version
          · exact ⟨d, regions, hs, rfl, h, by simp [hversion], Or.inl rfl⟩
          · simp only [hversion, if_false]
            refine ⟨d, regions', _, hdetection, hfaithful, hnoting, Or.inr ⟨rfl, ?_⟩⟩
            intro kept' hkept
            have hsame := Option.some.inj (hentry.symm.trans hkept)
            exact hversion (congrArg Prod.fst hsame)

/-- Highlights of the version answer a request, whatever settings they go by. -/
theorem request_fst_eq {hs : HighlightStore} (h : hs.AllNamed) {d : Detection} {b : Buffer}
    (hkept : b.isR = true → b.uri.isEmpty = false →
      hs.entries.get? b.uri = some (b.versionNumber, Highlight.ofDocument d b.document))
    (regions : RegionStore) (now : Real) (range : Option Range) :
    (hs.request regions now b range).1 = answerTo d b range := by
  unfold request answerTo
  have huri : b.document.uri = b.uri := rfl
  have hversion : b.document.version = b.versionNumber := rfl
  cases hR : b.isR with
  | false => rfl
  | true =>
      cases hname : b.uri.isEmpty with
      | true => simp [get, huri, h.get?_eq_none hname, parse, hname, Except.map, Except.toOption]
      | false => simp [get, huri, hversion, hkept hR hname, Except.toOption]

end HighlightStore

end EmbeddedSql
