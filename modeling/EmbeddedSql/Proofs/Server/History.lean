/-
**Answers do not depend on the history of a session.**

Between the text of a document and the answers of the server stand two stores, and the client is
free to repeat versions or to count them down.  That the stores never show through rests on the
order in which the listeners hear of a change: the scan is dropped before diagnostics and highlights
ask for it.  The invariant is `Server.Sound`: whatever the server keeps belongs to the text that is
open now.

Main definitions:

* `Server.openBuffer?` — the buffer of an open document;
* `Server.admits` — sessions in which documents are opened while closed, and edited and asked about
  while open, with settings that stay as they are;
* `Server.started` — a server without database that a client has just introduced itself to;
* `Server.Sound` — the server keeps nothing that is out of date;
* `Server.Alike` — the server answers and publishes what a new server does that opens the same
  buffer.

Main results:

* `Server.Sound.notify_opened`, `Server.Sound.notify_changed` — what the listeners make of a
  document that was opened or edited;
* `Server.Sound.step`, `Server.Sound.run` — the invariant along an event and along a session;
* `Server.session_history_independent` — **after any session** the server is like a new one.
-/

import EmbeddedSql.Proofs.Highlight.Store
import EmbeddedSql.Server.Event

set_option relaxedAutoImplicit false
set_option autoImplicit false

namespace EmbeddedSql

/-! ### Open documents -/

namespace Workspace

theorem uri_of_get? {w : Workspace} {uri : String} {b : Buffer} (h : w.get? uri = some b) :
    b.uri = uri := by
  simpa using List.find?_some h

end Workspace

/-- A buffer after the edits of one event.  Without any edit it keeps its version too. -/
def Buffer.edited (b : Buffer) (version : Option Int) (changes : List Buffer.Change) : Buffer :=
  if changes.isEmpty then b else { changes.foldl Buffer.change b with version := version }

theorem Buffer.uri_foldl_change (b : Buffer) (changes : List Buffer.Change) :
    (changes.foldl Buffer.change b).uri = b.uri := by
  induction changes generalizing b with
  | nil => rfl
  | cons c cs ih => exact ih (b.change c)

@[simp] theorem Buffer.uri_edited (b : Buffer) (version : Option Int)
    (changes : List Buffer.Change) : (b.edited version changes).uri = b.uri := by
  unfold edited
  split
  · rfl
  · exact uri_foldl_change b changes

theorem Buffer.language_foldl_change (b : Buffer) (changes : List Buffer.Change) :
    (changes.foldl Buffer.change b).language = b.language := by
  induction changes generalizing b with
  | nil => rfl
  | cons c cs ih => exact ih (b.change c)

/-- Edits do not change the language. -/
theorem Buffer.isR_edited (b : Buffer) (version : Option Int) (changes : List Buffer.Change) :
    (b.edited version changes).isR = b.isR := by
  unfold edited
  split
  · rfl
  · simp only [isR, uri_foldl_change, language_foldl_change]

/-- Without a database the diagnostics of regions leave none behind. -/
theorem Diagnostic.ofRegions_none_snd (depths : Depths) (b : Buffer) (rs : List Region) :
    (ofRegions depths b none rs).2 = none := by
  have hcollect : (collect depths b none rs).2 = none := by
    induction rs with
    | nil => rfl
    | cons r rs ih =>
        have hregion : ∃ found, ofRegion depths b none r = (.ok found, none) := by
          unfold ofRegion
          split <;> exact ⟨_, rfl⟩
        obtain ⟨found, hregion⟩ := hregion
        simpa [collect, hregion] using ih
  exact hcollect

/-- Without a database suggestions leave none behind. -/
theorem Completion.request_none_snd (depth : Nat) (d : Detection) (b : Buffer) (p : Position) :
    (request depth d b none p).2 = none := by
  have hsuggest : (suggest depth d b none p).2 = none := by
    unfold suggest
    split <;> rfl
  unfold request
  split
  · exact hsuggest
  · rfl

namespace Server

/-- The buffer of an open document. -/
def openBuffer? (s : Server) (uri : String) : Option Buffer :=
  s.workspace.bind (·.get? uri)

/-- The open documents as the detection sees them. -/
def current (s : Server) (uri : String) : Option Document :=
  (s.openBuffer? uri).map Buffer.document

theorem uri_of_openBuffer? {s : Server} {uri : String} {b : Buffer}
    (h : s.openBuffer? uri = some b) : b.uri = uri := by
  obtain ⟨w, -, hw⟩ := Option.bind_eq_some_iff.1 h
  exact Workspace.uri_of_get? hw

theorem buffer_eq_ok {s : Server} {uri : String} {b : Buffer} (h : s.openBuffer? uri = some b) :
    s.buffer uri = .ok b := by
  obtain ⟨w, hs, hw⟩ := Option.bind_eq_some_iff.1 h
  simp [buffer, hs, hw]

/-- The open documents that get highlights. -/
def shown (s : Server) (uri : String) : Option Document :=
  ((s.openBuffer? uri).filter Buffer.isR).map Buffer.document

theorem current_uri {s : Server} {b : Buffer} (h : s.openBuffer? b.uri = some b) :
    s.current b.uri = some b.document := by
  simp [current, h]

theorem shown_uri {s : Server} {b : Buffer} (h : s.openBuffer? b.uri = some b) (hR : b.isR = true) :
    s.shown b.uri = some b.document := by
  simp [shown, h, hR]

/-! ### Sessions -/

/-- Whether an event may happen now: a document is opened while it is closed, and edited or asked
about while it is open.  The settings stay as they are. -/
def permits (s : Server) : Event → Bool
  | .opened b => (s.openBuffer? b.uri).isNone
  | .changed uri _ _ => (s.openBuffer? uri).isSome
  | .highlights uri _ => (s.openBuffer? uri).isSome
  | .complete uri _ => (s.openBuffer? uri).isSome
  | .closed _ => true
  | .clock _ => true
  | _ => false

/-- Whether all events of a session may happen one after another. -/
def admits : Server → List Event → Bool
  | _, [] => true
  | s, e :: rest => s.permits e && admits (s.step e).2.2 rest

/-- A server without a database that a client has just introduced itself to; none if the settings
admit of none. -/
def started (settings : Settings) (printer : Printer) (depths : Depths) (port : Int)
    (obstacle : Feature → Option String) (options : Value) : Except Cache.Error Server :=
  (create settings printer depths none port obstacle).map fun s =>
    (s.step (.introduced options)).2.2

/-! ### The invariant -/

/-- The server `s` is the server `s₀` with documents open, and keeps nothing that is out of date. -/
structure Sound (s₀ s : Server) : Prop where
  applied : s.applied = s₀.applied
  depths : s.depths = s₀.depths
  features : s.features = s₀.features
  listeners : s.dispatch.members = .regions :: s₀.features.filterMap Feature.listener?
  detection : s.regions.detection = s₀.regions.detection
  database : s.database = none
  workspace : s.workspace.isSome = true
  /-- Only documents with proper names are open. -/
  named : ∀ uri b, s.openBuffer? uri = some b → ∃ path, Path.ofUri uri = .ok path
  regions : s.regions.Faithful (fun _ => [s.regions.detection]) s.current
  highlights : s.highlights.Faithful s.regions.detection s.shown
  /-- A server without the feature never keeps highlights. -/
  unheard : .highlighting ∉ s₀.features → s.highlights.entries = []

/-- The server without what it keeps about a document. -/
def forget (s : Server) (uri : String) : Server :=
  { s with regions := s.regions.forget uri, highlights := s.highlights.forget uri }

variable {s₀ s : Server}

namespace Sound

/-- What is kept may be exchanged for anything that is not out of date, and the clock and the
diagnostics do not matter. -/
theorem update (h : Sound s₀ s) (now : Real) (ds : DiagnosticStore) {regions : RegionStore}
    {highlights : HighlightStore} {database : Option Database}
    (hdetection : regions.detection = s.regions.detection)
    (hregions : regions.Faithful (fun _ => [s.regions.detection]) s.current)
    (hhighlights : highlights.Faithful s.regions.detection s.shown)
    (hunheard : .highlighting ∉ s₀.features → highlights.entries = [])
    (hdatabase : database = none) :
    Sound s₀ { s with
      now := now, regions := regions, highlights := highlights, diagnostics := ds,
      database := database } :=
  ⟨h.applied, h.depths, h.features, h.listeners, hdetection.trans h.detection, hdatabase,
    h.workspace, h.named, hdetection ▸ hregions, hdetection ▸ hhighlights, hunheard⟩

/-- When the buffer of one document is exchanged, what is kept about the others stays right. -/
theorem replace (h : Sound s₀ s) {uri : String} {w : Workspace}
    (hsame : ∀ other, other ≠ uri → w.get? other = s.openBuffer? other)
    (hnamed : ∀ b, w.get? uri = some b → ∃ path, Path.ofUri uri = .ok path) :
    Sound s₀ ({ s with workspace := some w }.forget uri) := by
  have hbuffer : ∀ other, other ≠ uri →
      ({ s with workspace := some w } : Server).openBuffer? other = s.openBuffer? other := hsame
  refine ⟨h.applied, h.depths, h.features, h.listeners, h.detection, h.database, rfl, ?_,
    h.regions.forget ?_, h.highlights.forget ?_, ?_⟩
  · intro other b hb
    by_cases heq : other = uri
    · subst heq
      exact hnamed b hb
    · exact h.named other b ((hsame other heq).symm.trans hb)
  · intro other hne
    exact ⟨congrArg (Option.map Buffer.document) (hbuffer other hne), rfl⟩
  · intro other hne
    exact congrArg (fun b => (Option.filter Buffer.isR b).map Buffer.document) (hbuffer other hne)
  · intro hoff
    simp [Server.forget, HighlightStore.forget, h.unheard hoff, Named.erase]

end Sound

/-! ### Listeners -/

/-- What the diagnostics of a buffer are when no scan is kept. -/
def diagnosticsOf (s : Server) (b : Buffer) : List Diagnostic :=
  if !s.applied.diagnostics.enabled || !b.isR then []
  else (Diagnostic.ofRegions s.depths b none (Region.all s.regions.detection b.document)).1

/-- What a listener sends about a buffer that was opened or edited. -/
def report (s : Server) (b : Buffer) : Listener → List Message
  | .diagnostics => [.diagnostics b.uri (some b.versionNumber) (s.diagnosticsOf b)]
  | _ => []

/-- Without a database, diagnostics come from the regions of the buffer alone. -/
theorem exists_diagnose_eq (depths : Depths) (options : DiagnosticOptions) {regions : RegionStore}
    {current : String → Option Document}
    (h : regions.Faithful (fun _ => [regions.detection]) current) {b : Buffer}
    (hb : current b.uri = some b.document) (now : Real) :
    ∃ regions' : RegionStore, regions'.detection = regions.detection ∧
      regions'.Faithful (fun _ => [regions.detection]) current ∧
      DiagnosticStore.diagnose depths options regions none now b =
        (if !options.enabled || !b.isR then []
          else (Diagnostic.ofRegions depths b none (Region.all regions.detection b.document)).1,
          regions', none) := by
  unfold DiagnosticStore.diagnose
  split
  · exact ⟨regions, rfl, h, rfl⟩
  · have hdoc : current b.document.uri = some b.document := hb
    obtain ⟨asked, regions', hlookup, hdetection, hfaithful⟩ :=
      RegionStore.exists_lookup_eq_own h hdoc rfl now
    refine ⟨regions', hdetection, hfaithful, ?_⟩
    have hnone := Diagnostic.ofRegions_none_snd depths b (Region.all regions.detection b.document)
    simp only [RegionStore.regions, hlookup]
    split
    · exact Prod.ext rfl (Prod.ext rfl hnone)
    · rfl

/-- The listeners are being told about a buffer that is open now.  Only the highlights that are kept
of it may be out of date. -/
structure Hearing (s₀ s : Server) (b : Buffer) : Prop where
  rest : Sound s₀ (s.forget b.uri)
  regions : s.regions.Faithful (fun _ => [s.regions.detection]) s.current
  opened : s.openBuffer? b.uri = some b
  unheard : .highlighting ∉ s₀.features → s.highlights.entries = []
  /-- Highlights of other languages, and of documents without a name, are never kept. -/
  eligible : ∀ e, s.highlights.entries.get? b.uri = some e → b.isR = true ∧ b.uri.isEmpty = false

namespace Hearing

variable {b : Buffer} {e : DocumentEvent}

/-- Once the highlights are right, everything is. -/
theorem sound (h : Hearing s₀ s b) (hs : s.highlights.Faithful s.regions.detection s.shown) :
    Sound s₀ s :=
  ⟨h.rest.applied, h.rest.depths, h.rest.features, h.rest.listeners, h.rest.detection,
    h.rest.database, h.rest.workspace, h.rest.named, h.regions, hs, h.unheard⟩

/-- Nothing is out of date when there is nothing to be. -/
theorem faithful_of_none (h : Hearing s₀ s b) (hnone : s.highlights.entries.get? b.uri = none) :
    s.highlights.Faithful s.regions.detection s.shown :=
  HighlightStore.Faithful.of_forget h.rest.highlights hnone

/-- The diagnostics of the document are refreshed and reported. -/
theorem hear_diagnostics (h : Hearing s₀ s b) (he : e ≠ .closed) :
    ∃ s', s.hear e b.uri .diagnostics = (s₀.report b .diagnostics, s') ∧ Hearing s₀ s' b ∧
      s'.workspace = s.workspace ∧ (s.highlights.Faithful s.regions.detection s.shown →
        s'.highlights.Faithful s'.regions.detection s'.shown) := by
  obtain ⟨regions, hdetection, hfaithful, hdiagnose⟩ :=
    exists_diagnose_eq s.depths s.applied.diagnostics h.regions (current_uri h.opened) s.now
  have hdatabase : s.database = none := h.rest.database
  have hw : s.workspace.isSome = true := h.rest.workspace
  have hsame : s₀.diagnosticsOf b = s.diagnosticsOf b := by
    have happlied : s.applied = s₀.applied := h.rest.applied
    have hdepths : s.depths = s₀.depths := h.rest.depths
    have hdetection : s.regions.detection = s₀.regions.detection := h.rest.detection
    simp only [diagnosticsOf, happlied, hdepths, hdetection]
  have hrefresh : s.refreshDiagnostics b.uri = { s with
      diagnostics := s.diagnostics.insert b.uri b.versionNumber (s₀.diagnosticsOf b)
      regions := regions } := by
    rw [hsame]
    simp only [refreshDiagnostics, buffer_eq_ok h.opened, DiagnosticStore.refresh, hdatabase,
      hdiagnose, diagnosticsOf]
  refine ⟨s.refreshDiagnostics b.uri, ?_, ?_, ?_, ?_⟩
  · cases e with
    | closed => exact absurd rfl he
    | opened => simp [hear, hw, hrefresh, publish, DiagnosticStore.get_insert, report]
    | changed => simp [hear, hw, hrefresh, publish, DiagnosticStore.get_insert, report]
  · rw [hrefresh]
    exact ⟨h.rest.update s.now _ hdetection (hfaithful.forget fun _ _ => ⟨rfl, rfl⟩)
      h.rest.highlights h.rest.unheard hdatabase, hdetection ▸ hfaithful, h.opened, h.unheard,
      h.eligible⟩
  · rw [hrefresh]
  · rw [hrefresh]
    exact fun hs => hdetection ▸ hs

/-- Highlights that are right may take the place of those that are kept. -/
theorem settle (h : Hearing s₀ s b) (hon : .highlighting ∈ s₀.features) {regions : RegionStore}
    {highlights : HighlightStore} (hdetection : regions.detection = s.regions.detection)
    (hregions : regions.Faithful (fun _ => [s.regions.detection]) s.current)
    (hhighlights : highlights.Faithful s.regions.detection s.shown) :
    Hearing s₀ { s with regions := regions, highlights := highlights } b := by
  refine ⟨h.rest.update s.now s.diagnostics hdetection (hregions.forget fun _ _ => ⟨rfl, rfl⟩)
    (hhighlights.forget fun _ _ => rfl) (absurd hon) h.rest.database, hdetection ▸ hregions,
    h.opened, absurd hon, ?_⟩
  intro entry hentry
  obtain ⟨hname, doc, hdoc, -⟩ := hhighlights b.uri entry.1 entry.2 hentry
  refine ⟨?_, hname⟩
  by_contra hR
  simp [shown, h.opened, Option.filter, hR] at hdoc

/-- The highlights of the document are refreshed, so they are right afterwards. -/
theorem hear_highlights (h : Hearing s₀ s b) (hon : .highlighting ∈ s₀.features)
    (he : e ≠ .closed) :
    ∃ s', s.hear e b.uri .highlights = ([], s') ∧ Hearing s₀ s' b ∧
      s'.workspace = s.workspace ∧ s'.highlights.Faithful s'.regions.detection s'.shown := by
  have hhear : s.hear e b.uri .highlights = ([], s.refreshHighlights b.uri) := by
    cases e with
    | closed => exact absurd rfl he
    | opened => rfl
    | changed => rfl
  refine ⟨s.refreshHighlights b.uri, hhear, ?_⟩
  have hnone : (b.isR = true ∧ b.uri.isEmpty = false → False) →
      s.highlights.entries.get? b.uri = none := by
    intro hnot
    rw [Option.eq_none_iff_forall_ne_some]
    exact fun entry hentry => hnot (h.eligible entry hentry)
  simp only [refreshHighlights, buffer_eq_ok h.opened]
  cases hR : b.isR with
  | false => exact ⟨h, rfl, h.faithful_of_none (hnone (by simp [hR]))⟩
  | true =>
      have hdoc : s.current b.document.uri = some b.document := current_uri h.opened
      obtain ⟨d, hd, regions, hdetection, hfaithful, hparse⟩ :=
        HighlightStore.exists_parse_eq s.highlights h.regions hdoc List.mem_cons_self s.now
      obtain rfl : d = s.regions.detection := List.mem_singleton.1 hd
      cases hname : b.document.uri.isEmpty with
      | true =>
          have hempty : b.uri.isEmpty = true := hname
          have hkept := h.faithful_of_none (hnone (by simp [hempty]))
          simp only [if_true, hparse, hname, true_and]
          exact ⟨h.settle hon hdetection hfaithful hkept, hdetection ▸ hkept⟩
      | false =>
          have hothers : (s.highlights.forget b.document.uri).Faithful s.regions.detection
              s.shown := h.rest.highlights
          have hkept := hothers.insert hname (shown_uri h.opened hR) b.document.version
          simp only [if_true, hparse, hname, Bool.false_eq_true, if_false, true_and]
          exact ⟨h.settle hon hdetection hfaithful hkept, hdetection ▸ hkept⟩

/-- All listeners but the first in turn.  Each one reports as it would about a new server. -/
theorem hearAll (h : Hearing s₀ s b) (he : e ≠ .closed) {ls : List Listener}
    (hls : ∀ l ∈ ls, l = .diagnostics ∨ l = .highlights ∧ .highlighting ∈ s₀.features)
    (hkept : .highlights ∈ ls ∨ s.highlights.Faithful s.regions.detection s.shown) :
    ∃ s', Server.hearAll e b.uri s ls = (ls.flatMap (s₀.report b), s') ∧ Sound s₀ s' ∧
      s'.workspace = s.workspace := by
  induction ls generalizing s with
  | nil => exact ⟨s, rfl, h.sound (hkept.resolve_left (by simp)), rfl⟩
  | cons l ls ih =>
      obtain ⟨hl, hrest⟩ := List.forall_mem_cons.1 hls
      rcases hl with rfl | ⟨rfl, hon⟩
      · obtain ⟨s', hhear, h', hw, hstay⟩ := h.hear_diagnostics he
        obtain ⟨s'', hall, hsound, hw'⟩ := ih h' hrest (hkept.imp (by simp) hstay)
        refine ⟨s'', ?_, hsound, hw'.trans hw⟩
        simp [Server.hearAll, hhear, hall]
      · obtain ⟨s', hhear, h', hw, hright⟩ := h.hear_highlights hon he
        obtain ⟨s'', hall, hsound, hw'⟩ := ih h' hrest (Or.inr hright)
        refine ⟨s'', ?_, hsound, hw'.trans hw⟩
        simp [Server.hearAll, hhear, hall, report]

end Hearing

/-! ### Document events -/

/-- Nobody leaves while an event is distributed. -/
theorem notify_eq (s : Server) (e : DocumentEvent) (uri : String) :
    s.notify e uri =
      Server.hearAll e uri s (s.dispatch.members.filter fun l => (reaction e l).isSome) := by
  have hstay : ∀ l, reaction e l ≠ some .left := by
    intro l
    unfold reaction
    split <;> simp
  simp [notify, Dispatch.distribute, hstay]

/-- The listeners of the features are those of diagnostics and of highlights. -/
theorem mem_filterMap_listener {fs : List Feature} {l : Listener}
    (h : l ∈ fs.filterMap Feature.listener?) :
    l = .diagnostics ∨ l = .highlights ∧ .highlighting ∈ fs := by
  obtain ⟨f, hf, hl⟩ := List.mem_filterMap.1 h
  cases f with
  | completion => simp [Feature.listener?] at hl
  | formatting => simp [Feature.listener?] at hl
  | diagnostics => exact Or.inl (by simpa [Feature.listener?] using hl.symm)
  | highlighting => exact Or.inr ⟨by simpa [Feature.listener?] using hl.symm, hf⟩

theorem highlights_mem_filterMap {fs : List Feature} (h : .highlighting ∈ fs) :
    Listener.highlights ∈ fs.filterMap Feature.listener? :=
  List.mem_filterMap.2 ⟨.highlighting, h, rfl⟩

/-- All listeners but the one of the regions hear of every event. -/
theorem filter_reaction (e : DocumentEvent) (fs : List Feature) :
    (fs.filterMap Feature.listener?).filter (fun l => (reaction e l).isSome) =
      fs.filterMap Feature.listener? := by
  rw [List.filter_eq_self]
  intro l hl
  rcases mem_filterMap_listener hl with rfl | ⟨rfl, -⟩ <;> rfl

/-- Everything that is sent about a buffer that was opened or edited. -/
def reports (s : Server) (b : Buffer) : List Message :=
  (s.features.filterMap Feature.listener?).flatMap (s.report b)

namespace Sound

variable {b : Buffer} {w : Workspace}

/-- Telling the listeners of a buffer: they report as they would about a new server. -/
theorem hearAll_of_hearing (h : Hearing s₀ s b) {e : DocumentEvent} (he : e ≠ .closed) :
    ∃ s', Server.hearAll e b.uri s (s₀.features.filterMap Feature.listener?) = (s₀.reports b, s') ∧
      Sound s₀ s' ∧ s'.workspace = s.workspace := by
  refine h.hearAll he (fun l hl => mem_filterMap_listener hl) ?_
  by_cases hon : .highlighting ∈ s₀.features
  · exact Or.inl (highlights_mem_filterMap hon)
  · exact Or.inr (h.faithful_of_none (by simp [h.unheard hon]))

/-- A document that was closed is opened. -/
theorem notify_opened (h : Sound s₀ s) (hclosed : s.openBuffer? b.uri = none)
    (hname : ∃ path, Path.ofUri b.uri = .ok path) (hb : w.get? b.uri = some b)
    (hsame : ∀ other, other ≠ b.uri → w.get? other = s.openBuffer? other) :
    ∃ s', ({ s with workspace := some w } : Server).notify .opened b.uri = (s₀.reports b, s') ∧
      Sound s₀ s' ∧ s'.workspace = some w := by
  have hrest := h.replace hsame fun _ _ => hname
  have hcurrent : s.current b.uri = none := by simp [current, hclosed]
  have hshown : s.shown b.uri = none := by simp [shown, hclosed]
  have hscan : s.regions.cache.get? b.uri = none := by
    rw [Option.eq_none_iff_forall_ne_some]
    intro e he
    obtain ⟨doc, hdoc, -⟩ := h.regions b.uri e he
    simp [hcurrent] at hdoc
  have hhearing : Hearing s₀ { s with workspace := some w } b := by
    refine ⟨hrest, RegionStore.Faithful.of_forget hrest.regions hscan, hb, h.unheard, ?_⟩
    intro e he
    obtain ⟨-, doc, hdoc, -⟩ := h.highlights b.uri e.1 e.2 he
    simp [hshown] at hdoc
  rw [notify_eq, h.listeners, List.filter_cons_of_neg (by simp [reaction]), filter_reaction]
  exact hearAll_of_hearing hhearing (by simp)

/-- A document that is open is edited.  Its scan is dropped before anything else is told. -/
theorem notify_changed (h : Sound s₀ s) {old : Buffer} (hopen : s.openBuffer? b.uri = some old)
    (hlanguage : b.isR = old.isR) (hb : w.get? b.uri = some b)
    (hsame : ∀ other, other ≠ b.uri → w.get? other = s.openBuffer? other) :
    ∃ s', ({ s with workspace := some w } : Server).notify .changed b.uri = (s₀.reports b, s') ∧
      Sound s₀ s' ∧ s'.workspace = some w := by
  have hrest := h.replace hsame fun _ _ => h.named b.uri old hopen
  have hhearing : Hearing s₀
      { s with workspace := some w, regions := s.regions.forget b.uri } b := by
    refine ⟨hrest.update s.now s.diagnostics rfl (hrest.regions.forget fun _ _ => ⟨rfl, rfl⟩)
      hrest.highlights hrest.unheard h.database, hrest.regions, hb, h.unheard, ?_⟩
    intro e he
    obtain ⟨hname, doc, hdoc, -⟩ := h.highlights b.uri e.1 e.2 he
    refine ⟨?_, hname⟩
    rw [hlanguage]
    by_contra hR
    simp [shown, hopen, Option.filter, hR] at hdoc
  obtain ⟨s', hall, hsound, hw⟩ := hearAll_of_hearing hhearing (e := .changed) (by simp)
  refine ⟨s', ?_, hsound, hw⟩
  rw [notify_eq, h.listeners, List.filter_cons_of_pos (by simp [reaction]), filter_reaction]
  simp [Server.hearAll, hear, hall]

end Sound

/-- The listeners of a closed document drop what they keep of it. -/
theorem hearAll_closed {uri : String} {d : Detection} {shown : String → Option Document}
    {ls : List Listener} (hls : ∀ l ∈ ls, l = .diagnostics ∨ l = .highlights)
    (hrest : (s.highlights.forget uri).Faithful d shown)
    (hkept : .highlights ∈ ls ∨ s.highlights.Faithful d shown) :
    ∃ sent ds hs, Server.hearAll .closed uri s ls =
        (sent, { s with diagnostics := ds, highlights := hs }) ∧
      hs.Faithful d shown ∧ (s.highlights.entries = [] → hs.entries = []) := by
  induction ls generalizing s with
  | nil => exact ⟨[], s.diagnostics, s.highlights, rfl, hkept.resolve_left (by simp), id⟩
  | cons l ls ih =>
      obtain ⟨hl, htail⟩ := List.forall_mem_cons.1 hls
      rcases hl with rfl | rfl
      · have hkept : .highlights ∈ ls ∨ s.highlights.Faithful d shown := hkept.imp_left (by simp)
        obtain ⟨sent, ds, hs, hall, hright, hempty⟩ :=
          ih (s := { s with diagnostics := s.diagnostics.forget uri }) htail hrest hkept
        refine ⟨.diagnostics uri none [] :: sent, ds, hs, ?_, hright, hempty⟩
        simp [Server.hearAll, hear, hall]
      · obtain ⟨sent, ds, hs, hall, hright, hempty⟩ :=
          ih (s := { s with highlights := s.highlights.forget uri }) htail
            (hrest.forget fun _ _ => rfl) (Or.inr hrest)
        refine ⟨sent, ds, hs, ?_, hright, fun hnil => hempty ?_⟩
        · simp [Server.hearAll, hear, hall]
        · simp [HighlightStore.forget, hnil, Named.erase]

/-- Whether or not there are edits, the listeners are told of a workspace with the edited buffer. -/
theorem exists_step_changed_eq {uri : String} {b : Buffer} (hopen : s.openBuffer? uri = some b)
    (version : Option Int) (changes : List Buffer.Change) :
    ∃ w' : Workspace,
      s.step (.changed uri version changes) =
        ({ s with workspace := some w' } : Server).announce .changed uri ∧
      w'.get? uri = some (b.edited version changes) ∧
      ∀ other, other ≠ uri → w'.get? other = s.openBuffer? other := by
  obtain ⟨w, hw, hget⟩ := Option.bind_eq_some_iff.1 hopen
  obtain rfl := uri_of_openBuffer? hopen
  by_cases hnil : changes.isEmpty = true
  · refine ⟨w, ?_, by simp [Buffer.edited, hnil, hget], fun other _ => by simp [openBuffer?, hw]⟩
    simp only [step, changeDocument, hnil, if_true, ← hw]
  · refine ⟨w.put (b.edited version changes), ?_, ?_, ?_⟩
    · simp [step, changeDocument, documentEvent, hnil, hw, Workspace.change, hget, Buffer.edited]
    · simp [Workspace.get?_put]
    · intro other hne
      simp [Workspace.get?_put, hne, openBuffer?, hw]

/-- What a request for the highlights of a buffer is answered. -/
def highlightsOf (s : Server) (b : Buffer) (range : Option Range) : Answer :=
  if .highlighting ∈ s.features then
    (HighlightStore.answerTo s.regions.detection b range).elim .nothing .highlights
  else .unregistered

namespace Sound

variable {b : Buffer} {w : Workspace} {uri : String}

/-- A document is closed.  Nothing is kept of it. -/
theorem notify_closed (h : Sound s₀ s) (hnone : w.get? uri = none)
    (hsame : ∀ other, other ≠ uri → w.get? other = s.openBuffer? other) :
    Sound s₀ (({ s with workspace := some w } : Server).notify .closed uri).2 := by
  have hrest := h.replace hsame fun b hb => by simp [hnone] at hb
  have hls : ∀ l ∈ s₀.features.filterMap Feature.listener?, l = .diagnostics ∨ l = .highlights :=
    fun l hl => (mem_filterMap_listener hl).imp_right And.left
  have hkept : .highlights ∈ s₀.features.filterMap Feature.listener? ∨
      s.highlights.Faithful s.regions.detection
        ({ s with workspace := some w } : Server).shown := by
    by_cases hon : .highlighting ∈ s₀.features
    · exact Or.inl (highlights_mem_filterMap hon)
    · exact Or.inr (HighlightStore.Faithful.of_forget hrest.highlights (by simp [h.unheard hon]))
  obtain ⟨sent, ds, hs, hall, hright, hempty⟩ :=
    hearAll_closed (s := { s with workspace := some w, regions := s.regions.forget uri })
      hls hrest.highlights hkept
  rw [notify_eq, h.listeners, List.filter_cons_of_pos (by simp [reaction]), filter_reaction]
  simp only [Server.hearAll, hear, hall]
  exact hrest.update s.now ds rfl hrest.regions hright (fun hoff => hempty (h.unheard hoff))
    h.database

/-! ### Events -/

/-- A document is opened. -/
theorem step_opened (h : Sound s₀ s) (hclosed : s.openBuffer? b.uri = none) :
    (∀ path, Path.ofUri b.uri = .ok path → (s.step (.opened b)).2.1 = s₀.reports b ∧
        (s.step (.opened b)).2.2.openBuffer? b.uri = some b) ∧
      (∀ e, Path.ofUri b.uri = .error e → (s.step (.opened b)).2.1 = []) ∧
      Sound s₀ (s.step (.opened b)).2.2 := by
  obtain ⟨w, hw⟩ := Option.isSome_iff_exists.1 h.workspace
  cases hname : Path.ofUri b.uri with
  | error e => simp [step, openDocument, hw, hname, h]
  | ok path =>
      have hb : (w.put b).get? b.uri = some b := by simp [Workspace.get?_put]
      have hsame : ∀ other, other ≠ b.uri → (w.put b).get? other = s.openBuffer? other := by
        intro other hne
        simp [Workspace.get?_put, hne, openBuffer?, hw]
      obtain ⟨s', hnotify, hsound, hw'⟩ := h.notify_opened hclosed ⟨path, hname⟩ hb hsame
      simp [step, openDocument, documentEvent, announce, hw, hname, hnotify, hsound, openBuffer?,
        hw', hb]

/-- A document is edited. -/
theorem step_changed (h : Sound s₀ s) (hopen : s.openBuffer? uri = some b) (version : Option Int)
    (changes : List Buffer.Change) :
    (s.step (.changed uri version changes)).2.1 = s₀.reports (b.edited version changes) ∧
      (s.step (.changed uri version changes)).2.2.openBuffer? uri =
        some (b.edited version changes) ∧
      Sound s₀ (s.step (.changed uri version changes)).2.2 := by
  obtain rfl := uri_of_openBuffer? hopen
  obtain ⟨w', hstep, hput, hothers⟩ := exists_step_changed_eq hopen version changes
  rw [← b.uri_edited version changes] at hopen hput hothers
  obtain ⟨s', hnotify, hsound, hw'⟩ :=
    h.notify_changed hopen (b.isR_edited version changes) hput hothers
  rw [b.uri_edited] at hnotify hput
  simp [hstep, announce, hnotify, hsound, openBuffer?, hw', hput]

/-- A document is closed. -/
theorem step_closed (h : Sound s₀ s) (uri : String) : Sound s₀ (s.step (.closed uri)).2.2 := by
  obtain ⟨w, hw⟩ := Option.isSome_iff_exists.1 h.workspace
  have hnone : (w.remove uri).get? uri = none := by simp [Workspace.get?_remove]
  have hsame : ∀ other, other ≠ uri → (w.remove uri).get? other = s.openBuffer? other := by
    intro other hne
    simp [Workspace.get?_remove, hne, openBuffer?, hw]
  have hsound := h.notify_closed hnone hsame
  simpa [step, documentEvent, announce, hw] using hsound

/-- The highlights of an open document are asked for. -/
theorem step_highlights (h : Sound s₀ s) (hopen : s.openBuffer? uri = some b)
    (range : Option Range) :
    (s.step (.highlights uri range)).1 = s₀.highlightsOf b range ∧
      Sound s₀ (s.step (.highlights uri range)).2.2 := by
  obtain rfl := uri_of_openBuffer? hopen
  unfold highlightsOf
  rw [← h.features]
  simp only [step, answerHighlights]
  split
  · next hon =>
      rw [h.features] at hon
      obtain ⟨regions, highlights, hdetection, hregions, hhighlights, hrequest⟩ :=
        HighlightStore.exists_request_eq h.regions h.highlights (current_uri hopen) rfl
          (shown_uri hopen) s.now range
      simp only [buffer_eq_ok hopen, hrequest, h.detection, true_and]
      exact h.update s.now s.diagnostics hdetection hregions hhighlights (absurd hon) h.database
  · exact ⟨rfl, h⟩

/-- Suggestions are asked for. -/
theorem step_complete (h : Sound s₀ s) (uri : String) (p : Position) :
    Sound s₀ (s.step (.complete uri p)).2.2 := by
  simp only [step, answerComplete]
  split
  · split
    · exact h
    · refine h.update s.now s.diagnostics rfl h.regions (h.detection ▸ h.highlights) h.unheard ?_
      rw [h.database]
      exact Completion.request_none_snd _ _ _ p
  · exact h

/-- **One event** of a session keeps the invariant. -/
theorem step (h : Sound s₀ s) {e : Event} (he : s.permits e = true) :
    Sound s₀ (s.step e).2.2 := by
  cases e with
  | opened b => exact (h.step_opened (by simpa [permits] using he)).2.2
  | changed uri version changes =>
      obtain ⟨b, hopen⟩ := Option.isSome_iff_exists.1 he
      exact (h.step_changed hopen version changes).2.2
  | closed uri => exact h.step_closed uri
  | highlights uri range =>
      obtain ⟨b, hopen⟩ := Option.isSome_iff_exists.1 he
      exact (h.step_highlights hopen range).2
  | complete uri p => exact h.step_complete uri p
  | clock now =>
      exact h.update now s.diagnostics rfl h.regions h.highlights h.unheard h.database
  | _ => simp [permits] at he

/-- **A session** keeps the invariant. -/
theorem run (h : Sound s₀ s) {es : List Event} (hes : s.admits es = true) :
    Sound s₀ (s.run es).2 := by
  induction es generalizing s with
  | nil => exact h
  | cons e es ih =>
      obtain ⟨he, hes⟩ : s.permits e = true ∧ (s.step e).2.2.admits es = true := by
        simpa [admits] using hes
      exact ih (h.step he) hes

end Sound

/-! ### A new server -/

/-- Overrides change nothing but the settings and the region store, which keeps what it had if
nothing. -/
theorem override_snd_eq (s : Server) (options : Value) :
    ∃ settings applied regions, (s.override options).2 =
        { s with settings := settings, applied := applied, regions := regions } ∧
      (s.regions.cache.entries = [] → regions.cache.entries = []) := by
  unfold override
  cases s.settings.override s.depths.display options with
  | error e => cases e <;> exact ⟨s.settings, s.applied, s.regions, rfl, id⟩
  | ok settings =>
      simp only [apply, RegionStore.configure]
      cases hregions : RegionStore.ofDetection settings.detection with
      | error e =>
          exact ⟨settings, s.applied, { s.regions with detection := settings.detection }, rfl, id⟩
      | ok regions =>
          obtain ⟨lifetime, -, rfl⟩ := RegionStore.ofDetection_eq_ok_iff.1 hregions
          exact ⟨settings, settings, _, rfl, fun _ => rfl⟩

theorem introduce_eq (s : Server) (options : Value) :
    ∃ settings applied regions, (s.introduce options).2.2 =
        { s with
          workspace := some {}, settings := settings, applied := applied, regions := regions } ∧
      (s.regions.cache.entries = [] → regions.cache.entries = []) := by
  unfold introduce
  dsimp only
  split
  · exact override_snd_eq { s with workspace := some {} } options
  · exact ⟨s.settings, s.applied, s.regions, rfl, id⟩

/-- What a new server is. -/
theorem exists_of_create {settings : Settings} {printer : Printer} {depths : Depths}
    {database : Option Database} {port : Int} {obstacle : Feature → Option String}
    (h : create settings printer depths database port obstacle = .ok s) :
    ∃ regions, RegionStore.ofDetection settings.detection = .ok regions ∧
      s = setUp settings printer depths database port obstacle regions := by
  unfold create at h
  cases hregions : RegionStore.ofDetection settings.detection with
  | error e =>
      rw [hregions] at h
      cases h
  | ok regions =>
      rw [hregions] at h
      cases h
      exact ⟨regions, rfl, rfl⟩

section

variable {settings : Settings} {printer : Printer} {depths : Depths} {port : Int}
  {obstacle : Feature → Option String} {options : Value}

/-- A new server has no document open and keeps nothing. -/
theorem exists_of_started (h : started settings printer depths port obstacle options = .ok s) :
    ∃ used applied regions₀ regions, regions.cache.entries = [] ∧
      s = { setUp settings printer depths none port obstacle regions₀ with
        workspace := some {}, settings := used, applied := applied, regions := regions } := by
  unfold started at h
  cases hcreate : create settings printer depths none port obstacle with
  | error e =>
      rw [hcreate] at h
      cases h
  | ok s' =>
      rw [hcreate] at h
      cases h
      obtain ⟨regions₀, hregions, rfl⟩ := exists_of_create hcreate
      obtain ⟨lifetime, -, rfl⟩ := RegionStore.ofDetection_eq_ok_iff.1 hregions
      obtain ⟨used, applied, regions, heq, hempty⟩ := introduce_eq _ options
      exact ⟨used, applied, _, regions, hempty rfl, heq⟩

/-- A new server has no document open. -/
theorem openBuffer?_started (h : started settings printer depths port obstacle options = .ok s)
    (uri : String) : s.openBuffer? uri = none := by
  obtain ⟨used, applied, regions₀, regions, -, rfl⟩ := exists_of_started h
  rfl

/-- A new server keeps nothing. -/
theorem sound_started (h : started settings printer depths port obstacle options = .ok s) :
    Sound s s := by
  have hclosed := openBuffer?_started h
  obtain ⟨used, applied, regions₀, regions, hempty, rfl⟩ := exists_of_started h
  exact ⟨rfl, rfl, rfl, rfl, rfl, rfl, rfl, fun uri b hb => by simp [hclosed uri] at hb,
    RegionStore.faithful_of_empty hempty, HighlightStore.faithful_empty _ _, fun _ => rfl⟩

end

/-! ### History independence -/

/-- The server `s` answers and publishes what the server `new` does that opens the same buffer. -/
structure Alike (new s : Server) : Prop where
  /-- The highlights of an open document are those of the buffer as it is now. -/
  highlights : ∀ uri b range, s.openBuffer? uri = some b →
    (s.step (.highlights uri range)).1 =
      ((new.step (.opened b)).2.2.step (.highlights uri range)).1
  /-- A document that is opened gets the diagnostics of its buffer. -/
  opened : ∀ b, s.openBuffer? b.uri = none →
    (s.step (.opened b)).2.1 = (new.step (.opened b)).2.1 ∧
      ∀ path, Path.ofUri b.uri = .ok path → (s.step (.opened b)).2.2.openBuffer? b.uri = some b
  /-- A document that is edited gets those of its buffer after the edits. -/
  changed : ∀ uri b version changes, s.openBuffer? uri = some b →
    (s.step (.changed uri version changes)).2.1 =
        (new.step (.opened (b.edited version changes))).2.1 ∧
      (s.step (.changed uri version changes)).2.2.openBuffer? uri = some (b.edited version changes)

theorem Sound.alike {new : Server} (hs : Sound new s) (hnew : Sound new new)
    (hclosed : ∀ uri, new.openBuffer? uri = none) : Alike new s := by
  refine ⟨?_, ?_, ?_⟩
  · intro uri b range hb
    obtain rfl := uri_of_openBuffer? hb
    obtain ⟨path, hname⟩ := hs.named b.uri b hb
    obtain ⟨hopened, -, hsound⟩ := hnew.step_opened (hclosed b.uri)
    rw [(hs.step_highlights hb range).1, (hsound.step_highlights (hopened path hname).2 range).1]
  · intro b hb
    obtain ⟨hopened, hrefused, -⟩ := hs.step_opened hb
    obtain ⟨hopened', hrefused', -⟩ := hnew.step_opened (hclosed b.uri)
    refine ⟨?_, fun path hname => (hopened path hname).2⟩
    cases hname : Path.ofUri b.uri with
    | ok path => rw [(hopened path hname).1, (hopened' path hname).1]
    | error e => rw [hrefused e hname, hrefused' e hname]
  · intro uri b version changes hb
    obtain rfl := uri_of_openBuffer? hb
    obtain ⟨path, hname⟩ := hs.named b.uri b hb
    obtain ⟨hsent, hopen, -⟩ := hs.step_changed hb version changes
    obtain ⟨hopened, -, -⟩ := hnew.step_opened (hclosed (b.edited version changes).uri)
    rw [b.uri_edited] at hopened
    exact ⟨hsent.trans (hopened path hname).1.symm, hopen⟩

/-- **After any session** without a database, with documents opened while closed and edited or asked
about while open, in whatever versions, a server is like a new one. -/
theorem session_history_independent (settings : Settings) (printer : Printer) (depths : Depths)
    (port : Int) (obstacle : Feature → Option String) (options : Value) (new : Server)
    (hnew : started settings printer depths port obstacle options = .ok new) (es : List Event)
    (hes : new.admits es = true) : Alike new (new.run es).2 := by
  have hsound := sound_started hnew
  exact (hsound.run hes).alike hsound (openBuffer?_started hnew)

/-- A version that repeats with another text, and one that is missing. -/
theorem session_history_independent_repeated_version :
    let depths : Depths := ⟨10, 10, 10⟩
    let regions : RegionStore := ⟨{}, { lifetime := ⟨false, 5 * 2 ^ 50, -50⟩ }⟩
    let new : Server :=
      { setUp {} (fun _ t => .ok t) depths none defaultPort (fun _ => none) regions with
        workspace := some {} }
    let uri := "file:///a.R"
    let b : Buffer := ⟨uri, "dbGetQuery(con, \"select 2\nfrom t\")".toList, some 1, some "r"⟩
    let es : List Event :=
      [.opened ⟨uri, "sql('select')".toList, some 1, some "r"⟩, .highlights uri none,
        .clock (.finite ⟨false, 7, -3⟩), .changed uri (some 1) [⟨b.source, none⟩],
        .complete uri ⟨0, 20⟩]
    let s := (new.run es).2
    let fault : Buffer.Change := ⟨"(".toList, some ⟨⟨0, 24⟩, ⟨0, 25⟩⟩⟩
    started {} (fun _ t => .ok t) depths defaultPort (fun _ => none) .null = .ok new ∧
      new.admits es = true ∧ s.openBuffer? uri = some b ∧
      (s.step (.highlights uri none)).1 =
        ((new.step (.opened b)).2.2.step (.highlights uri none)).1 ∧
      (s.step (.changed uri none [fault])).2.1 =
        (new.step (.opened (b.edited none [fault]))).2.1 := by
  intro depths regions new uri b es s fault
  have hregions : RegionStore.ofDetection {} = .ok regions :=
    RegionStore.ofDetection_eq_ok_iff.2 ⟨_, by decide +kernel, rfl⟩
  have hnew : started {} (fun _ t => .ok t) depths defaultPort (fun _ => none) .null = .ok new := by
    simp only [started, create, hregions]
    rfl
  have hes : new.admits es = true := by decide +kernel
  have hb : s.openBuffer? uri = some b := by decide +kernel
  have halike : Alike new s := session_history_independent _ _ _ _ _ _ _ hnew es hes
  exact ⟨hnew, hes, hb, halike.highlights uri b none hb, (halike.changed uri b none [fault] hb).1⟩

end Server

end EmbeddedSql
