/-
**What sessions make of a server when settings change.**

A client may override the settings at any time.  They are applied to one feature after the other,
and the region store may fail in between: its lifetime must be a double.  Then detection goes by the
new settings while the scans that are kept, the format command and the options of the checks go by
older ones.  So the settings that a server goes by are a record of several, which is called a
regime.  If the settings are applied to the end, the scans that are kept are dropped, and the regime
is whole.  Highlights are kept with the version of their document, and nothing drops them when the
settings change: they go by the settings that were in force when the document was last opened or
edited.  All this is shown for one event, with one lemma for each kind, and then for sessions.

Main definitions:

* `Regime` — the settings that a server goes by;
* `Regime.after`, `Regime.afterAll` — the regime after an event, and after a session;
* `Regime.whenTouched` — the regime when a document was last opened or edited;
* `Regime.diagnosticsOf` — the diagnostics of a buffer;
* `Server.allows`, `Server.serves` — sessions of one client in which documents are opened while they
  are closed;
* `Server.Upright` — the server goes by a regime, and so do the scans that it keeps;
* `Server.Noted` — the highlights that are kept of a buffer go by some settings;
* `Server.Advance`, `Server.Outcome` — what an event, and what a session, makes of a server.

Main results:

* `Regime.afterAll_eq_whole` — where settings were never applied in part, the regime is whole;
* `Server.Attending.hearAll_heard_eq` — what the listeners make of an open buffer;
* `Server.Upright.step` — **one event** keeps the invariant and the highlights of other documents;
* `Server.Upright.run` — **a session** does, and notes every document that it touches.
-/

import EmbeddedSql.Proofs.Server.History
import Mathlib.Data.List.DropRight

set_option relaxedAutoImplicit false
set_option autoImplicit false

namespace EmbeddedSql

/-! ### Settings in force -/

/-- Whether an event opens, edits or closes a document. -/
def Event.concerns (uri : String) : Event → Bool
  | .opened b => b.uri = uri
  | .changed other _ _ => other = uri
  | .closed other => other = uri
  | _ => false

/-- The settings that a server goes by. -/
structure Regime where
  /-- The latest settings. -/
  latest : Settings
  /-- The latest settings that were applied to the end. -/
  applied : Settings
  /-- The settings that a scan of a document may go by: those in force since the document was last
  opened, edited or closed, or since settings were last applied to the end. -/
  since : String → List Detection

namespace Regime

/-- Everything goes by the same settings. -/
def whole (settings : Settings) : Regime :=
  ⟨settings, settings, fun _ => [settings.detection]⟩

/-- New settings.  Without a region store for them they are not applied to the end. -/
def apply (r : Regime) (settings : Settings) : Regime :=
  match RegionStore.ofDetection settings.detection with
  | .ok _ => whole settings
  | .error _ =>
    { r with latest := settings, since := fun uri => settings.detection :: r.since uri }

/-- The regime after an event: overrides that can be used change the settings, and of a document
that is opened, edited or closed no older scan is kept. -/
def after (depth : Nat) (r : Regime) : Event → Regime
  | .override options =>
    match r.latest.override depth options with
    | .ok settings => r.apply settings
    | .error _ => r
  | e =>
    { r with
      since := fun uri => if e.concerns uri then [r.latest.detection] else r.since uri }

/-- The regime after the events of a session. -/
def afterAll (depth : Nat) (r : Regime) (es : List Event) : Regime :=
  es.foldl (after depth) r

/-- The regime when a document was last opened, edited or closed. -/
def whenTouched (depth : Nat) (r : Regime) (uri : String) (es : List Event) : Regime :=
  r.afterAll depth (es.rdropWhile fun e => !e.concerns uri)

/-- The diagnostics of a buffer, and the database after it was asked. -/
def diagnosticsOf (r : Regime) (depths : Depths) (database : Option Database) (b : Buffer) :
    List Diagnostic × Option Database :=
  let rs := Region.all r.latest.detection b.document
  if !r.applied.diagnostics.enabled || !b.isR then ([], database)
  else if r.applied.diagnostics.askDatabase then Diagnostic.ofRegions depths b database rs
  else ((Diagnostic.ofRegions depths b none rs).1, database)

variable {depth : Nat} {r : Regime} {e : Event}

theorem afterAll_concat (depth : Nat) (r : Regime) (es : List Event) (e : Event) :
    r.afterAll depth (es ++ [e]) = (r.afterAll depth es).after depth e := by
  simp [afterAll]

/-- An event that is not about the settings. -/
theorem after_of_not_override (depth : Nat) (he : ∀ options, e ≠ .override options) :
    r.after depth e = { r with
      since := fun uri => if e.concerns uri then [r.latest.detection] else r.since uri } := by
  cases e with
  | override options => exact absurd rfl (he options)
  | _ => rfl

/-- Opening, editing and closing a document leave the settings alone. -/
theorem ne_override_of_concerns {uri : String} (he : e.concerns uri = true) (options : Value) :
    e ≠ .override options := by
  rintro rfl
  cases he

theorem whenTouched_concat (depth : Nat) (r : Regime) (uri : String) (es : List Event) (e : Event) :
    (r.whenTouched depth uri (es ++ [e])).latest =
      if e.concerns uri then (r.afterAll depth es).latest
      else (r.whenTouched depth uri es).latest := by
  unfold whenTouched
  rw [List.rdropWhile_concat]
  cases he : e.concerns uri with
  | true => simp [afterAll_concat, after_of_not_override depth (ne_override_of_concerns he)]
  | false => simp

/-- Settings that are applied to the end make the regime whole, or leave it whole. -/
theorem after_eq_whole (hwhole : r = whole r.latest)
    (hlifetime : (r.after depth e).latest.detection.limits.cacheLifetime < Cache.lifetimeBound) :
    r.after depth e = whole (r.after depth e).latest := by
  by_cases he : ∃ options, e = .override options
  · obtain ⟨options, rfl⟩ := he
    simp only [after] at hlifetime ⊢
    cases hoverride : r.latest.override depth options with
    | error e => exact hwhole
    | ok settings =>
        simp only [hoverride, apply] at hlifetime ⊢
        cases hnew : RegionStore.ofDetection settings.detection with
        | ok store => rfl
        | error e =>
            rw [hnew] at hlifetime
            exact absurd hlifetime (Nat.not_lt.2 (RegionStore.ofDetection_eq_error_iff.1 hnew))
  · rw [after_of_not_override depth fun options heq => he ⟨options, heq⟩, hwhole]
    simp [whole]

/-- Where settings were never applied in part, the regime is whole. -/
theorem afterAll_eq_whole (hwhole : r = whole r.latest) {es : List Event}
    (hlifetimes : ∀ fs, fs <+: es →
      (r.afterAll depth fs).latest.detection.limits.cacheLifetime < Cache.lifetimeBound) :
    r.afterAll depth es = whole (r.afterAll depth es).latest := by
  induction es using List.reverseRecOn with
  | nil => exact hwhole
  | append_singleton es e ih =>
      have hlast := hlifetimes (es ++ [e]) (List.prefix_refl _)
      rw [afterAll_concat] at hlast ⊢
      exact after_eq_whole
        (ih fun fs hfs => hlifetimes fs (hfs.trans (List.prefix_append es [e]))) hlast

end Regime

namespace Server

variable {s : Server}

/-! ### Sessions -/

/-- Whether an event may happen now: there is one client, and it opens documents while they are
closed. -/
def allows (s : Server) : Event → Bool
  | .introduced _ => false
  | .listen _ => false
  | .shutdown => false
  | .opened b => (s.openBuffer? b.uri).isNone
  | _ => true

/-- Whether all events of a session may happen one after another. -/
def serves : Server → List Event → Bool
  | _, [] => true
  | s, e :: rest => s.allows e && serves (s.step e).2.2 rest

theorem run_append (s : Server) (es fs : List Event) :
    (s.run (es ++ fs)).2 = ((s.run es).2.run fs).2 := by
  induction es generalizing s with
  | nil => rfl
  | cons e es ih => exact ih (s.step e).2.2

theorem serves_append {es fs : List Event} (h : s.serves (es ++ fs) = true) :
    s.serves es = true ∧ (s.run es).2.serves fs = true := by
  induction es generalizing s with
  | nil => exact ⟨rfl, h⟩
  | cons e es ih =>
      obtain ⟨he, hes⟩ : s.allows e = true ∧ (s.step e).2.2.serves (es ++ fs) = true := by
        simpa [serves] using h
      obtain ⟨hserves, hrest⟩ := ih hes
      exact ⟨by simp [serves, he, hserves], hrest⟩

/-! ### The invariant -/

/-- The listeners besides the one of the regions. -/
def heard (s : Server) : List Listener :=
  (if .diagnostics ∈ s.features then [.diagnostics] else []) ++
    (if .highlighting ∈ s.features then [.highlights] else [])

/-- The server goes by a regime, and so do the scans that it keeps of the open documents. -/
structure Upright (s : Server) (r : Regime) : Prop where
  listeners : s.dispatch.members = .regions :: s.heard
  workspace : s.workspace.isSome = true
  settings : s.settings = r.latest
  applied : s.applied = r.applied
  detection : s.regions.detection = r.latest.detection
  regions : s.regions.Faithful r.since s.current
  since : ∀ uri, r.latest.detection ∈ r.since uri
  named : s.highlights.AllNamed

/-- The server with other things kept. -/
def keeping (s : Server) (regions : RegionStore) (highlights : HighlightStore)
    (diagnostics : DiagnosticStore) (database : Option Database) : Server :=
  { s with
    regions := regions, highlights := highlights, diagnostics := diagnostics,
    database := database }

/-- The diagnostics of a buffer as they are published under a regime. -/
def published (s : Server) (r : Regime) (b : Buffer) : List Message :=
  if .diagnostics ∈ s.features then
    [.diagnostics b.uri (some b.versionNumber) (r.diagnosticsOf s.depths s.database b).1]
  else []

/-! ### Listeners -/

theorem buffer_eq_error {uri : String} (hw : s.workspace.isSome = true)
    (hclosed : s.openBuffer? uri = none) : s.buffer uri = .error (fileError uri) := by
  obtain ⟨w, hworkspace⟩ := Option.isSome_iff_exists.1 hw
  have hget : w.get? uri = none := by simpa [openBuffer?, hworkspace] using hclosed
  simp [buffer, hworkspace, hget]

section

variable {r : Regime} {b : Buffer} {e : DocumentEvent}

theorem hearAll_append (e : DocumentEvent) (uri : String) (s : Server) (ls ks : List Listener) :
    hearAll e uri s (ls ++ ks) =
      ((hearAll e uri s ls).1 ++ (hearAll e uri (hearAll e uri s ls).2 ks).1,
        (hearAll e uri (hearAll e uri s ls).2 ks).2) := by
  induction ls generalizing s with
  | nil => rfl
  | cons l ls ih => simp [hearAll, ih]

/-- The listeners are being told about a buffer that is open now.  A scan that is kept of it goes by
the latest settings. -/
structure Attending (s : Server) (r : Regime) (b : Buffer) : Prop where
  workspace : s.workspace.isSome = true
  opened : s.openBuffer? b.uri = some b
  applied : s.applied = r.applied
  detection : s.regions.detection = r.latest.detection
  regions : s.regions.Faithful r.since s.current
  own : r.since b.uri = [r.latest.detection]

namespace Attending

/-- Other things may be kept. -/
theorem keeping (h : s.Attending r b) {regions : RegionStore}
    (hdetection : regions.detection = s.regions.detection)
    (hregions : regions.Faithful r.since s.current) (highlights : HighlightStore)
    (diagnostics : DiagnosticStore) (database : Option Database) :
    (s.keeping regions highlights diagnostics database).Attending r b :=
  ⟨h.workspace, h.opened, h.applied, hdetection.trans h.detection, hregions, h.own⟩

/-- A look-up leads to the diagnostics that the regime asks for. -/
theorem exists_diagnose_eq (h : s.Attending r b) :
    ∃ regions : RegionStore, regions.detection = s.regions.detection ∧
      regions.Faithful r.since s.current ∧
      DiagnosticStore.diagnose s.depths s.applied.diagnostics s.regions s.database s.now b =
        ((r.diagnosticsOf s.depths s.database b).1, regions,
          (r.diagnosticsOf s.depths s.database b).2) := by
  unfold DiagnosticStore.diagnose Regime.diagnosticsOf
  rw [h.applied]
  dsimp only
  split
  · exact ⟨s.regions, rfl, h.regions, rfl⟩
  · have hdoc : s.current b.document.uri = some b.document := current_uri h.opened
    have hown : r.since b.document.uri = [s.regions.detection] := h.own.trans (by rw [h.detection])
    obtain ⟨asked, regions, hlookup, hsame, hfaithful⟩ :=
      RegionStore.exists_lookup_eq_own h.regions hdoc hown s.now
    refine ⟨regions, hsame, hfaithful, ?_⟩
    simp only [RegionStore.regions, hlookup, Option.map_some, Option.getD_some, h.detection]
    split <;> rfl

theorem hear_diagnostics_eq (h : s.Attending r b) (he : e ≠ .closed) :
    ∃ regions diagnostics, regions.detection = s.regions.detection ∧
      regions.Faithful r.since s.current ∧
      s.hear e b.uri .diagnostics =
        ([.diagnostics b.uri (some b.versionNumber) (r.diagnosticsOf s.depths s.database b).1],
          s.keeping regions s.highlights diagnostics
            (r.diagnosticsOf s.depths s.database b).2) := by
  obtain ⟨regions, hsame, hfaithful, hdiagnose⟩ := h.exists_diagnose_eq
  refine ⟨regions, s.diagnostics.insert b.uri b.versionNumber
    (r.diagnosticsOf s.depths s.database b).1, hsame, hfaithful, ?_⟩
  have hrefresh : s.refreshDiagnostics b.uri =
      s.keeping regions s.highlights
        (s.diagnostics.insert b.uri b.versionNumber (r.diagnosticsOf s.depths s.database b).1)
        (r.diagnosticsOf s.depths s.database b).2 := by
    simp only [refreshDiagnostics, buffer_eq_ok h.opened, DiagnosticStore.refresh, hdiagnose]
    rfl
  have hw := h.workspace
  cases e with
  | closed => exact absurd rfl he
  | opened => simp [hear, hw, hrefresh, publish, Server.keeping, DiagnosticStore.get_insert]
  | changed => simp [hear, hw, hrefresh, publish, Server.keeping, DiagnosticStore.get_insert]

theorem hear_highlights_eq (h : s.Attending r b) (he : e ≠ .closed) :
    ∃ regions, regions.detection = s.regions.detection ∧ regions.Faithful r.since s.current ∧
      s.hear e b.uri .highlights =
        ([], s.keeping regions (s.highlights.noting r.latest.detection b) s.diagnostics
          s.database) := by
  have hhear : s.hear e b.uri .highlights = ([], s.refreshHighlights b.uri) := by
    cases e with
    | closed => exact absurd rfl he
    | opened => rfl
    | changed => rfl
  rw [hhear, refreshHighlights, buffer_eq_ok h.opened]
  cases hR : b.isR with
  | false =>
      exact ⟨s.regions, rfl, h.regions, by simp [HighlightStore.noting, hR, Server.keeping]⟩
  | true =>
      have hmem : s.regions.detection ∈ r.since b.uri := by simp [h.own, h.detection]
      obtain ⟨d, hd, regions, hsame, hfaithful, hnoting⟩ :=
        s.highlights.exists_parse_snd_eq h.regions (current_uri h.opened) hmem hR s.now
      obtain rfl : d = r.latest.detection := by simpa [h.own] using hd
      refine ⟨regions, hsame, hfaithful, ?_⟩
      simp [hR, hnoting, Server.keeping]

/-- The listeners are told of an open buffer. -/
theorem hearAll_heard_eq (h : s.Attending r b) (he : e ≠ .closed) :
    ∃ regions diagnostics database, regions.detection = s.regions.detection ∧
      regions.Faithful r.since s.current ∧
      hearAll e b.uri s s.heard =
        (s.published r b, s.keeping regions
          (if .highlighting ∈ s.features then s.highlights.noting r.latest.detection b
            else s.highlights) diagnostics database) := by
  -- the listener of the diagnostics, if there is one, comes first
  obtain ⟨regions, diagnostics, database, hdetection, hregions, hfirst⟩ :
      ∃ regions diagnostics database, regions.detection = s.regions.detection ∧
        regions.Faithful r.since s.current ∧
        hearAll e b.uri s (if .diagnostics ∈ s.features then [.diagnostics] else []) =
          (s.published r b, s.keeping regions s.highlights diagnostics database) := by
    by_cases hon : .diagnostics ∈ s.features
    · obtain ⟨regions, diagnostics, hsame, hfaithful, hhear⟩ := h.hear_diagnostics_eq he
      exact ⟨regions, diagnostics, (r.diagnosticsOf s.depths s.database b).2, hsame, hfaithful,
        by simp [hearAll, hon, hhear, published]⟩
    · exact ⟨s.regions, s.diagnostics, s.database, rfl, h.regions,
        by simp [hearAll, hon, published, Server.keeping]⟩
  rw [heard, hearAll_append, hfirst]
  by_cases hon : .highlighting ∈ s.features
  · obtain ⟨regions', hsame, hfaithful, hhear⟩ :=
      (h.keeping hdetection hregions s.highlights diagnostics database).hear_highlights_eq he
    refine ⟨regions', diagnostics, database, hsame.trans hdetection, hfaithful, ?_⟩
    simp only [hearAll, hon, if_true, hhear, List.append_nil]
    rfl
  · exact ⟨regions, diagnostics, database, hdetection, hregions, by simp [hearAll, hon]⟩

end Attending

end

/-- The listeners are told of a document that is not open. -/
theorem hearAll_changed_in_vain {uri : String} (hw : s.workspace.isSome = true)
    (hclosed : s.openBuffer? uri = none) :
    ∃ diagnostics, (hearAll .changed uri s s.heard).2 = { s with diagnostics := diagnostics } := by
  have hbuffer := buffer_eq_error hw hclosed
  by_cases hdiagnostics : .diagnostics ∈ s.features
  · refine ⟨s.diagnostics.insert uri 0 [], ?_⟩
    have hbuffer' : ({ s with diagnostics := s.diagnostics.insert uri 0 [] } : Server).buffer uri =
        .error (fileError uri) := hbuffer
    by_cases hon : .highlighting ∈ s.features
    · simp [heard, hdiagnostics, hon, hearAll, hear, hw, refreshDiagnostics, hbuffer,
        refreshHighlights, hbuffer']
    · simp [heard, hdiagnostics, hon, hearAll, hear, hw, refreshDiagnostics, hbuffer]
  · refine ⟨s.diagnostics, ?_⟩
    by_cases hon : .highlighting ∈ s.features
    · simp [heard, hdiagnostics, hon, hearAll, hear, refreshHighlights, hbuffer]
    · simp [heard, hdiagnostics, hon, hearAll]

/-- The listeners are told of a document that was closed. -/
theorem hearAll_closed_eq (s : Server) (uri : String) :
    ∃ diagnostics, (hearAll .closed uri s s.heard).2 =
      { s with
        diagnostics := diagnostics
        highlights :=
          if .highlighting ∈ s.features then s.highlights.forget uri else s.highlights } := by
  by_cases hdiagnostics : .diagnostics ∈ s.features
  · refine ⟨s.diagnostics.forget uri, ?_⟩
    by_cases hon : .highlighting ∈ s.features
    · simp [heard, hdiagnostics, hon, hearAll, hear]
    · simp [heard, hdiagnostics, hon, hearAll, hear]
  · refine ⟨s.diagnostics, ?_⟩
    by_cases hon : .highlighting ∈ s.features
    · simp [heard, hdiagnostics, hon, hearAll, hear]
    · simp [heard, hdiagnostics, hon, hearAll]

/-! ### Requests -/

/-- Overrides that cannot be used leave the server as it is. -/
theorem step_override_of_error {options : Value} {e : Settings.Error}
    (h : s.settings.override s.depths.display options = .error e) :
    (s.step (.override options)).2.2 = s := by
  simp only [step, override, h]
  cases e <;> rfl

theorem step_override_snd (s : Server) (options : Value) :
    (s.step (.override options)).2.2 = (s.override options).2 := by
  rw [Server.step]
  rcases s.override options with ⟨_ | _, s'⟩
  · rfl
  · rfl

/-- What settings that can be used make of the server. -/
theorem step_override_of_ok {options : Value} {settings : Settings}
    (hoverride : s.settings.override s.depths.display options = .ok settings) :
    (∀ store, RegionStore.ofDetection settings.detection = .ok store →
      (s.step (.override options)).1 = .nothing ∧ (s.step (.override options)).2.2 =
        { s with settings := settings, applied := settings, regions := store }) ∧
    ∀ e, RegionStore.ofDetection settings.detection = .error e →
      (s.step (.override options)).1 = .failed (.halfway e) ∧
        (s.step (.override options)).2.2 = { s with
          settings := settings
          regions := { s.regions with detection := settings.detection } } := by
  constructor
  · intro store hstore
    simp [Server.step, override, hoverride, apply, RegionStore.configure, hstore]
  · intro e he
    simp [Server.step, override, hoverride, apply, RegionStore.configure, he]

/-- Suggestions may need the database, and nothing else. -/
theorem exists_step_complete_eq (s : Server) (uri : String) (p : Position) :
    ∃ database, (s.step (.complete uri p)).2.2 = { s with database := database } := by
  simp only [step, answerComplete]
  split
  · split
    · exact ⟨s.database, rfl⟩
    · exact ⟨_, rfl⟩
  · exact ⟨s.database, rfl⟩

/-- The answer to the format command, and what the client is sent. -/
def formatted (uri : String) : Except Formatting.Error (Option Edit) → Answer × List Message
  | .error e => (.nothing, [.notice .warning e.message])
  | .ok none => (.nothing, [])
  | .ok (some e) =>
    (.edited uri e, [.applyEdit editLabel uri e, .notice .information editNotice])

theorem exists_formatBuffer_eq (s : Server) (b : Buffer) (p : Position) :
    ∃ printed, s.formatBuffer b p =
      ((formatted b.uri
          (Formatting.edit s.printer s.applied.formatting s.applied.detection b p).1).1,
        (formatted b.uri
          (Formatting.edit s.printer s.applied.formatting s.applied.detection b p).1).2,
        { s with printed := printed }) := by
  unfold formatBuffer
  dsimp only
  rcases Formatting.edit s.printer s.applied.formatting s.applied.detection b p with
    ⟨_ | _ | e, printed⟩
  · exact ⟨_, rfl⟩
  · exact ⟨_, rfl⟩
  · exact ⟨_, rfl⟩

/-- The format command leaves a trace of what was printed, and nothing else. -/
theorem exists_step_format_eq (s : Server) (arguments : Value) :
    ∃ printed, (s.step (.format arguments)).2.2 = { s with printed := printed } := by
  simp only [step, answerFormat]
  split
  · split
    · exact ⟨s.printed, rfl⟩
    · split
      · exact ⟨s.printed, rfl⟩
      · next b _ =>
          obtain ⟨printed, hformat⟩ := s.exists_formatBuffer_eq b _
          exact ⟨printed, by rw [hformat]⟩
  · exact ⟨s.printed, rfl⟩

/-! ### Documents -/

/-- The server after a buffer was opened or edited. -/
structure Showing (s : Server) (r : Regime) (b : Buffer) (s' : Server) (r' : Regime) : Prop where
  upright : Upright s' r'
  depths : s'.depths = s.depths
  features : s'.features = s.features
  opened : s'.openBuffer? b.uri = some b
  others : ∀ other, other ≠ b.uri → s'.openBuffer? other = s.openBuffer? other
  highlights : s'.highlights =
    if .highlighting ∈ s.features then s.highlights.noting r.latest.detection b
    else s.highlights

/-- The highlights that are kept of a buffer go by some settings. -/
def Noted (s : Server) (d : Detection) (b : Buffer) : Prop :=
  .highlighting ∈ s.features → b.isR = true → b.uri.isEmpty = false →
    s.highlights.entries.get? b.uri = some (b.versionNumber, Highlight.ofDocument d b.document)

/-- What an event makes of a server. -/
structure Advance (s : Server) (r : Regime) (e : Event) (s' : Server) : Prop where
  upright : Upright s' (r.after s.depths.display e)
  depths : s'.depths = s.depths
  features : s'.features = s.features
  /-- Other documents stay open, or closed. -/
  others : ∀ uri, e.concerns uri = false → s'.openBuffer? uri = s.openBuffer? uri
  /-- Their highlights go by the settings that they went by. -/
  kept : ∀ b d, e.concerns b.uri = false → s.openBuffer? b.uri = some b → s.Noted d b →
    s'.Noted d b
  /-- Those of a document that was opened or edited go by the latest settings. -/
  noted : ∀ b, e.concerns b.uri = true → s'.openBuffer? b.uri = some b →
    s'.Noted r.latest.detection b

/-- What a session makes of a server. -/
structure Outcome (s : Server) (r : Regime) (es : List Event) (s' : Server) : Prop where
  upright : Upright s' (r.afterAll s.depths.display es)
  depths : s'.depths = s.depths
  features : s'.features = s.features
  /-- Highlights of an open document go by the settings of the last event about it. -/
  noted : ∀ b, s'.openBuffer? b.uri = some b →
    s'.Noted (r.whenTouched s.depths.display b.uri es).latest.detection b

section

variable {r r' : Regime} {b : Buffer}

theorem Showing.noted {s' : Server} (h : Showing s r b s' r') : s'.Noted r.latest.detection b := by
  intro hon hR hname
  rw [h.features] at hon
  simp [h.highlights, hon, HighlightStore.get?_noting, hR, hname]

theorem Showing.advance {e : Event} {s' : Server}
    (h : Showing s r b s' (r.after s.depths.display e))
    (he : ∀ uri, e.concerns uri = true ↔ uri = b.uri) : Advance s r e s' := by
  have hne : ∀ uri, e.concerns uri = false → uri ≠ b.uri := by
    intro uri huri heq
    rw [(he uri).2 heq] at huri
    simp at huri
  refine ⟨h.upright, h.depths, h.features, fun uri huri => h.others uri (hne uri huri), ?_, ?_⟩
  · intro x d hx _ hnoted hon hR hname
    rw [h.features] at hon
    rw [h.highlights, if_pos hon, HighlightStore.get?_noting,
      if_neg fun hand => hne x.uri hx hand.2]
    exact hnoted hon hR hname
  · intro x hx hopen
    rw [(he x.uri).1 hx, h.opened] at hopen
    obtain rfl := Option.some.inj hopen
    exact h.noted

end

/-- All listeners but the one of the regions hear of every event. -/
theorem filter_heard (s : Server) (e : DocumentEvent) :
    s.heard.filter (fun l => (reaction e l).isSome) = s.heard := by
  rw [List.filter_eq_self]
  intro l hl
  have hcases : l = .diagnostics ∨ l = .highlights := by
    unfold heard at hl
    split at hl <;> split at hl <;> simp_all
  rcases hcases with rfl | rfl <;> rfl

namespace Upright

variable {r : Regime} {b : Buffer}

/-- Settings are listed for a document that an event is about. -/
theorem mem_since (h : Upright s r) (depth : Nat) {e : Event}
    (he : ∀ options, e ≠ .override options) (uri : String) :
    (r.after depth e).latest.detection ∈ (r.after depth e).since uri := by
  rw [Regime.after_of_not_override _ he]
  dsimp only
  split
  · exact List.mem_cons_self
  · exact h.since uri

/-- The listeners are told of a buffer that is open now. -/
theorem hearAll (h : Upright s r) {e : DocumentEvent} (he : e ≠ .closed) {event : Event}
    (hevent : ∀ uri, event.concerns uri = true ↔ uri = b.uri) {w : Workspace}
    (hb : w.get? b.uri = some b)
    (hsame : ∀ other, other ≠ b.uri → w.get? other = s.openBuffer? other)
    {regions : RegionStore} (hdetection : regions.detection = s.regions.detection)
    (hregions : regions.Faithful (r.after s.depths.display event).since
      ({ s with workspace := some w } : Server).current) :
    ∃ s', Server.hearAll e b.uri { s with workspace := some w, regions := regions } s.heard =
        (s.published r b, s') ∧ Showing s r b s' (r.after s.depths.display event) := by
  have hconcerns : event.concerns b.uri = true := (hevent b.uri).2 rfl
  have hother := Regime.ne_override_of_concerns hconcerns
  have hafter := Regime.after_of_not_override (r := r) s.depths.display hother
  have hattending : ({ s with workspace := some w, regions := regions } : Server).Attending
      (r.after s.depths.display event) b := by
    rw [hafter] at hregions ⊢
    exact ⟨rfl, hb, h.applied, hdetection.trans h.detection, hregions, if_pos hconcerns⟩
  obtain ⟨regions', diagnostics, database, hdetection', hregions', hall⟩ :=
    hattending.hearAll_heard_eq he
  have hsince := h.mem_since s.depths.display hother
  rw [hafter] at hall hregions' hsince ⊢
  refine ⟨_, hall, ⟨⟨h.listeners, rfl, h.settings, h.applied,
    (hdetection'.trans hdetection).trans h.detection, hregions', hsince, ?_⟩, rfl, rfl, hb, hsame,
    rfl⟩⟩
  dsimp only [keeping]
  split
  · exact h.named.noting r.latest.detection b
  · exact h.named

/-- A document is opened. -/
theorem step_opened (h : Upright s r) (hclosed : s.openBuffer? b.uri = none) {path : String}
    (hname : Path.ofUri b.uri = .ok path) :
    (s.step (.opened b)).2.1 = s.published r b ∧
      Showing s r b (s.step (.opened b)).2.2 (r.after s.depths.display (.opened b)) := by
  obtain ⟨w, hw⟩ := Option.isSome_iff_exists.1 h.workspace
  have hb : (w.put b).get? b.uri = some b := by simp [Workspace.get?_put]
  have hsame : ∀ other, other ≠ b.uri → (w.put b).get? other = s.openBuffer? other := by
    intro other hne
    simp [Workspace.get?_put, hne, openBuffer?, hw]
  have hevent : ∀ uri, Event.concerns uri (.opened b) = true ↔ uri = b.uri := fun uri => by
    simp [Event.concerns, eq_comm]
  -- no scan is kept of a closed document
  have hregions : s.regions.Faithful (r.after s.depths.display (.opened b)).since
      ({ s with workspace := some (w.put b) } : Server).current := by
    intro uri entry hentry
    obtain ⟨doc, hdoc, d, hd, hcontent⟩ := h.regions uri entry hentry
    have hne : uri ≠ b.uri := by
      rintro rfl
      simp [current, hclosed] at hdoc
    refine ⟨doc, ?_, d, ?_, hcontent⟩
    · rw [← hdoc]
      exact congrArg (Option.map Buffer.document) (hsame uri hne)
    · simpa [Regime.after, (hevent uri).not.2 hne] using hd
  obtain ⟨s', hall, hshowing⟩ := h.hearAll (e := .opened) (by simp) hevent hb hsame rfl hregions
  have hnotify : ({ s with workspace := some (w.put b) } : Server).notify .opened b.uri =
      (s.published r b, s') := by
    rw [notify_eq, h.listeners, List.filter_cons_of_neg (by simp [reaction]), filter_heard]
    exact hall
  have hstep : s.step (.opened b) = (.nothing, s.published r b, s') := by
    simp [step, openDocument, documentEvent, announce, hw, hname, hnotify]
  rw [hstep]
  exact ⟨rfl, hshowing⟩

/-- An open document is edited. -/
theorem step_changed (h : Upright s r) {uri : String} (hopen : s.openBuffer? uri = some b)
    (version : Option Int) (changes : List Buffer.Change) :
    (s.step (.changed uri version changes)).2.1 = s.published r (b.edited version changes) ∧
      Showing s r (b.edited version changes) (s.step (.changed uri version changes)).2.2
        (r.after s.depths.display (.changed uri version changes)) := by
  obtain ⟨w, hstep, hb, hsame⟩ := exists_step_changed_eq hopen version changes
  obtain rfl := uri_of_openBuffer? hopen
  rw [← b.uri_edited version changes] at hb hsame
  have hevent : ∀ uri, Event.concerns uri (.changed b.uri version changes) = true ↔
      uri = (b.edited version changes).uri := fun uri => by simp [Event.concerns, eq_comm]
  have hregions : (s.regions.forget (b.edited version changes).uri).Faithful
      (r.after s.depths.display (.changed b.uri version changes)).since
      ({ s with workspace := some w } : Server).current := by
    refine h.regions.forget fun other hne => ⟨?_, ?_⟩
    · exact congrArg (Option.map Buffer.document) (hsame other hne)
    · simp [Regime.after, (hevent other).not.2 hne]
  have hdetection : (s.regions.forget (b.edited version changes).uri).detection =
      s.regions.detection := rfl
  obtain ⟨s', hall, hshowing⟩ :=
    h.hearAll (e := .changed) (by simp) hevent hb hsame hdetection hregions
  have hnotify : ({ s with workspace := some w } : Server).notify .changed b.uri =
      (s.published r (b.edited version changes), s') := by
    rw [notify_eq, h.listeners, List.filter_cons_of_pos (by simp [reaction]), filter_heard]
    rw [b.uri_edited] at hall
    simp [Server.hearAll, hear, hall]
  rw [hstep, announce, hnotify]
  exact ⟨rfl, hshowing⟩

/-- An event about a document that is not open is about nothing that is. -/
theorem never_of_closed {e : Event} {uri : String} (hclosed : s.openBuffer? uri = none)
    (he : ∀ other, e.concerns other = decide (uri = other)) (other : String) :
    e.concerns other = false ∨ s.openBuffer? other = none := by
  by_cases heq : uri = other
  · exact Or.inr (heq ▸ hclosed)
  · exact Or.inl (by simp [he, heq])

/-- An event that is not about the settings changes what is kept, if anything. -/
theorem advance_keeping (h : Upright s r) {e : Event} (he : ∀ options, e ≠ .override options)
    (hnever : ∀ uri, e.concerns uri = false ∨ s.openBuffer? uri = none)
    {regions : RegionStore} (hdetection : regions.detection = s.regions.detection)
    (hregions : regions.Faithful r.since s.current) {highlights : HighlightStore}
    (hnamed : highlights.AllNamed)
    (hkept : ∀ b kept, s.openBuffer? b.uri = some b →
      s.highlights.entries.get? b.uri = some (b.versionNumber, kept) →
      highlights.entries.get? b.uri = some (b.versionNumber, kept))
    (diagnostics : DiagnosticStore) (database : Option Database) (now : Real)
    (printed : List (FormatOptions × Text)) :
    Advance s r e { s.keeping regions highlights diagnostics database with
      now := now, printed := printed } := by
  have hsince := h.mem_since s.depths.display he
  have hafter := Regime.after_of_not_override (r := r) s.depths.display he
  have hregions' : regions.Faithful (r.after s.depths.display e).since s.current := by
    refine hregions.relist fun uri => ?_
    rcases hnever uri with hother | hclosed
    · exact Or.inr (by simp [hafter, hother])
    · exact Or.inl (by simp [current, hclosed])
  rw [hafter] at hregions' hsince
  refine ⟨?_, rfl, rfl, fun _ _ => rfl, ?_, ?_⟩
  · rw [hafter]
    exact ⟨h.listeners, h.workspace, h.settings, h.applied, hdetection.trans h.detection, hregions',
      hsince, hnamed⟩
  · intro b d _ hopen hnoted hon hR hname
    exact hkept b _ hopen (hnoted hon hR hname)
  · intro b hb hopen
    have hopen : s.openBuffer? b.uri = some b := hopen
    rcases hnever b.uri with hother | hclosed
    · simp [hother] at hb
    · simp [hclosed] at hopen

/-- Events about nothing that is open may leave the server alone. -/
theorem advance_self (h : Upright s r) {e : Event} (he : ∀ options, e ≠ .override options)
    (hnever : ∀ uri, e.concerns uri = false ∨ s.openBuffer? uri = none) : Advance s r e s :=
  h.advance_keeping he hnever rfl h.regions h.named (fun _ _ _ hentry => hentry)
    s.diagnostics s.database s.now s.printed

/-- A document that is not open may be edited in vain. -/
theorem advance_changed (h : Upright s r) {uri : String} (hclosed : s.openBuffer? uri = none)
    (version : Option Int) (changes : List Buffer.Change) :
    Advance s r (.changed uri version changes) (s.step (.changed uri version changes)).2.2 := by
  obtain ⟨w, hw⟩ := Option.isSome_iff_exists.1 h.workspace
  have hget : w.get? uri = none := by simpa [openBuffer?, hw] using hclosed
  have hnever := never_of_closed (e := .changed uri version changes) hclosed fun _ => rfl
  by_cases hnil : changes.isEmpty = true
  · obtain ⟨diagnostics, hall⟩ := hearAll_changed_in_vain
      (s := { s with regions := s.regions.forget uri }) h.workspace hclosed
    have hstep : (s.step (.changed uri version changes)).2.2 =
        s.keeping (s.regions.forget uri) s.highlights diagnostics s.database := by
      simp only [Server.step, changeDocument, hnil, if_true, announce]
      rw [notify_eq, h.listeners, List.filter_cons_of_pos (by simp [reaction]), filter_heard]
      exact hall
    have hdetection : (s.regions.forget uri).detection = s.regions.detection := rfl
    rw [hstep]
    exact h.advance_keeping (by simp) hnever hdetection
      (h.regions.forget fun _ _ => ⟨rfl, rfl⟩) h.named (fun _ _ _ hentry => hentry) diagnostics
      s.database s.now s.printed
  · have hstep : (s.step (.changed uri version changes)).2.2 = s := by
      simp [Server.step, changeDocument, hnil, documentEvent, hw, Workspace.change, hget]
    rw [hstep]
    exact h.advance_self (by simp) hnever

/-- A document is closed. -/
theorem advance_closed (h : Upright s r) (uri : String) :
    Advance s r (.closed uri) (s.step (.closed uri)).2.2 := by
  obtain ⟨w, hw⟩ := Option.isSome_iff_exists.1 h.workspace
  have hsame : ∀ other, other ≠ uri → (w.remove uri).get? other = s.openBuffer? other := by
    intro other hne
    simp [Workspace.get?_remove, hne, openBuffer?, hw]
  obtain ⟨diagnostics, hall⟩ := hearAll_closed_eq
    { s with workspace := some (w.remove uri), regions := s.regions.forget uri } uri
  have hstep : (s.step (.closed uri)).2.2 =
      { s with
        workspace := some (w.remove uri)
        regions := s.regions.forget uri
        diagnostics := diagnostics
        highlights :=
          if .highlighting ∈ s.features then s.highlights.forget uri else s.highlights } := by
    simp only [Server.step, documentEvent, hw, announce]
    rw [notify_eq, h.listeners, List.filter_cons_of_pos (by simp [reaction]), filter_heard]
    exact hall
  rw [hstep]
  have hne : ∀ other, Event.concerns other (.closed uri) = false → other ≠ uri := by
    rintro other hother rfl
    simp [Event.concerns] at hother
  refine ⟨⟨h.listeners, rfl, h.settings, h.applied, h.detection, ?_,
    h.mem_since s.depths.display (by simp), ?_⟩, rfl, rfl, ?_, ?_, ?_⟩
  · refine h.regions.forget fun other hother => ⟨?_, ?_⟩
    · exact congrArg (Option.map Buffer.document) (hsame other hother)
    · simp [Regime.after, Event.concerns, Ne.symm hother]
  · dsimp only
    split
    · exact h.named.forget uri
    · exact h.named
  · exact fun other hother => hsame other (hne other hother)
  · intro b d hb _ hnoted hon hR hname
    have hon' : .highlighting ∈ s.features := hon
    rw [if_pos hon', HighlightStore.forget, Named.get?_erase, if_neg (hne b.uri hb)]
    exact hnoted hon' hR hname
  · intro b hb hopen
    obtain rfl : uri = b.uri := by simpa [Event.concerns] using hb
    simp [openBuffer?, Workspace.get?_remove] at hopen

/-! ### Events -/

/-- Highlights are asked for.  Those of the version of an open document stay as they are. -/
theorem advance_highlights (h : Upright s r) (uri : String) (range : Option Range) :
    Advance s r (.highlights uri range) (s.step (.highlights uri range)).2.2 := by
  have hself : Advance s r (.highlights uri range) s := h.advance_self (by simp) fun _ => .inl rfl
  simp only [Server.step, answerHighlights]
  split
  · cases hopen : s.openBuffer? uri with
    | none => simpa [buffer_eq_error h.workspace hopen] using hself
    | some b =>
        obtain rfl := uri_of_openBuffer? hopen
        have hmem : s.regions.detection ∈ r.since b.uri := by
          rw [h.detection]
          exact h.since b.uri
        obtain ⟨d, regions, highlights, hdetection, hregions, hrequest, hcases⟩ :=
          s.highlights.exists_request_snd_eq h.regions (current_uri hopen) hmem s.now range
        simp only [buffer_eq_ok hopen, hrequest]
        refine h.advance_keeping (by simp) (fun _ => .inl rfl) hdetection hregions ?_ ?_
          s.diagnostics s.database s.now s.printed
        · rcases hcases with rfl | ⟨rfl, -⟩
          · exact h.named
          · exact h.named.noting d b
        · intro x kept hx hentry
          rcases hcases with rfl | ⟨rfl, hmissing⟩
          · exact hentry
          · rw [HighlightStore.get?_noting, if_neg, hentry]
            rintro ⟨-, heq⟩
            rw [heq, hopen] at hx
            obtain rfl := Option.some.inj hx
            exact hmissing kept hentry
  · exact hself

/-- What a request for the regions of an open document is answered. -/
theorem exists_answerRegions_eq (h : Upright s r) (hopen : s.openBuffer? b.uri = some b) :
    ∃ d ∈ r.since b.uri, ∃ regions : RegionStore, regions.detection = s.regions.detection ∧
      regions.Faithful r.since s.current ∧
      s.answerRegions b.uri =
        (.regions (Region.all d b.document), [], { s with regions := regions }) := by
  have hdoc : s.current b.document.uri = some b.document := current_uri hopen
  have hmem : s.regions.detection ∈ r.since b.document.uri := by
    rw [h.detection]
    exact h.since b.uri
  obtain ⟨d, hd, asked, regions, hlookup, hdetection, hregions⟩ :=
    RegionStore.exists_lookup_eq h.regions hdoc hmem s.now
  refine ⟨d, hd, regions, hdetection, hregions, ?_⟩
  simp only [answerRegions, buffer_eq_ok hopen, RegionStore.regions, hlookup]
  rfl

/-- Regions are asked for. -/
theorem advance_regions (h : Upright s r) (uri : String) :
    Advance s r (.regions uri) (s.step (.regions uri)).2.2 := by
  cases hopen : s.openBuffer? uri with
  | none =>
      have hstep : (s.step (.regions uri)).2.2 = s := by
        simp [Server.step, answerRegions, buffer_eq_error h.workspace hopen]
      rw [hstep]
      exact h.advance_self (by simp) fun _ => .inl rfl
  | some b =>
      obtain rfl := uri_of_openBuffer? hopen
      obtain ⟨d, -, regions, hdetection, hregions, hanswer⟩ := h.exists_answerRegions_eq hopen
      rw [Server.step, hanswer]
      exact h.advance_keeping (by simp) (fun _ => .inl rfl) hdetection hregions h.named
        (fun _ _ _ hentry => hentry) s.diagnostics s.database s.now s.printed

/-- Settings are overridden.  If they are applied to the end, the scans that are kept are dropped;
the highlights never are. -/
theorem advance_override (h : Upright s r) (options : Value) :
    Advance s r (.override options) (s.step (.override options)).2.2 := by
  cases hoverride : s.settings.override s.depths.display options with
  | error e =>
      have hafter : r.after s.depths.display (.override options) = r := by
        simp [Regime.after, ← h.settings, hoverride]
      rw [step_override_of_error hoverride]
      refine ⟨?_, rfl, rfl, fun _ _ => rfl, fun _ _ _ _ hnoted => hnoted,
        fun _ hb => absurd hb Bool.false_ne_true⟩
      rw [hafter]
      exact h
  | ok settings =>
      obtain ⟨hwhole, hpart⟩ := step_override_of_ok hoverride
      have hafter : r.after s.depths.display (.override options) = r.apply settings := by
        simp [Regime.after, ← h.settings, hoverride]
      cases hstore : RegionStore.ofDetection settings.detection with
      | ok store =>
          rw [(hwhole store hstore).2]
          refine ⟨?_, rfl, rfl, fun _ _ => rfl, fun _ _ _ _ hnoted => hnoted,
            fun _ hb => absurd hb Bool.false_ne_true⟩
          rw [hafter, Regime.apply, hstore]
          exact ⟨h.listeners, h.workspace, rfl, rfl, RegionStore.detection_of_ofDetection hstore,
            RegionStore.faithful_of_ofDetection hstore, fun _ => List.mem_cons_self, h.named⟩
      | error e =>
          rw [(hpart e hstore).2]
          refine ⟨?_, rfl, rfl, fun _ _ => rfl, fun _ _ _ _ hnoted => hnoted,
            fun _ hb => absurd hb Bool.false_ne_true⟩
          rw [hafter, Regime.apply, hstore]
          -- the scans that are kept are older, so one more setting is listed for every document
          exact ⟨h.listeners, h.workspace, rfl, h.applied, rfl,
            h.regions.mono fun _ _ hd => List.mem_cons_of_mem _ hd, fun _ => List.mem_cons_self,
            h.named⟩

/-- **One event** of a session. -/
theorem step (h : Upright s r) {e : Event} (he : s.allows e = true) :
    Advance s r e (s.step e).2.2 := by
  cases e with
  | introduced options => simp [allows] at he
  | listen host => simp [allows] at he
  | shutdown => simp [allows] at he
  | opened b =>
      have hclosed : s.openBuffer? b.uri = none := by simpa [allows] using he
      cases hname : Path.ofUri b.uri with
      | ok path =>
          exact (h.step_opened hclosed hname).2.advance fun uri => by
            simp [Event.concerns, eq_comm]
      | error err =>
          have hstep : (s.step (.opened b)).2.2 = s := by
            simp [Server.step, openDocument, h.workspace, hname]
          rw [hstep]
          exact h.advance_self (by simp) (never_of_closed hclosed fun _ => rfl)
  | changed uri version changes =>
      cases hopen : s.openBuffer? uri with
      | none => exact h.advance_changed hopen version changes
      | some b =>
          obtain rfl := uri_of_openBuffer? hopen
          exact (h.step_changed hopen version changes).2.advance fun uri => by
            simp [Event.concerns, eq_comm]
  | closed uri => exact h.advance_closed uri
  | highlights uri range => exact h.advance_highlights uri range
  | regions uri => exact h.advance_regions uri
  | override options => exact h.advance_override options
  | complete uri p =>
      obtain ⟨database, hstep⟩ := exists_step_complete_eq s uri p
      rw [hstep]
      exact h.advance_keeping (by simp) (fun _ => .inl rfl) rfl h.regions h.named
        (fun _ _ _ hentry => hentry) s.diagnostics database s.now s.printed
  | format arguments =>
      obtain ⟨printed, hstep⟩ := exists_step_format_eq s arguments
      rw [hstep]
      exact h.advance_keeping (by simp) (fun _ => .inl rfl) rfl h.regions h.named
        (fun _ _ _ hentry => hentry) s.diagnostics s.database s.now printed
  | clock now =>
      exact h.advance_keeping (by simp) (fun _ => .inl rfl) rfl h.regions h.named
        (fun _ _ _ hentry => hentry) s.diagnostics s.database now s.printed
  | source uri =>
      have hstep : (s.step (.source uri)).2.2 = s := by
        simp only [Server.step]
        split <;> rfl
      rw [hstep]
      exact h.advance_self (by simp) fun _ => .inl rfl
  | ready => exact h.advance_self (by simp) fun _ => .inl rfl
  | diagnostics uri => exact h.advance_self (by simp) fun _ => .inl rfl
  | settings => exact h.advance_self (by simp) fun _ => .inl rfl
  | status => exact h.advance_self (by simp) fun _ => .inl rfl
  | exit => exact h.advance_self (by simp) fun _ => .inl rfl

/-- **A session.**  Documents that are open were opened in it. -/
theorem run (h : Upright s r) (hnew : ∀ uri, s.openBuffer? uri = none) {es : List Event}
    (hes : s.serves es = true) : Outcome s r es (s.run es).2 := by
  induction es using List.reverseRecOn with
  | nil => exact ⟨h, rfl, rfl, fun b hb => by simp [Server.run, hnew b.uri] at hb⟩
  | append_singleton es e ih =>
      obtain ⟨hbefore, hlast⟩ := serves_append hes
      have before := ih hbefore
      have after := before.upright.step (e := e) (by simpa [serves] using hlast)
      have hupright := after.upright
      rw [before.depths, ← Regime.afterAll_concat] at hupright
      rw [run_append]
      refine ⟨hupright, after.depths.trans before.depths, after.features.trans before.features, ?_⟩
      intro b hb
      rw [Regime.whenTouched_concat]
      cases hconcerns : e.concerns b.uri with
      | true => exact after.noted b hconcerns hb
      | false =>
          -- the document was open before, and what is kept of it stays
          have hopen := (after.others b.uri hconcerns).symm.trans hb
          exact after.kept b _ hconcerns hopen (before.noted b hopen)

end Upright

end Server

end EmbeddedSql
