/-
**Settings that change during a session.**

Completion and the regions that are found go by the latest settings that a client could override, as
if the server had been set up with them.  Formatting and the options of the checks do too, unless
the latest settings have a lifetime that is no double: then the server fails in between, and they go
by the settings that were applied to the end last, and so may the scans of documents that nobody has
edited since.  Highlights go by the settings that were in force when their document was last opened
or edited, until it is edited again, even if all settings were applied to the end.  Which features
there are is decided at the setup, and no override adds or removes one.

Main definitions:

* `Server.introduced` — a server that a client has just introduced itself to;
* `Regime.introduced` — the settings that it goes by;
* `Server.Obeys` — what the server answers and publishes goes by a regime;
* `Server.Follows` — which settings a server goes by after some events.

Main results:

* `Server.Upright.obeys` — a server obeys the regime in force;
* `Server.settings_take_effect` — **after any session** the server goes by the latest settings, or
  those of them that were applied, and in its highlights by those at the last opening or edit of the
  document.
-/

import EmbeddedSql.Proofs.Server.Upright

set_option relaxedAutoImplicit false
set_option autoImplicit false

namespace EmbeddedSql

namespace Regime

/-- The settings that a server goes by when a client has introduced itself. -/
def introduced (depth : Nat) (settings : Settings) (options : Value) : Regime :=
  if options.truthy then (whole settings).after depth (.override options) else whole settings

/-- The regime of a new server is whole if its settings were applied to the end. -/
theorem introduced_eq_whole {depth : Nat} {settings : Settings} {options : Value}
    (h : (introduced depth settings options).latest.detection.limits.cacheLifetime <
      Cache.lifetimeBound) :
    introduced depth settings options =
      whole (introduced depth settings options).latest := by
  unfold introduced at h ⊢
  split
  · next htruthy =>
      rw [if_pos htruthy] at h
      exact after_eq_whole rfl h
  · rfl

end Regime

namespace Server

variable {s : Server}

/-! ### A new server -/

/-- A server that a client has just introduced itself to; none if the settings admit of none. -/
def introduced (settings : Settings) (printer : Printer) (depths : Depths)
    (database : Option Database) (port : Int) (obstacle : Feature → Option String)
    (options : Value) : Except Cache.Error Server :=
  (create settings printer depths database port obstacle).map fun s =>
    (s.step (.introduced options)).2.2

/-- The listeners of the features are in the order of `Server.heard`. -/
theorem filterMap_listener? (p : Feature → Bool) :
    (Feature.all.filter p).filterMap Feature.listener? =
      (if .diagnostics ∈ Feature.all.filter p then [.diagnostics] else []) ++
        (if .highlighting ∈ Feature.all.filter p then [.highlights] else []) := by
  cases hc : p .completion <;> cases hd : p .diagnostics <;> cases hh : p .highlighting <;>
    cases hf : p .formatting <;>
    simp [Feature.all, hc, hd, hh, hf, List.filterMap_cons, Feature.listener?]

theorem listeners_setUp (settings : Settings) (printer : Printer) (depths : Depths)
    (database : Option Database) (port : Int) (obstacle : Feature → Option String)
    (regions : RegionStore) :
    (setUp settings printer depths database port obstacle regions).dispatch.members =
      .regions :: (setUp settings printer depths database port obstacle regions).heard := by
  simp only [setUp, heard, List.filter_filter, filterMap_listener?]

/-- The server that a client is about to introduce itself to goes by the settings of its setup. -/
theorem upright_setUp {settings : Settings} {regions : RegionStore}
    (h : RegionStore.ofDetection settings.detection = .ok regions) (printer : Printer)
    (depths : Depths) (database : Option Database) (port : Int)
    (obstacle : Feature → Option String) :
    Upright { setUp settings printer depths database port obstacle regions with
      workspace := some {} } (.whole settings) :=
  ⟨listeners_setUp settings printer depths database port obstacle regions, rfl, rfl, rfl,
    RegionStore.detection_of_ofDetection h, RegionStore.faithful_of_ofDetection h,
    fun _ => List.mem_cons_self, fun uri entry hentry => by simp [setUp] at hentry⟩

section

variable {settings : Settings} {printer : Printer} {depths : Depths} {database : Option Database}
  {port : Int} {obstacle : Feature → Option String} {options : Value}

/-- What a client that introduces itself makes of a new server. -/
theorem exists_of_introduced
    (h : introduced settings printer depths database port obstacle options = .ok s) :
    ∃ regions, RegionStore.ofDetection settings.detection = .ok regions ∧
      s = ((setUp settings printer depths database port obstacle regions).introduce
        options).2.2 := by
  unfold introduced at h
  cases hcreate : create settings printer depths database port obstacle with
  | error e =>
      rw [hcreate] at h
      cases h
  | ok s' =>
      rw [hcreate] at h
      cases h
      obtain ⟨regions, hregions, rfl⟩ := exists_of_create hcreate
      exact ⟨regions, hregions, rfl⟩

/-- A new server has no document open. -/
theorem openBuffer?_introduced
    (h : introduced settings printer depths database port obstacle options = .ok s)
    (uri : String) : s.openBuffer? uri = none := by
  obtain ⟨regions, -, rfl⟩ := exists_of_introduced h
  obtain ⟨used, applied, regions', hintroduce, -⟩ := introduce_eq _ options
  rw [hintroduce]
  rfl

/-- A new server keeps nothing. -/
theorem upright_introduced
    (h : introduced settings printer depths database port obstacle options = .ok s) :
    Upright s (.introduced depths.display settings options) := by
  obtain ⟨regions, hregions, rfl⟩ := exists_of_introduced h
  have hsetUp := upright_setUp hregions printer depths database port obstacle
  unfold introduce Regime.introduced
  dsimp only
  split
  · have hoverride := (hsetUp.advance_override options).upright
    rw [step_override_snd] at hoverride
    exact hoverride
  · exact hsetUp

end

/-! ### Obedience -/

/-- What the server answers and publishes goes by a regime. -/
structure Obeys (s : Server) (r : Regime) : Prop where
  complete : .completion ∈ s.features → ∀ b p, s.openBuffer? b.uri = some b →
    (s.step (.complete b.uri p)).1 =
      (Completion.request s.depths.display r.latest.detection b s.database p).1.elim .nothing
        .suggestions
  format : .formatting ∈ s.features → ∀ arguments b p, s.openBuffer? b.uri = some b →
    Command.parse s.depths.display arguments = .ok (b.uri, p) →
    ((s.step (.format arguments)).1, (s.step (.format arguments)).2.1) =
      formatted b.uri
        (Formatting.edit s.printer r.applied.formatting r.applied.detection b p).1
  regions : ∀ b, s.openBuffer? b.uri = some b →
    ∃ d ∈ r.since b.uri, (s.step (.regions b.uri)).1 = .regions (Region.all d b.document)
  /-- A document that is opened gets its diagnostics, if its name is one. -/
  opened : ∀ b path, s.openBuffer? b.uri = none → Path.ofUri b.uri = .ok path →
    (s.step (.opened b)).2.1 = s.published r b
  /-- A document that is edited gets those of the text after the edits. -/
  changed : ∀ b version changes, s.openBuffer? b.uri = some b →
    (s.step (.changed b.uri version changes)).2.1 = s.published r (b.edited version changes)

/-- A server obeys the regime in force. -/
theorem Upright.obeys {r : Regime} (h : Upright s r) : s.Obeys r := by
  refine ⟨?_, ?_, ?_, ?_, ?_⟩
  · intro hon b p hopen
    simp [Server.step, answerComplete, hon, buffer_eq_ok hopen, h.detection]
  · intro hon arguments b p hopen hparse
    obtain ⟨printed, hformat⟩ := s.exists_formatBuffer_eq b p
    simp [Server.step, answerFormat, hon, hparse, buffer_eq_ok hopen, hformat, h.applied]
  · intro b hopen
    obtain ⟨d, hd, regions, -, -, hanswer⟩ := h.exists_answerRegions_eq hopen
    exact ⟨d, hd, by rw [Server.step, hanswer]⟩
  · intro b path hclosed hname
    exact (h.step_opened hclosed hname).1
  · intro b version changes hopen
    exact (h.step_changed hopen version changes).1

/-- Highlights that are kept are what a client gets. -/
theorem Upright.step_highlights {r : Regime} (h : Upright s r) {d : Detection} {b : Buffer}
    (hopen : s.openBuffer? b.uri = some b) (hnoted : s.Noted d b)
    (hon : .highlighting ∈ s.features) (range : Option Range) :
    (s.step (.highlights b.uri range)).1 =
      (HighlightStore.answerTo d b range).elim .nothing .highlights := by
  simp [Server.step, answerHighlights, hon, buffer_eq_ok hopen,
    HighlightStore.request_fst_eq h.named (hnoted hon)]

/-- Overrides with a lifetime that is no double.  Detection goes by them, formatting and the checks
do not, and a scan may go by either. -/
example :
    let options := Value.record
      [("detection", .record [("sql_functions", .str "f"),
        ("limits", .record [("cache_ttl_ms", .int (10 ^ 400))])]),
       ("formatting", .record [("keyword_case", .str "lower")])]
    let r := (Regime.whole {}).after 10 (.override options)
    r.latest.detection.sqlFunctions = ["f"] ∧ r.latest.formatting.keywordCase = some .lower ∧
      r.applied = {} ∧ r.since "file:///a.R" = [r.latest.detection, {}] := by
  decide +kernel

/-- The server `s` goes by the settings that the events `es` leave to the server `new`, which goes
by the regime `r`. -/
structure Follows (r : Regime) (new : Server) (es : List Event) (s : Server) : Prop where
  settings : s.settings = (r.afterAll s.depths.display es).latest
  /-- No override adds or removes a feature. -/
  features : s.features = new.features
  obeys : s.Obeys (r.afterAll s.depths.display es)
  /-- With lifetimes that are doubles, everything but the highlights goes by the latest settings. -/
  whole : (∀ fs, fs <+: es →
      (r.afterAll s.depths.display fs).latest.detection.limits.cacheLifetime <
        Cache.lifetimeBound) →
    s.Obeys (.whole s.settings)
  /-- Highlights go by the settings at the last opening or edit of their document. -/
  highlights : .highlighting ∈ s.features → ∀ b range, s.openBuffer? b.uri = some b →
    (s.step (.highlights b.uri range)).1 =
      (HighlightStore.answerTo (r.whenTouched s.depths.display b.uri es).latest.detection b
        range).elim .nothing .highlights
  /-- Overrides that cannot be used change nothing. -/
  rejected : ∀ overrides e, s.settings.override s.depths.display overrides = .error e →
    (s.step (.override overrides)).2.2 = s
  /-- Overrides that can be used are not always applied to the end. -/
  accepted : ∀ overrides settings, s.settings.override s.depths.display overrides = .ok settings →
    (s.step (.override overrides)).1 =
      if settings.detection.limits.cacheLifetime < Cache.lifetimeBound then .nothing
      else .failed (.halfway .longLifetime)

/-- **After any session** of a client that opens documents while they are closed, with overrides,
edits, requests and other readings of the clock in any order, the server goes by the latest settings
that could be used, in part by the latest that could be applied, and by earlier ones in its
highlights. -/
theorem settings_take_effect (settings : Settings) (printer : Printer) (depths : Depths)
    (database : Option Database) (port : Int) (obstacle : Feature → Option String)
    (options : Value) (new : Server)
    (hnew : introduced settings printer depths database port obstacle options = .ok new)
    (es : List Event) (hes : new.serves es = true) :
    Follows (.introduced depths.display settings options) new es (new.run es).2 := by
  have outcome := (upright_introduced hnew).run (openBuffer?_introduced hnew) hes
  have hdepths : (new.run es).2.depths = new.depths := outcome.depths
  have hupright := outcome.upright
  have hobeys := hupright.obeys
  rw [← hdepths] at hupright hobeys
  refine ⟨hupright.settings, outcome.features, hobeys, ?_, ?_, ?_, ?_⟩
  · intro hlifetimes
    have hfirst := hlifetimes [] List.nil_prefix
    have hwhole := Regime.afterAll_eq_whole (Regime.introduced_eq_whole hfirst) hlifetimes
    rw [hwhole, ← hupright.settings] at hobeys
    exact hobeys
  · intro hon b range hopen
    have hnoted := outcome.noted b hopen
    rw [← hdepths] at hnoted
    exact hupright.step_highlights hopen hnoted hon range
  · intro overrides e hoverride
    exact step_override_of_error hoverride
  · intro overrides used hoverride
    obtain ⟨hwhole, hpart⟩ := step_override_of_ok hoverride
    cases hstore : RegionStore.ofDetection used.detection with
    | ok store =>
        have hshort : used.detection.limits.cacheLifetime < Cache.lifetimeBound := by
          rw [← Nat.not_le, ← RegionStore.ofDetection_eq_error_iff (e := .longLifetime), hstore]
          exact nofun
        rw [if_pos hshort]
        exact (hwhole store hstore).1
    | error e =>
        have hlong := RegionStore.ofDetection_eq_error_iff.1 hstore
        cases e
        rw [if_neg (Nat.not_lt.2 hlong)]
        exact (hpart _ hstore).1

/-- An override that makes a call one with SQL after the document was opened, and one that cannot be
used.  The document has no highlights, although the settings in force would give it some. -/
theorem settings_take_effect_except_highlights :
    let depths : Depths := ⟨10, 10, 10⟩
    let regions : RegionStore := ⟨{}, { lifetime := ⟨false, 5 * 2 ^ 50, -50⟩ }⟩
    let new : Server :=
      { setUp {} (fun _ t => .ok t) depths none defaultPort (fun _ => none) regions with
        workspace := some {} }
    let b : Buffer := ⟨"file:///a.R", "f(\"select 1\")".toList, some 1, some "r"⟩
    let detecting (v : Value) := Value.record [("detection", .record [("sql_functions", v)])]
    let es : List Event :=
      [.opened b, .override (detecting (.list [.str "f"])), .clock (.finite ⟨false, 7, -3⟩),
        .override (detecting (.int 1))]
    let used : Settings := { detection := { sqlFunctions := ["f"] } }
    let s := (new.run es).2
    introduced {} (fun _ t => .ok t) depths none defaultPort (fun _ => none) .null = .ok new ∧
      new.serves es = true ∧ s.openBuffer? b.uri = some b ∧ s.settings = used ∧
      (s.step (.regions b.uri)).1 = .regions (Region.all used.detection b.document) ∧
      (s.step (.highlights b.uri none)).1 = .highlights [] ∧
      (Highlight.ofDocument used.detection b.document).length = 2 := by
  intro depths regions new b detecting es used s
  have hregions : RegionStore.ofDetection {} = .ok regions :=
    RegionStore.ofDetection_eq_ok_iff.2 ⟨_, by decide +kernel, rfl⟩
  have hnew : introduced {} (fun _ t => .ok t) depths none defaultPort (fun _ => none) .null =
      .ok new := by
    simp only [introduced, create, hregions]
    rfl
  have hes : new.serves es = true := by decide +kernel
  have hb : s.openBuffer? b.uri = some b := by decide +kernel
  have hsettings : s.settings = used := by decide +kernel
  let r : Regime := .introduced depths.display {} .null
  have hanswer : HighlightStore.answerTo
      (r.whenTouched s.depths.display b.uri es).latest.detection b none = some [] := by
    decide +kernel
  have hsince : (r.afterAll s.depths.display es).since b.uri = [used.detection] := by
    decide +kernel
  have hfollows : Follows r new es s := settings_take_effect _ _ _ _ _ _ _ _ hnew es hes
  refine ⟨hnew, hes, hb, hsettings, ?_, ?_, by decide +kernel⟩
  · obtain ⟨d, hd, hregions⟩ := hfollows.obeys.regions b hb
    rw [hsince, List.mem_singleton] at hd
    exact hd ▸ hregions
  · rw [hfollows.highlights (by decide +kernel) b none hb, hanswer]
    rfl

end Server

end EmbeddedSql
