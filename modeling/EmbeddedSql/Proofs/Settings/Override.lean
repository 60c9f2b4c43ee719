/-
**What overrides do to settings.**

Overrides are merged into the raw form of the settings, and the outcome is checked like any raw
settings: texts are read as numbers, single names as lists, and the rules between settings are
checked again.  Still each setting can be looked at on its own.  The settings come section by
section here; what holds of the sections holds of everything together, the raw form of settings is
read back as the settings, and so overrides that were accepted once change nothing when they come
again.

Main definitions:

* `Limits.settings`, `Detection.settings`, `FormatOptions.settings`, `DiagnosticOptions.settings`,
  `Settings.settings` — the single settings of every section;
* `Limits.Fits`, `Detection.Fits`, `FormatOptions.Fits`, `DiagnosticOptions.Fits`, `Settings.Fits` —
  overrides with the keys of the sections only.

Main results:

* `Limits.overridable`, `Detection.overridable`, `FormatOptions.overridable`,
  `DiagnosticOptions.overridable`, `Settings.overridable` — how overrides act on each section;
* `Settings.override_eq_ok_iff` — which overrides are accepted, and the settings then;
* `Settings.override_changes_named` — **overrides change what they name only**, and they change
  nothing a second time.
-/

import EmbeddedSql.Proofs.Settings.Section

set_option relaxedAutoImplicit false
set_option autoImplicit false

namespace EmbeddedSql

open Check Checked Value

/-! ### The sections of the settings -/

/-- The settings among the limits. -/
def Limits.settings : List (Setting Limits) :=
  [(Setting.single positive).under "max_document_size" (·.documentSize),
   (Setting.single positive).under "max_function_matches" (·.functionMatches),
   (Setting.single positive).under "max_paren_search_distance" (·.parenSearch),
   (Setting.single positive).under "max_function_call_length" (·.callLength),
   (Setting.single natural).under "context_line_lookback" (·.lineLookback),
   (Setting.single positive).under "named_argument_lookback" (·.argumentLookback),
   (Setting.single positive).under "cache_ttl_ms" (·.cacheLifetime)]

/-- Overrides that fit as limits. -/
def Limits.Fits : Value → Prop :=
  FitsSection
    ["max_document_size", "max_function_matches", "max_paren_search_distance",
     "max_function_call_length", "context_line_lookback", "named_argument_lookback",
     "cache_ttl_ms"] []

theorem Limits.ap_eq_ok_iff {c₁ c₂ c₃ c₄ c₅ c₆ c₇ : Checked Nat} {l : Limits} :
    (((((((ok Limits.mk).ap c₁).ap c₂).ap c₃).ap c₄).ap c₅).ap c₆).ap c₇ = ok l ↔
      c₁ = ok l.documentSize ∧ c₂ = ok l.functionMatches ∧ c₃ = ok l.parenSearch ∧
        c₄ = ok l.callLength ∧ c₅ = ok l.lineLookback ∧ c₆ = ok l.argumentLookback ∧
        c₇ = ok l.cacheLifetime := by
  rw [← exists_eq_right (p := fun b => _ = ok b)]
  simp only [exists_ap_iff, exists_ok_iff]
  constructor
  · rintro ⟨_, h₁, _, h₂, _, h₃, _, h₄, _, h₅, _, h₆, _, h₇, rfl⟩
    exact ⟨h₁, h₂, h₃, h₄, h₅, h₆, h₇⟩
  · rintro ⟨h₁, h₂, h₃, h₄, h₅, h₆, h₇⟩
    exact ⟨_, h₁, _, h₂, _, h₃, _, h₄, _, h₅, _, h₆, _, h₇, rfl⟩

theorem Limits.overridable (path : List String) :
    Overridable path (Limits.check path) Limits.dump Limits.Valid Limits.Fits Limits.settings := by
  refine .section_of_build (fun _ => rfl) (fun _ => rfl) ?_ ?_ ?_ ?_
  · intro l
    simp [Keyed]
  · simp [Limits.settings, Setting.under]
  · rintro ⟨⟩ ⟨⟩ h
    simpa [Limits.settings, Setting.under, Setting.single] using h
  · intro old new changes hchanges
    have hpositive := fun part : Limits → Nat =>
      Overridable.setting_iff overridable_positive part old new hchanges
    have hnatural := fun part : Limits → Nat =>
      Overridable.setting_iff overridable_natural part old new hchanges
    refine Limits.ap_eq_ok_iff.trans ?_
    simp (disch := simp [lookup_cons]) only [hpositive Limits.documentSize,
      hpositive Limits.functionMatches, hpositive Limits.parenSearch, hpositive Limits.callLength,
      hnatural Limits.lineLookback, hpositive Limits.argumentLookback,
      hpositive Limits.cacheLifetime]
    constructor
    · rintro ⟨⟨v₁, h₁⟩, ⟨v₂, h₂⟩, ⟨v₃, h₃⟩, ⟨v₄, h₄⟩, ⟨-, h₅⟩, ⟨v₆, h₆⟩, v₇, h₇⟩
      refine ⟨by simp, ⟨v₁, v₂, v₃, v₄, v₆, v₇⟩, ?_⟩
      simpa [Limits.settings] using ⟨h₁, h₂, h₃, h₄, h₅, h₆, h₇⟩
    · rintro ⟨-, ⟨v₁, v₂, v₃, v₄, v₆, v₇⟩, h⟩
      obtain ⟨h₁, h₂, h₃, h₄, h₅, h₆, h₇⟩ := by simpa [Limits.settings] using h
      exact ⟨⟨v₁, h₁⟩, ⟨v₂, h₂⟩, ⟨v₃, h₃⟩, ⟨v₄, h₄⟩, ⟨trivial, h₅⟩, ⟨v₆, h₆⟩, v₇, h₇⟩

/-- The settings of the detection. -/
def Detection.settings (depth : Nat) : List (Setting Detection) :=
  [(Setting.single (names depth)).under "sql_functions" (·.sqlFunctions),
   (Setting.single (names depth)).under "interpolating_functions" (·.interpolatingFunctions),
   (Setting.single (names depth)).under "statement_parameters" (·.statementParameters),
   (Setting.single string).under "quote_chars" (·.marks.quotes),
   (Setting.single character).under "comment_char" (·.marks.comment)] ++
    Limits.settings.map (Setting.under "limits" (·.limits))

/-- Overrides that fit as settings of the detection. -/
def Detection.Fits : Value → Prop :=
  FitsSection
    ["sql_functions", "interpolating_functions", "statement_parameters", "quote_chars",
     "comment_char", "limits"] [("limits", Limits.Fits)]

theorem Detection.ap_eq_ok_iff {c₁ c₂ c₃ : Checked (List String)} {c₄ : Checked Text}
    {c₅ : Checked Char} {c₆ : Checked Limits} {d : Detection} :
    ((((((ok fun sql glue statement quotes comment limits =>
      (⟨sql, glue, statement, ⟨quotes, comment⟩, limits⟩ : Detection)).ap c₁).ap c₂).ap c₃).ap
        c₄).ap c₅).ap c₆ = ok d ↔
      c₁ = ok d.sqlFunctions ∧ c₂ = ok d.interpolatingFunctions ∧ c₃ = ok d.statementParameters ∧
        c₄ = ok d.marks.quotes ∧ c₅ = ok d.marks.comment ∧ c₆ = ok d.limits := by
  rw [← exists_eq_right (p := fun b => _ = ok b)]
  simp only [exists_ap_iff, exists_ok_iff]
  constructor
  · rintro ⟨_, h₁, _, h₂, _, h₃, _, h₄, _, h₅, _, h₆, rfl⟩
    exact ⟨h₁, h₂, h₃, h₄, h₅, h₆⟩
  · rintro ⟨h₁, h₂, h₃, h₄, h₅, h₆⟩
    exact ⟨_, h₁, _, h₂, _, h₃, _, h₄, _, h₅, _, h₆, rfl⟩

theorem Detection.checkMarks_eq_ok_iff (path : List String) (a b : Detection) :
    a.limits.Valid ∧ Detection.checkMarks path a = ok b ↔ b.Valid ∧ b = a := by
  constructor
  · rintro ⟨hlimits, hok⟩
    refine ⟨(Detection.reads_checkMarks path a).of_eq_ok hok hlimits, ?_⟩
    unfold Detection.checkMarks at hok
    split at hok
    · simp at hok
    · split at hok
      · simp at hok
      · exact (ok_inj.1 hok).symm
  · rintro ⟨hvalid, rfl⟩
    refine ⟨hvalid.limits, ?_⟩
    simp [Detection.checkMarks, hvalid.quotes_ne_nil, hvalid.comment_not_mem]

theorem Detection.overridable (depth : Nat) (path : List String) :
    Overridable path (Detection.check depth path) Detection.dump Detection.Valid Detection.Fits
      (Detection.settings depth) := by
  refine .andThen (fun _ => rfl) (Detection.checkMarks_eq_ok_iff path)
    (.section_of_build (fun _ => rfl) (fun _ => rfl) ?_ ?_ ?_ ?_)
  · intro d
    simp [Keyed]
  · simp [Detection.settings, Setting.under]
  · rintro ⟨_, _, _, ⟨_, _⟩, limits⟩ ⟨_, _, _, ⟨_, _⟩, limits'⟩ h
    obtain ⟨rfl, rfl, rfl, rfl, rfl, hlimits⟩ := by
      simpa [Detection.settings, Setting.under, Setting.single] using h
    obtain rfl : limits = limits' := (Limits.overridable []).ext _ _ hlimits
    rfl
  · intro old new changes hchanges
    have hnames := fun part : Detection → List String =>
      Overridable.setting_iff (overridable_names depth) part old new hchanges
    have hquotes := Overridable.setting_iff overridable_string
      (fun d : Detection => d.marks.quotes) old new hchanges
    have hcomment := Overridable.setting_iff overridable_character
      (fun d : Detection => d.marks.comment) old new hchanges
    have hlimits := Overridable.field_iff Limits.overridable Detection.limits old new hchanges
    refine Detection.ap_eq_ok_iff.trans ?_
    simp (disch := simp [lookup_cons]) only [hnames Detection.sqlFunctions,
      hnames Detection.interpolatingFunctions, hnames Detection.statementParameters, hquotes,
      hcomment, hlimits]
    constructor
    · rintro ⟨⟨-, h₁⟩, ⟨-, h₂⟩, ⟨-, h₃⟩, ⟨-, h₄⟩, ⟨-, h₅⟩, hfits, hvalid, h₆⟩
      refine ⟨by simpa using hfits, hvalid, ?_⟩
      simpa [Detection.settings] using ⟨h₁, h₂, h₃, h₄, h₅, by simpa using h₆⟩
    · rintro ⟨hfits, hvalid, h⟩
      obtain ⟨h₁, h₂, h₃, h₄, h₅, h₆⟩ := by simpa [Detection.settings] using h
      exact ⟨⟨trivial, h₁⟩, ⟨trivial, h₂⟩, ⟨trivial, h₃⟩, ⟨trivial, h₄⟩, ⟨trivial, h₅⟩,
        by simpa using hfits, hvalid, by simpa using h₆⟩

/-- The settings of the pretty printer. -/
def FormatOptions.settings : List (Setting FormatOptions) :=
  [(Setting.single Check.keywordCase).under "keyword_case" (·.keywordCase),
   (Setting.single truth).under "reindent" (·.reindent),
   (Setting.single positive).under "indent_width" (·.indentWidth)]

/-- Overrides that fit as options of the pretty printer. -/
def FormatOptions.Fits : Value → Prop :=
  FitsSection ["keyword_case", "reindent", "indent_width"] []

theorem FormatOptions.ap_eq_ok_iff {c₁ : Checked (Option KeywordCase)} {c₂ : Checked Bool}
    {c₃ : Checked Nat} {f : FormatOptions} :
    (((ok FormatOptions.mk).ap c₁).ap c₂).ap c₃ = ok f ↔
      c₁ = ok f.keywordCase ∧ c₂ = ok f.reindent ∧ c₃ = ok f.indentWidth := by
  rw [← exists_eq_right (p := fun b => _ = ok b)]
  simp only [exists_ap_iff, exists_ok_iff]
  constructor
  · rintro ⟨_, h₁, _, h₂, _, h₃, rfl⟩
    exact ⟨h₁, h₂, h₃⟩
  · rintro ⟨h₁, h₂, h₃⟩
    exact ⟨_, h₁, _, h₂, _, h₃, rfl⟩

theorem FormatOptions.overridable (path : List String) :
    Overridable path (FormatOptions.check path) FormatOptions.dump FormatOptions.Valid
      FormatOptions.Fits FormatOptions.settings := by
  refine .section_of_build (fun _ => rfl) (fun _ => rfl) ?_ ?_ ?_ ?_
  · intro f
    simp [Keyed]
  · simp [FormatOptions.settings, Setting.under]
  · rintro ⟨⟩ ⟨⟩ h
    simpa [FormatOptions.settings, Setting.under, Setting.single] using h
  · intro old new changes hchanges
    have hcase := Overridable.setting_iff overridable_keywordCase FormatOptions.keywordCase old new
      hchanges
    have hreindent := Overridable.setting_iff overridable_truth FormatOptions.reindent old new
      hchanges
    have hwidth := Overridable.setting_iff overridable_positive FormatOptions.indentWidth old new
      hchanges
    refine FormatOptions.ap_eq_ok_iff.trans ?_
    simp (disch := simp [lookup_cons]) only [hcase, hreindent, hwidth]
    constructor
    · rintro ⟨⟨-, h₁⟩, ⟨-, h₂⟩, hvalid, h₃⟩
      exact ⟨by simp, ⟨hvalid⟩, by simpa [FormatOptions.settings] using ⟨h₁, h₂, h₃⟩⟩
    · rintro ⟨-, ⟨hvalid⟩, h⟩
      obtain ⟨h₁, h₂, h₃⟩ := by simpa [FormatOptions.settings] using h
      exact ⟨⟨trivial, h₁⟩, ⟨trivial, h₂⟩, hvalid, h₃⟩

/-- The settings of the checks. -/
def DiagnosticOptions.settings : List (Setting DiagnosticOptions) :=
  [(Setting.single truth).under "enabled" (·.enabled),
   (Setting.single truth).under "validate_with_duckdb" (·.askDatabase)]

/-- Overrides that fit as options of the checks. -/
def DiagnosticOptions.Fits : Value → Prop :=
  FitsSection ["enabled", "validate_with_duckdb"] []

theorem DiagnosticOptions.ap_eq_ok_iff {c₁ c₂ : Checked Bool} {d : DiagnosticOptions} :
    ((ok DiagnosticOptions.mk).ap c₁).ap c₂ = ok d ↔ c₁ = ok d.enabled ∧ c₂ = ok d.askDatabase := by
  rw [← exists_eq_right (p := fun b => _ = ok b)]
  simp only [exists_ap_iff, exists_ok_iff]
  constructor
  · rintro ⟨_, h₁, _, h₂, rfl⟩
    exact ⟨h₁, h₂⟩
  · rintro ⟨h₁, h₂⟩
    exact ⟨_, h₁, _, h₂, rfl⟩

theorem DiagnosticOptions.overridable (path : List String) :
    Overridable path (DiagnosticOptions.check path) DiagnosticOptions.dump (fun _ => True)
      DiagnosticOptions.Fits DiagnosticOptions.settings := by
  refine .section_of_build (fun _ => rfl) (fun _ => rfl) ?_ ?_ ?_ ?_
  · intro d
    simp [Keyed]
  · simp [DiagnosticOptions.settings, Setting.under]
  · rintro ⟨⟩ ⟨⟩ h
    simpa [DiagnosticOptions.settings, Setting.under, Setting.single] using h
  · intro old new changes hchanges
    have htruth := fun part : DiagnosticOptions → Bool =>
      Overridable.setting_iff overridable_truth part old new hchanges
    refine DiagnosticOptions.ap_eq_ok_iff.trans ?_
    simp (disch := simp [lookup_cons]) only [htruth DiagnosticOptions.enabled,
      htruth DiagnosticOptions.askDatabase]
    simp [DiagnosticOptions.settings]

namespace Settings

/-- All settings. -/
def settings (depth : Nat) : List (Setting Settings) :=
  (Detection.settings depth).map (Setting.under "detection" (·.detection)) ++
    FormatOptions.settings.map (Setting.under "formatting" (·.formatting)) ++
    DiagnosticOptions.settings.map (Setting.under "diagnostics" (·.diagnostics)) ++
    [(Setting.single truth).under "semantic_tokens" (·.highlighting),
     (Setting.single truth).under "completion" (·.completion)]

/-- Overrides that fit. -/
def Fits : Value → Prop :=
  FitsSection ["detection", "formatting", "diagnostics", "semantic_tokens", "completion"]
    [("detection", Detection.Fits), ("formatting", FormatOptions.Fits),
     ("diagnostics", DiagnosticOptions.Fits)]

theorem ap_eq_ok_iff {c₁ : Checked Detection} {c₂ : Checked FormatOptions}
    {c₃ : Checked DiagnosticOptions} {c₄ c₅ : Checked Bool} {s : Settings} :
    (((((ok Settings.mk).ap c₁).ap c₂).ap c₃).ap c₄).ap c₅ = ok s ↔
      c₁ = ok s.detection ∧ c₂ = ok s.formatting ∧ c₃ = ok s.diagnostics ∧
        c₄ = ok s.highlighting ∧ c₅ = ok s.completion := by
  rw [← exists_eq_right (p := fun b => _ = ok b)]
  simp only [exists_ap_iff, exists_ok_iff]
  constructor
  · rintro ⟨_, h₁, _, h₂, _, h₃, _, h₄, _, h₅, rfl⟩
    exact ⟨h₁, h₂, h₃, h₄, h₅⟩
  · rintro ⟨h₁, h₂, h₃, h₄, h₅⟩
    exact ⟨_, h₁, _, h₂, _, h₃, _, h₄, _, h₅, rfl⟩

theorem overridable (depth : Nat) :
    Overridable [] (check depth) dump Valid Fits (settings depth) := by
  refine .section_of_build (fun _ => rfl) (fun _ => rfl) ?_ ?_ ?_ ?_
  · intro s
    simp [Keyed]
  · simp [settings, Setting.under, or_imp, forall_and]
  · rintro ⟨detection, formatting, diagnostics, _, _⟩
      ⟨detection', formatting', diagnostics', _, _⟩ h
    obtain ⟨hdetection, hformatting, hdiagnostics, rfl, rfl⟩ := by
      simpa [settings, Setting.under, Setting.single, or_imp, forall_and] using h
    obtain rfl : detection = detection' := (Detection.overridable depth []).ext _ _ hdetection
    obtain rfl : formatting = formatting' := (FormatOptions.overridable []).ext _ _ hformatting
    obtain rfl : diagnostics = diagnostics' :=
      (DiagnosticOptions.overridable []).ext _ _ hdiagnostics
    rfl
  · intro old new changes hchanges
    have hdetection :=
      Overridable.field_iff (Detection.overridable depth) Settings.detection old new hchanges
    have hformatting :=
      Overridable.field_iff FormatOptions.overridable Settings.formatting old new hchanges
    have hdiagnostics :=
      Overridable.field_iff DiagnosticOptions.overridable Settings.diagnostics old new hchanges
    have htruth := fun part : Settings → Bool =>
      Overridable.setting_iff overridable_truth part old new hchanges
    refine ap_eq_ok_iff.trans ?_
    simp (disch := simp [lookup_cons]) only [hdetection, hformatting, hdiagnostics,
      htruth Settings.highlighting, htruth Settings.completion]
    constructor
    · rintro ⟨⟨hfits₁, hvalid₁, h₁⟩, ⟨hfits₂, hvalid₂, h₂⟩, ⟨hfits₃, -, h₃⟩, ⟨-, h₄⟩, -, h₅⟩
      refine ⟨?_, ⟨hvalid₁, hvalid₂⟩, ?_⟩
      · simpa using ⟨hfits₁, hfits₂, hfits₃⟩
      · simpa [settings, or_imp, forall_and] using
          ⟨by simpa using h₁, by simpa using h₂, by simpa using h₃, h₄, h₅⟩
    · rintro ⟨hfits, ⟨hvalid₁, hvalid₂⟩, h⟩
      obtain ⟨hfits₁, hfits₂, hfits₃⟩ := by simpa using hfits
      obtain ⟨h₁, h₂, h₃, h₄, h₅⟩ := by simpa [settings, or_imp, forall_and] using h
      exact ⟨⟨hfits₁, hvalid₁, by simpa using h₁⟩, ⟨hfits₂, hvalid₂, by simpa using h₂⟩,
        ⟨hfits₃, trivial, by simpa using h₃⟩, ⟨trivial, h₄⟩, trivial, h₅⟩

/-! ### Overriding -/

variable {depth : Nat} {s s' : Settings} {o : List (Scalar × Value)}

theorem parse_object_eq_ok_iff {source : String} {es : List (Scalar × Value)} (hes : es ≠ []) :
    parse depth source (.object es) = .ok s ↔ check depth (.object es) = ok s := by
  have htruthy : (Value.object es).truthy = true := by simpa [truthy] using hes
  simp only [parse, htruthy, Bool.not_true, Bool.false_eq_true, if_false]
  split
  · next e he =>
      -- a check with such a fault gives no result
      have hfaults : (check depth (.object es)).faults ≠ [] := by
        intro hnil
        simp [hnil, raised?] at he
      simp [eq_ok_iff, hfaults]
  · exact mapError_toExcept_eq_ok_iff

/-- Overrides without entries are not looked at, but merging them would give the same settings. -/
theorem override_eq_ok_iff_check (hs : s.Valid) :
    override depth s (.object o) = .ok s' ↔
      check depth (mergeValue (some s.dump) (.object o)) = ok s' := by
  cases o with
  | nil =>
      have hself : mergeValue (some s.dump) (.object []) = s.dump := by
        simp [dump, record, mergeValue, merge]
      rw [hself, (overridable depth).unnamed]
      constructor
      · intro h
        obtain rfl : s = s' := Except.ok.inj h
        exact ⟨hs, rfl⟩
      · rintro ⟨-, rfl⟩
        rfl
  | cons e o =>
      have hfilled : ∀ es : List (Scalar × Value), es ≠ [] → merge es (e :: o) ≠ [] :=
        fun es hes => merge_ne_nil hes _
      simp only [override, truthy, dump, record, mergeValue]
      exact parse_object_eq_ok_iff (hfilled _ (by simp))

/-- Which overrides are accepted, and what the settings are then. -/
theorem override_eq_ok_iff (hs : s.Valid) (ho : (Value.object o).Distinct) :
    override depth s (.object o) = .ok s' ↔
      Fits (.object o) ∧ s'.Valid ∧ ∀ x ∈ settings depth, x.Follows [] (.object o) s s' := by
  rw [override_eq_ok_iff_check hs, (overridable depth).named s s' _ ho]

theorem distinct_dump (s : Settings) : s.dump.Distinct := by
  have hlimits : s.detection.limits.dump.Distinct :=
    .record (by simp) (by simp [Distinct.ofNat])
  have hdetection : s.detection.dump.Distinct :=
    .record (by simp) (by simp [Distinct.ofNames, Distinct.scalar, hlimits])
  have hformatting : s.formatting.dump.Distinct := by
    refine .record (by simp) ?_
    cases hcase : s.formatting.keywordCase <;>
      simp [KeywordCase.dump, Distinct.ofNat, Distinct.scalar]
  have hdiagnostics : s.diagnostics.dump.Distinct :=
    .record (by simp) (by simp [Distinct.scalar])
  exact .record (by simp) (by simp [Distinct.scalar, hdetection, hformatting, hdiagnostics])

/-- The raw form of settings changes nothing in them. -/
theorem override_dump (hs : s.Valid) : override depth s s.dump = .ok s := by
  have hcheck : check depth (mergeValue (some s.dump) s.dump) = ok s := by
    rw [mergeValue_self s.distinct_dump]
    exact ((overridable depth).unnamed s s).2 ⟨hs, rfl⟩
  exact (override_eq_ok_iff_check hs).2 hcheck

/-- **Overrides change what they name only.**  A setting whose path does not occur in them keeps its
value, any other one has the value that its own check reads at its path, and the same overrides
change nothing a second time.  Neither does the raw form of the settings.  The settings that are
looked at make up everything. -/
theorem override_changes_named (depth : Nat) (hs : s.Valid) :
    (∀ o s', (Value.object o).Distinct → override depth s (.object o) = .ok s' →
        (∀ x ∈ settings depth, (Value.object o).atPath? x.path = none → x.get s' = x.get s) ∧
          (∀ x ∈ settings depth, ∀ v, (Value.object o).atPath? x.path = some v →
            x.check x.path v = ok (x.get s')) ∧
          override depth s' (.object o) = .ok s') ∧
      override depth s s.dump = .ok s ∧ ∀ t, (∀ x ∈ settings depth, x.get t = x.get s) → t = s := by
  refine ⟨fun o s' ho h => ?_, override_dump hs, fun t => (overridable depth).ext t s⟩
  obtain ⟨hfits, hvalid, hfollows⟩ := (override_eq_ok_iff hs ho).1 h
  have hkept : ∀ x ∈ settings depth, (Value.object o).atPath? x.path = none →
      x.get s' = x.get s := by
    intro x hx hnone
    simpa [Setting.Follows, hnone] using hfollows x hx
  have hread : ∀ x ∈ settings depth, ∀ v, (Value.object o).atPath? x.path = some v →
      x.check x.path v = ok (x.get s') := by
    intro x hx v hv
    simpa [Setting.Follows, hv] using hfollows x hx
  refine ⟨hkept, hread, (override_eq_ok_iff hvalid ho).2 ⟨hfits, hvalid, fun x hx => ?_⟩⟩
  -- the value at a path does not depend on the settings before
  cases hpath : (Value.object o).atPath? x.path with
  | none => simp [Setting.Follows, hpath]
  | some v => simpa [Setting.Follows, hpath] using hread x hx v hpath

/-- A number and a truth value as texts and a single name, in two sections and outside of them. -/
theorem override_changes_named_lenient :
    let o : List (Scalar × Value) :=
      [(.str "detection", .record [("sql_functions", .str "q"),
        ("limits", .record [("cache_ttl_ms", .str "7")])]), (.str "completion", .str "off")]
    let s' : Settings :=
      { detection := { sqlFunctions := ["q"], limits := { cacheLifetime := 7 } },
        completion := false }
    Settings.Valid {} ∧ (Value.object o).Distinct ∧ override 485 {} (.object o) = .ok s' ∧
      override 485 s' (.object o) = .ok s' := by
  intro o s'
  have hdistinct : (Value.object o).Distinct := by
    have hlimits : (record [("cache_ttl_ms", .str "7")]).Distinct :=
      .record (by simp) (by simp [Distinct.scalar])
    have hdetection : (record [("sql_functions", .str "q"),
        ("limits", record [("cache_ttl_ms", .str "7")])]).Distinct :=
      .record (by simp) (by simp [Distinct.scalar, hlimits])
    refine .object (by decide +kernel) ?_
    simp [o, Distinct.scalar, hdetection]
  have hoption : (override 485 {} (.object o)).toOption = some s' := by
    simp only [o, override, dump, record, List.map, merge, mergeValue]
    decide +kernel
  have haccepted : override 485 {} (.object o) = .ok s' := by
    cases h : override 485 {} (.object o) with
    | error e => simp [h, Except.toOption] at hoption
    | ok a => simpa [h, Except.toOption] using hoption
  obtain ⟨hchanges, -⟩ := override_changes_named 485 valid_default
  exact ⟨valid_default, hdistinct, haccepted, (hchanges o s' hdistinct haccepted).2.2⟩

end Settings

end EmbeddedSql
