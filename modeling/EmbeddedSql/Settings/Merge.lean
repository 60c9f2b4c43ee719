/-
**Overriding settings.**

Overrides are a raw object.  They are merged into the raw form of the current settings key by key,
and the outcome is checked like any raw settings.

* `Settings.dump` — the raw form of settings;
* `Value.merge` — overrides laid over raw data;
* `Settings.override` — settings with overrides.
-/

import EmbeddedSql.Settings.Check

set_option relaxedAutoImplicit false
set_option autoImplicit false

namespace EmbeddedSql

/-! ### Raw forms -/

/-- A number as raw data. -/
def Value.ofNat (n : Nat) : Value := .int n

/-- Names as raw data. -/
def Value.ofNames (xs : List String) : Value := .list (xs.map .str)

/-- The raw form of limits. -/
def Limits.dump (l : Limits) : Value :=
  .record
    [("max_document_size", .ofNat l.documentSize),
     ("max_function_matches", .ofNat l.functionMatches),
     ("max_paren_search_distance", .ofNat l.parenSearch),
     ("max_function_call_length", .ofNat l.callLength),
     ("context_line_lookback", .ofNat l.lineLookback),
     ("named_argument_lookback", .ofNat l.argumentLookback),
     ("cache_ttl_ms", .ofNat l.cacheLifetime)]

/-- The raw form of detection settings. -/
def Detection.dump (d : Detection) : Value :=
  .record
    [("sql_functions", .ofNames d.sqlFunctions),
     ("interpolating_functions", .ofNames d.interpolatingFunctions),
     ("statement_parameters", .ofNames d.statementParameters),
     ("quote_chars", .str (String.ofList d.marks.quotes)),
     ("comment_char", .str d.marks.comment.toString),
     ("limits", d.limits.dump)]

/-- The word for a way to write keywords. -/
def KeywordCase.name : KeywordCase → String
  | .upper => "upper"
  | .lower => "lower"
  | .capitalize => "capitalize"

/-- The raw form of a way to write keywords. -/
def KeywordCase.dump : Option KeywordCase → Value
  | none => .null
  | some k => .str k.name

/-- The raw form of options of the pretty printer. -/
def FormatOptions.dump (f : FormatOptions) : Value :=
  .record
    [("keyword_case", KeywordCase.dump f.keywordCase),
     ("reindent", .bool f.reindent),
     ("indent_width", .ofNat f.indentWidth)]

/-- The raw form of options of the checks. -/
def DiagnosticOptions.dump (d : DiagnosticOptions) : Value :=
  .record [("enabled", .bool d.enabled), ("validate_with_duckdb", .bool d.askDatabase)]

/-- The raw form of settings.  Checking it gives the settings back. -/
def Settings.dump (s : Settings) : Value :=
  .record
    [("detection", s.detection.dump),
     ("formatting", s.formatting.dump),
     ("diagnostics", s.diagnostics.dump),
     ("semantic_tokens", .bool s.highlighting),
     ("completion", .bool s.completion)]

/-! ### Merging -/

mutual

/-- The value under a key after an override: objects are merged, anything else is replaced. -/
def Value.mergeValue (base : Option Value) : Value → Value
  | .object overrides =>
    match base with
    | some (.object entries) => .object (Value.merge entries overrides)
    | _ => .object overrides
  | v => v

/-- Overrides laid over the entries of an object. -/
def Value.merge (entries : List (Scalar × Value)) :
    List (Scalar × Value) → List (Scalar × Value)
  | [] => entries
  | (key, v) :: rest =>
    Value.merge (Value.insertKey key (Value.mergeValue (Value.atKey? key entries) v) entries) rest

end

namespace Settings

/-- The source that overrides are reported under. -/
def overrideSource : String := "initializationOptions"

/-- Settings with overrides, in which names may be nested `depth` levels deep.  Overrides that do
not count as present change nothing. -/
def override (depth : Nat) (s : Settings) (overrides : Value) : Except Error Settings :=
  if !overrides.truthy then .ok s
  else
    match s.dump, overrides with
    | .object entries, .object changes =>
      parse depth overrideSource (.object (Value.merge entries changes))
    | _, _ => .error .notOverrides

end Settings

end EmbeddedSql
