/-
**From raw data to settings.**

Values are read leniently: a text may stand for a number or a truth value, and a single name for a
list of names.

* `Check.wholeNumber`, `Check.truth`, `Check.names` — the lenient readings;
* `Settings.raised?` — the faults that are not collected but break off the reading;
* `Settings.check` — settings from a raw object, with all faults;
* `Settings.Error`, `Settings.parse` — settings from any raw value, or why there are none.
-/

import EmbeddedSql.Settings.Basic
import EmbeddedSql.Settings.Fault
import EmbeddedSql.Text.Numeral
import EmbeddedSql.Value.Basic

set_option relaxedAutoImplicit false
set_option autoImplicit false

namespace EmbeddedSql

namespace Check

/-! ### Numbers -/

/-- The whole number that plain digits stand for.  A minus may stand in front, a superfluous zero
may not, and digits beyond the limit are not read on. -/
def plainInt (t : Text) : Except FaultKind Int :=
  let (negative, body) :=
    match t with
    | '-' :: rest => (true, rest)
    | rest => (false, rest)
  let run := body.takeWhile Char.isDigit
  let length := run.length + (if negative then 1 else 0)
  if run.isEmpty || (run.head? = some '0' && run.length ≠ 1) then .error .unreadableInt
  else if Text.Numeral.maxDigits < length then .error .oversizedInt
  else if run.length ≠ body.length then .error .unreadableInt
  else
    let n := Text.ofDigits 10 (run.map fun c => c.toNat - '0'.toNat)
    .ok (if negative then -(n : Int) else n)

/-- A text without blanks at its ends. -/
def stripped (t : Text) : Text :=
  ((t.dropWhile Text.isNumeralBlank).reverse.dropWhile Text.isNumeralBlank).reverse

/-- A text without a plus in front; a minus may not follow it. -/
def dropPlus? : Text → Option Text
  | '+' :: '-' :: _ => none
  | '+' :: rest => some rest
  | t => some t

/-- What follows the zeros and underscores after a first zero.  A minus may follow them, and before
a point the last of them stays. -/
def afterZeros? : (last : Char) → Text → Option Text
  | last, [] => some [last]
  | last, c :: rest =>
    if c = '0' || c = '_' then afterZeros? c rest
    else if c.isDigit || c = '-' then some (c :: rest)
    else if c = '.' then some (last :: c :: rest)
    else none

/-- A text without superfluous zeros in front. -/
def dropZeros? : Text → Option Text
  | [] => none
  | c :: rest =>
    if c = '0' then afterZeros? c rest
    else if c.isDigit || c = '-' then some (c :: rest)
    else none

/-- The text before a point that only zeros follow; other texts are left as they are. -/
def dropZeroFraction (t : Text) : Text :=
  match t.dropWhile (· ≠ '.') with
  | '.' :: zeros =>
    if !zeros.isEmpty && zeros.all (· == '0') then t.takeWhile (· ≠ '.') else t
  | _ => t

/-- A text without its underscores, if each stands between two other characters. -/
def dropUnderscores (t : Text) : Text :=
  if Text.separates t then t.filter (· ≠ '_') else t

/-- The plain digits of a number that is written with blanks around it, a plus, zeros in front, a
fraction of zeros or underscores. -/
def tidied? (t : Text) : Option Text :=
  ((dropPlus? (stripped t)).bind dropZeros?).map fun t => dropUnderscores (dropZeroFraction t)

/-- The whole number a text stands for: plain digits, or such as can be tidied up to them. -/
def readInt (t : Text) : Except FaultKind Int :=
  match plainInt t with
  | .error .unreadableInt =>
    match tidied? t with
    | some digits => plainInt digits
    | none => .error .unreadableInt
  | result => result

/-- Half the numbers of 64 bits. -/
def wordHalf : Nat :=
  Nat.pow 2 63

/-- Whether a whole number in double precision lies strictly between the bounds of 64 bits. -/
def fits (n : Int) : Bool :=
  n.natAbs < wordHalf

/-- The value, or the fault under a path. -/
def checked {α : Type} (path : List String) : Except FaultKind α → Checked α
  | .ok a => .ok a
  | .error kind => .fail path kind

/-- A whole number. -/
def wholeNumber (path : List String) : Value → Checked Int
  | .int n => .ok n
  | .bool b => .ok (if b then 1 else 0)
  | .real (.finite b) =>
    if !b.isWhole then .fail path .fraction
    else if fits b.truncate then .ok b.truncate
    else .fail path .oversizedInt
  | .real _ => .fail path .notFinite
  | .str s => checked path (readInt s.toList)
  | _ => .fail path .notInt

/-- A whole number greater than zero. -/
def positive (path : List String) (v : Value) : Checked Nat :=
  (wholeNumber path v).andThen fun n => if 0 < n then .ok n.toNat else .fail path .notPositive

/-- A whole number that is not negative. -/
def natural (path : List String) (v : Value) : Checked Nat :=
  (wholeNumber path v).andThen fun n => if 0 ≤ n then .ok n.toNat else .fail path .negative

/-! ### Truth values, texts and names -/

/-- The words for a truth value. -/
def readBool? (s : String) : Option Bool :=
  let word := s.toLower
  if ["1", "on", "t", "true", "y", "yes"].contains word then some true
  else if ["0", "off", "f", "false", "n", "no"].contains word then some false
  else none

/-- A truth value. -/
def truth (path : List String) : Value → Checked Bool
  | .bool b => .ok b
  | .int n =>
    if n = 0 then .ok false
    else if n = 1 then .ok true
    else if n < -(wordHalf : Int) || (wordHalf : Int) ≤ n then .fail path .notBool
    else .fail path .unreadableBool
  | .real (.finite b) =>
    if b.isWhole && b.truncate = 0 then .ok false
    else if b.isWhole && b.truncate = 1 then .ok true
    else .fail path .notBool
  | .str s =>
    match readBool? s with
    | some b => .ok b
    | none => .fail path .unreadableBool
  | _ => .fail path .notBool

/-- A text. -/
def string (path : List String) : Value → Checked Text
  | .str s => .ok s.toList
  | _ => .fail path .notString

/-- A single character. -/
def character (path : List String) (v : Value) : Checked Char :=
  (string path v).andThen fun t =>
    match t with
    | [c] => .ok c
    | _ => .fail path (.rule "comment_char must be a single character")

/-- The fault of a name that has no text. -/
def textFault : TextError → FaultKind
  | .tooDeep => .tooDeep
  | .oversized => .rule TextError.oversized.message

/-- A list of names: nothing, one name, the texts of a list, or the keys of an object.  `depth`
bounds how deep an item of the list may be nested. -/
def names (depth : Nat) (path : List String) : Value → Checked (List String)
  | .null => .ok []
  | .str s => .ok [s]
  | .list items => checked path ((items.mapM (Value.text depth)).mapError textFault)
  | .object entries => checked path ((entries.mapM (Scalar.text ∘ Prod.fst)).mapError textFault)
  | .scalar s => .fail path (.noNames s.kind)

/-- How keywords are written; null leaves them alone. -/
def keywordCase (path : List String) : Value → Checked (Option KeywordCase)
  | .null => .ok none
  | .str "upper" => .ok (some .upper)
  | .str "lower" => .ok (some .lower)
  | .str "capitalize" => .ok (some .capitalize)
  | _ => .fail path .notChoice

/-! ### Sections -/

/-- One field of a section, or its default when the key is absent. -/
def field {α : Type} (entries : List (Scalar × Value)) (path : List String) (key : String)
    (default : α) (check : List String → Value → Checked α) : Checked α :=
  match Value.lookup key entries with
  | none => .ok default
  | some v => check (path ++ [key]) v

/-- How a key that is no text is named in a path; truth values are numbers there. -/
def keyName : Scalar → String
  | .str s => s
  | .bool b => if b then "1" else "0"
  | s =>
    match s.display with
    | .ok name => name
    | .error _ => "<unprintable " ++ s.kind ++ " object>"

/-- The fault of a key that no setting of a section has. -/
def keyFault? (path keys : List String) (key : Scalar) : Option Fault :=
  match key with
  | .str s => if keys.contains s then none else some ⟨path ++ [s], .unknownKey⟩
  | s => some ⟨path ++ [keyName s], .notKey⟩

/-- A section with the given keys.  Any other key is a fault. -/
def fields {α : Type} (path keys : List String) (build : List (Scalar × Value) → Checked α) :
    Value → Checked α
  | .object entries =>
    (build entries).withFaults (entries.filterMap fun e => keyFault? path keys e.1)
  | _ => .fail path .notSection

end Check

open Check

/-- The limits in a raw section. -/
def Limits.check (path : List String) : Value → Checked Limits :=
  fields path
    ["max_document_size", "max_function_matches", "max_paren_search_distance",
     "max_function_call_length", "context_line_lookback", "named_argument_lookback",
     "cache_ttl_ms"]
    fun es =>
      let d : Limits := {}
      (((((((Checked.ok Limits.mk).ap
        (field es path "max_document_size" d.documentSize positive)).ap
        (field es path "max_function_matches" d.functionMatches positive)).ap
        (field es path "max_paren_search_distance" d.parenSearch positive)).ap
        (field es path "max_function_call_length" d.callLength positive)).ap
        (field es path "context_line_lookback" d.lineLookback natural)).ap
        (field es path "named_argument_lookback" d.argumentLookback positive)).ap
        (field es path "cache_ttl_ms" d.cacheLifetime positive)

/-- The rules between quote characters and comment character. -/
def Detection.checkMarks (path : List String) (d : Detection) : Checked Detection :=
  if d.marks.quotes.isEmpty then .fail path (.rule "quote_chars cannot be empty")
  else if d.marks.quotes.contains d.marks.comment then
    .fail path (.rule "comment_char cannot also be a quote character")
  else .ok d

/-- The detection settings in a raw section, in which names may be nested `depth` levels deep. -/
def Detection.check (depth : Nat) (path : List String) (v : Value) : Checked Detection :=
  let build := fun es =>
    let d : Detection := {}
    ((((((Checked.ok fun sql glue statement quotes comment limits =>
        (⟨sql, glue, statement, ⟨quotes, comment⟩, limits⟩ : Detection)).ap
      (field es path "sql_functions" d.sqlFunctions (names depth))).ap
      (field es path "interpolating_functions" d.interpolatingFunctions (names depth))).ap
      (field es path "statement_parameters" d.statementParameters (names depth))).ap
      (field es path "quote_chars" d.marks.quotes string)).ap
      (field es path "comment_char" d.marks.comment character)).ap
      (field es path "limits" d.limits Limits.check)
  (fields path
    ["sql_functions", "interpolating_functions", "statement_parameters", "quote_chars",
     "comment_char", "limits"] build v).andThen (Detection.checkMarks path)

/-- The options of the pretty printer in a raw section. -/
def FormatOptions.check (path : List String) : Value → Checked FormatOptions :=
  fields path ["keyword_case", "reindent", "indent_width"] fun es =>
    let d : FormatOptions := {}
    (((Checked.ok FormatOptions.mk).ap
      (field es path "keyword_case" d.keywordCase Check.keywordCase)).ap
      (field es path "reindent" d.reindent truth)).ap
      (field es path "indent_width" d.indentWidth positive)

/-- The options of the checks in a raw section. -/
def DiagnosticOptions.check (path : List String) : Value → Checked DiagnosticOptions :=
  fields path ["enabled", "validate_with_duckdb"] fun es =>
    let d : DiagnosticOptions := {}
    ((Checked.ok DiagnosticOptions.mk).ap
      (field es path "enabled" d.enabled truth)).ap
      (field es path "validate_with_duckdb" d.askDatabase truth)

namespace Settings

/-- The settings in a raw object. -/
def check (depth : Nat) : Value → Checked Settings :=
  fields [] ["detection", "formatting", "diagnostics", "semantic_tokens", "completion"] fun es =>
    let d : Settings := {}
    (((((Checked.ok Settings.mk).ap
      (field es [] "detection" d.detection (Detection.check depth))).ap
      (field es [] "formatting" d.formatting FormatOptions.check)).ap
      (field es [] "diagnostics" d.diagnostics DiagnosticOptions.check)).ap
      (field es [] "semantic_tokens" d.highlighting truth)).ap
      (field es [] "completion" d.completion truth)

/-- Why there are no settings. -/
inductive Error where
  /-- The raw value is no object. -/
  | notObject (source : String)
  /-- The raw object has faults. -/
  | invalid (source : String) (faults : List Fault)
  /-- A list of names was expected and a value of another kind found. -/
  | noNames (kind : String)
  /-- The parts of a name stand in each other too deeply. -/
  | tooDeep
  /-- Overrides that are no object. -/
  | notOverrides
  deriving Repr, DecidableEq

/-- The wording of an error. -/
def Error.message : Error → String
  | .notObject source => "Config in " ++ source ++ " must be a mapping"
  | .invalid source _ => "Invalid config in " ++ source
  | .noNames kind => "'" ++ kind ++ "' object is not iterable"
  | .tooDeep => TextError.tooDeep.message
  | .notOverrides => "Overrides must be a mapping"

/-- The error that a fault raises instead of being collected. -/
def raisedBy? : FaultKind → Option Error
  | .noNames kind => some (.noNames kind)
  | .tooDeep => some .tooDeep
  | _ => none

/-- The error that the first of some faults raises that raises any. -/
def raised? (faults : List Fault) : Option Error :=
  faults.findSome? fun f => raisedBy? f.kind

/-- The settings in a raw value that came from some source.  A value that does not count as present
gives the defaults.  `depth` bounds how deep a name may be nested. -/
def parse (depth : Nat) (source : String) (raw : Value) : Except Error Settings :=
  if !raw.truthy then .ok {}
  else
    match raw with
    | .object _ =>
      let checked := check depth raw
      match raised? checked.faults with
      | some e => .error e
      | none => checked.toExcept.mapError (.invalid source)
    | _ => .error (.notObject source)

end Settings

end EmbeddedSql
