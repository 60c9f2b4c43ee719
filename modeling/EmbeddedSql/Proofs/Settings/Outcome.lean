/-
**What becomes of raw settings.**

A raw value is read field by field, and every field may hold anything at all.  Whatever it is, the
outcome is one of four: settings that keep all rules, an error of settings, or one of two failures
of a list of names: it is given as a value that cannot be gone through, or a name in it is made of
lists and objects that stand in each other too deeply.  These two are no faults in a report, so
those who wait for errors of settings do not catch them; whether they happen is told by the raw
value alone.

A check collects the faults of its parts, so one predicate goes through all of them: it says what
the result is like without faults, and which error comes first among those that are not collected.

Main definitions:

* `Limits.Valid`, `Detection.Valid`, `FormatOptions.Valid`, `Settings.Valid` — the rules of
  settings;
* `Settings.raisedOf?`, `Settings.misplacedIn?`, `Settings.misplaced?` — the error that a value
  raises in place of names, and the first such error where a section or all raw settings should name
  functions or parameters;
* `Settings.NamedIn` — the values that stand for single names in raw settings;
* `Checked.Reads` — what a check gives without faults, and the first error that is raised.

Main results:

* `Checked.Reads.ap`, `Checked.Reads.andThen` — reading field by field, and one check behind
  another;
* `Settings.reads_check` — raw settings without faults keep the rules;
* `Settings.parse_outcome` — **settings that keep the rules or the error of settings**, unless a
  value that holds no names, or a name that is nested too deeply, stands in their place.
-/

import EmbeddedSql.Proofs.Value.Display
import EmbeddedSql.Settings.Files
import Mathlib.Tactic.SplitIfs

set_option relaxedAutoImplicit false
set_option autoImplicit false

namespace EmbeddedSql

/-! ### The rules of settings -/

/-- The rules of limits. -/
structure Limits.Valid (l : Limits) : Prop where
  documentSize_pos : 0 < l.documentSize
  functionMatches_pos : 0 < l.functionMatches
  parenSearch_pos : 0 < l.parenSearch
  callLength_pos : 0 < l.callLength
  argumentLookback_pos : 0 < l.argumentLookback
  cacheLifetime_pos : 0 < l.cacheLifetime

/-- The rules of detection settings: those of the limits, and quotes that leave the comment
character out.  That this is one character is in its type. -/
structure Detection.Valid (d : Detection) : Prop where
  limits : d.limits.Valid
  quotes_ne_nil : d.marks.quotes ≠ []
  comment_not_mem : d.marks.comment ∉ d.marks.quotes

/-- The rule of options of the pretty printer. -/
structure FormatOptions.Valid (f : FormatOptions) : Prop where
  indentWidth_pos : 0 < f.indentWidth

/-- The rules of all settings. -/
structure Settings.Valid (s : Settings) : Prop where
  detection : s.detection.Valid
  formatting : s.formatting.Valid

theorem Limits.valid_default : Limits.Valid {} := by
  constructor <;> decide

theorem Detection.valid_default : Detection.Valid {} :=
  ⟨Limits.valid_default, by decide, by decide⟩

theorem FormatOptions.valid_default : FormatOptions.Valid {} :=
  ⟨by decide⟩

/-- The defaults keep all rules. -/
theorem Settings.valid_default : Settings.Valid {} :=
  ⟨Detection.valid_default, FormatOptions.valid_default⟩

/-! ### Names -/

/-- A failure for a list is one for an element. -/
theorem exists_mem_of_mapM_eq_error {ε α β : Type} {f : α → Except ε β} {as : List α} {e : ε}
    (h : as.mapM f = .error e) : ∃ a ∈ as, f a = .error e := by
  induction as with
  | nil => cases h
  | cons a as ih =>
      rw [List.mapM_cons] at h
      cases hfirst : f a with
      | error e' =>
          rw [hfirst] at h
          cases h
          exact ⟨a, List.mem_cons_self, hfirst⟩
      | ok b =>
          cases hrest : as.mapM f with
          | ok bs => simp [hfirst, hrest, bind, Except.bind, pure, Except.pure] at h
          | error e' =>
              simp only [hfirst, hrest, bind, Except.bind, Except.error.injEq] at h
              obtain ⟨a', ha', hfa'⟩ := ih (hrest.trans (congrArg _ h))
              exact ⟨a', List.mem_cons_of_mem a ha', hfa'⟩

namespace Settings

/-- The error that a value raises in place of names: it is a number, a truth value or a moment, or
the first item without a text is nested too deeply. -/
def raisedOf? (depth : Nat) : Value → Option Error
  | .null => none
  | .str _ => none
  | .scalar s => some (.noNames s.kind)
  | .list items =>
    match items.mapM (Value.text depth) with
    | .error .tooDeep => some .tooDeep
    | _ => none
  | .object _ => none

/-- The settings that are lists of names. -/
def nameKeys : List String := ["sql_functions", "interpolating_functions", "statement_parameters"]

/-- The first error that raw detection settings raise in place of names. -/
def misplacedIn? (depth : Nat) (detection : Value) : Option Error :=
  nameKeys.findSome? fun key => (detection.get? key).bind (raisedOf? depth)

/-- The same of all raw settings. -/
def misplaced? (depth : Nat) (raw : Value) : Option Error :=
  (raw.get? "detection").bind (misplacedIn? depth)

/-- A value that stands for a single name in raw settings. -/
def NamedIn (raw item : Value) : Prop :=
  ∃ detection, raw.get? "detection" = some detection ∧ ∃ key ∈ nameKeys, ∃ items,
    detection.get? key = some (.list items) ∧ item ∈ items

theorem misplacedIn?_of_ne_object {depth : Nat} {v : Value} (h : ∀ es, v ≠ .object es) :
    misplacedIn? depth v = none := by
  cases v with
  | object es => exact absurd rfl (h es)
  | scalar s => rfl
  | list items => rfl

theorem misplaced?_of_ne_object {depth : Nat} {v : Value} (h : ∀ es, v ≠ .object es) :
    misplaced? depth v = none := by
  cases v with
  | object es => exact absurd rfl (h es)
  | scalar s => rfl
  | list items => rfl

theorem raised?_append (fs gs : List Fault) :
    raised? (fs ++ gs) = (raised? fs).or (raised? gs) := by
  simp only [raised?, List.findSome?_append]

/-- Only a name that is nested too deeply raises the error of the call stack. -/
theorem exists_namedIn_of_misplaced {depth : Nat} {raw : Value}
    (h : misplaced? depth raw = some .tooDeep) :
    ∃ item, NamedIn raw item ∧ depth < item.height := by
  obtain ⟨detection, hdetection, hsection⟩ := Option.bind_eq_some_iff.1 h
  obtain ⟨key, hkey, hraised⟩ := List.exists_of_findSome?_eq_some hsection
  obtain ⟨v, hv, hraised⟩ := Option.bind_eq_some_iff.1 hraised
  cases v with
  | object es => cases hraised
  | scalar s => cases s <;> cases hraised
  | list items =>
      have hitems : items.mapM (Value.text depth) = .error .tooDeep := by
        dsimp only [raisedOf?] at hraised
        split at hraised
        · assumption
        · cases hraised
      obtain ⟨item, hitem, htext⟩ := exists_mem_of_mapM_eq_error hitems
      exact ⟨item, ⟨detection, hdetection, key, hkey, items, hv, hitem⟩,
        Value.lt_height_of_text htext⟩

end Settings

open Settings

/-! ### Checks -/

namespace Checked

variable {α β : Type} {P : α → Prop} {Q : β → Prop} {wrong wrong' : Option Error}

/-- What a check comes to. -/
structure Reads (P : α → Prop) (wrong : Option Error) (c : Checked α) : Prop where
  /-- Without faults there is a result, and it has the property. -/
  result : c.faults = [] → ∃ a, c.result = some a ∧ P a
  /-- The first error that is raised. -/
  raised?_eq : raised? c.faults = wrong

theorem reads_ok {a : α} (h : P a) : Reads P none (ok a) :=
  ⟨fun _ => ⟨a, rfl, h⟩, rfl⟩

theorem reads_fail (path : List String) {kind : FaultKind} (h : raisedBy? kind = wrong) :
    Reads P wrong (fail path kind) := by
  refine ⟨fun hnil => absurd hnil (List.cons_ne_nil _ _), ?_⟩
  cases hwrong : wrong <;> simp [fail, raised?, h, hwrong]

/-- One more field. -/
theorem Reads.ap {f : Checked (β → α)} {c : Checked β}
    (hf : Reads (fun g => ∀ b, Q b → P (g b)) wrong f) (hc : Reads Q wrong' c) :
    Reads P (wrong.or wrong') (f.ap c) := by
  constructor
  · intro hnil
    obtain ⟨hfnil, hcnil⟩ := List.append_eq_nil_iff.1 hnil
    obtain ⟨g, hg, hgood⟩ := hf.result hfnil
    obtain ⟨b, hb, hbgood⟩ := hc.result hcnil
    exact ⟨g b, by simp [Checked.ap, hg, hb], hgood b hbgood⟩
  · rw [Checked.ap, raised?_append, hf.raised?_eq, hc.raised?_eq]

/-- Faults found elsewhere, none of them about names. -/
theorem Reads.withFaults {c : Checked α} (hc : Reads P wrong c) {faults : List Fault}
    (hfaults : raised? faults = none) : Reads P wrong (c.withFaults faults) := by
  constructor
  · intro hnil
    obtain ⟨hcnil, rfl⟩ := List.append_eq_nil_iff.1 hnil
    exact hc.result hcnil
  · rw [Checked.withFaults, raised?_append, hc.raised?_eq, hfaults, Option.or_none]

/-- A further check of the result, which has nothing to do with names. -/
theorem Reads.andThen {c : Checked β} {f : β → Checked α} (hc : Reads Q wrong c)
    (hf : ∀ b, Reads (fun a => Q b → P a) none (f b)) : Reads P wrong (c.andThen f) := by
  unfold Checked.andThen
  cases hresult : c.result with
  | none =>
      refine ⟨fun hnil => ?_, hc.raised?_eq⟩
      obtain ⟨b, hb, -⟩ := hc.result hnil
      rw [hresult] at hb
      cases hb
  | some b =>
      constructor
      · intro hnil
        obtain ⟨hfnil, hcnil⟩ := List.append_eq_nil_iff.1 hnil
        obtain ⟨a, ha, hgood⟩ := (hf b).result hfnil
        obtain ⟨b', hb', hbgood⟩ := hc.result hcnil
        obtain rfl : b = b' := Option.some.inj (hresult.symm.trans hb')
        exact ⟨a, by simp [Checked.withFaults, hcnil, ha], hgood hbgood⟩
      · dsimp only
        rw [Checked.withFaults, raised?_append, (hf b).raised?_eq,
          hc.raised?_eq, Option.none_or]

/-- A check ends with its result, or with a list of faults that is not empty. -/
theorem Reads.toExcept {c : Checked α} (hc : Reads P wrong c) :
    (∃ a, c.toExcept = .ok a ∧ P a) ∨ ∃ fs, fs ≠ [] ∧ c.toExcept = .error fs := by
  cases hfaults : c.faults with
  | nil =>
      obtain ⟨a, ha, hgood⟩ := hc.result hfaults
      exact Or.inl ⟨a, by simp [Checked.toExcept, hfaults, ha], hgood⟩
  | cons f fs =>
      refine Or.inr ⟨(f :: fs).mergeSort Fault.le, ?_, by simp [Checked.toExcept, hfaults]⟩
      intro hnil
      have hlength := congrArg List.length hnil
      rw [List.length_mergeSort] at hlength
      cases hlength

end Checked

/-! ### Single values -/

namespace Check

open Checked

/-- A plain check of a value, with a default for none. -/
theorem reads_field {α : Type} {P : α → Prop} {wrong : Value → Option Error}
    {check : List String → Value → Checked α} (hcheck : ∀ path v, Reads P (wrong v) (check path v))
    (entries : List (Scalar × Value)) (path : List String) (key : String) (default : α)
    (hdefault : P default) :
    Reads P ((Value.lookup key entries).bind wrong) (field entries path key default check) := by
  unfold field
  cases Value.lookup key entries with
  | none => exact reads_ok hdefault
  | some v => exact hcheck _ v

theorem reads_plainField {α : Type} {P : α → Prop} {check : List String → Value → Checked α}
    (hcheck : ∀ path v, Reads P none (check path v)) (entries : List (Scalar × Value))
    (path : List String) (key : String) {default : α} (hdefault : P default) :
    Reads P none (field entries path key default check) := by
  have hfield := reads_field hcheck entries path key default hdefault
  rwa [Option.bind_fun_none] at hfield

theorem raisedBy?_of_plainInt {t : Text} {kind : FaultKind} (h : plainInt t = .error kind) :
    raisedBy? kind = none := by
  simp only [plainInt] at h
  split_ifs at h <;> cases h <;> rfl

theorem raisedBy?_of_readInt {t : Text} {kind : FaultKind} (h : readInt t = .error kind) :
    raisedBy? kind = none := by
  unfold readInt at h
  split at h
  · split at h
    · exact raisedBy?_of_plainInt h
    · cases h
      rfl
  · exact raisedBy?_of_plainInt h

theorem reads_readInt (path : List String) (t : Text) :
    Reads (fun _ => True) none (checked path (readInt t)) := by
  cases hread : readInt t with
  | ok n => exact reads_ok trivial
  | error kind => exact reads_fail path (raisedBy?_of_readInt hread)

theorem reads_wholeNumber (path : List String) (v : Value) :
    Reads (fun _ => True) none (wholeNumber path v) := by
  unfold wholeNumber
  split
  · exact reads_ok trivial
  · exact reads_ok trivial
  · split_ifs
    · exact reads_fail path rfl
    · exact reads_ok trivial
    · exact reads_fail path rfl
  · exact reads_fail path rfl
  · exact reads_readInt path _
  · exact reads_fail path rfl

theorem reads_positive (path : List String) (v : Value) :
    Reads (fun n => 0 < n) none (positive path v) := by
  refine (reads_wholeNumber path v).andThen fun n => ?_
  split
  · next hpos => exact reads_ok fun _ => by omega
  · exact reads_fail path rfl

theorem reads_natural (path : List String) (v : Value) :
    Reads (fun _ => True) none (natural path v) := by
  refine (reads_wholeNumber path v).andThen fun n => ?_
  split
  · exact reads_ok fun _ => trivial
  · exact reads_fail path rfl

theorem reads_truth (path : List String) (v : Value) :
    Reads (fun _ => True) none (truth path v) := by
  unfold truth
  split
  · exact reads_ok trivial
  · split_ifs
    · exact reads_ok trivial
    · exact reads_ok trivial
    · exact reads_fail path rfl
    · exact reads_fail path rfl
  · split_ifs
    · exact reads_ok trivial
    · exact reads_ok trivial
    · exact reads_fail path rfl
  · split
    · exact reads_ok trivial
    · exact reads_fail path rfl
  · exact reads_fail path rfl

theorem reads_string (path : List String) (v : Value) :
    Reads (fun _ => True) none (string path v) := by
  unfold string
  split
  · exact reads_ok trivial
  · exact reads_fail path rfl

theorem reads_character (path : List String) (v : Value) :
    Reads (fun _ => True) none (character path v) := by
  refine (reads_string path v).andThen fun t => ?_
  split
  · exact reads_ok fun _ => trivial
  · exact reads_fail path rfl

theorem reads_keywordCase (path : List String) (v : Value) :
    Reads (fun _ => True) none (Check.keywordCase path v) := by
  unfold Check.keywordCase
  split
  · exact reads_ok trivial
  · exact reads_ok trivial
  · exact reads_ok trivial
  · exact reads_ok trivial
  · exact reads_fail path rfl

/-- Names are the one kind of value whose check may raise an error. -/
theorem reads_names (depth : Nat) (path : List String) (v : Value) :
    Reads (fun _ => True) (raisedOf? depth v) (names depth path v) := by
  cases v with
  | list items =>
      rw [names, raisedOf?]
      cases items.mapM (Value.text depth) with
      | ok texts => exact reads_ok trivial
      | error e => cases e <;> exact reads_fail path rfl
  | object entries =>
      rw [names]
      cases htexts : entries.mapM (Scalar.text ∘ Prod.fst) with
      | ok texts => exact reads_ok trivial
      | error e =>
          obtain ⟨entry, -, htext⟩ := exists_mem_of_mapM_eq_error htexts
          obtain rfl := Scalar.eq_oversized_of_text htext
          exact reads_fail path rfl
  | scalar s =>
      cases s with
      | null => exact reads_ok trivial
      | str s => exact reads_ok trivial
      | _ => exact reads_fail path rfl

/-! ### Sections -/

theorem raised?_keyFaults (path keys : List String) (entries : List (Scalar × Value)) :
    raised? (entries.filterMap fun e => keyFault? path keys e.1) = none := by
  rw [raised?, List.findSome?_eq_none_iff]
  intro fault hfault
  obtain ⟨e, -, he⟩ := List.mem_filterMap.1 hfault
  unfold keyFault? at he
  split at he
  · split at he
    · cases he
    · obtain rfl := Option.some.inj he
      rfl
  · obtain rfl := Option.some.inj he
    rfl

/-- A section is read from its entries. -/
theorem reads_fields {α : Type} {P : α → Prop} (wrong : Value → Option Error)
    {path keys : List String} {build : List (Scalar × Value) → Checked α}
    (hbuild : ∀ es, Reads P (wrong (.object es)) (build es))
    (hwrong : ∀ v, (∀ es, v ≠ .object es) → wrong v = none) (v : Value) :
    Reads P (wrong v) (fields path keys build v) := by
  unfold fields
  split
  · exact (hbuild _).withFaults (raised?_keyFaults path keys _)
  · next hobject =>
      rw [hwrong v hobject]
      exact reads_fail path rfl

end Check

open Check Checked

theorem Limits.reads_check (path : List String) (v : Value) :
    Reads Limits.Valid none (Limits.check path v) := by
  refine reads_fields (fun _ => none) (fun es => ?_) (fun _ _ => rfl) v
  have hpositive := reads_plainField reads_positive es path
  have hd := Limits.valid_default
  refine (((((((reads_ok ?_).ap (hpositive _ hd.documentSize_pos)).ap
    (hpositive _ hd.functionMatches_pos)).ap (hpositive _ hd.parenSearch_pos)).ap
    (hpositive _ hd.callLength_pos)).ap (reads_plainField reads_natural es path _ trivial)).ap
    (hpositive _ hd.argumentLookback_pos)).ap (hpositive _ hd.cacheLifetime_pos)
  intro size hsize calls hcalls paren hparen length hlength lines _ argument hargument life hlife
  exact ⟨hsize, hcalls, hparen, hlength, hargument, hlife⟩

theorem Detection.reads_checkMarks (path : List String) (d : Detection) :
    Reads (fun a => d.limits.Valid → Detection.Valid a) none (Detection.checkMarks path d) := by
  unfold Detection.checkMarks
  split_ifs with hquotes hcomment
  · exact reads_fail path rfl
  · exact reads_fail path rfl
  · exact reads_ok fun hlimits => ⟨hlimits, by simpa using hquotes, by simpa using hcomment⟩

theorem Detection.reads_check (depth : Nat) (path : List String) (v : Value) :
    Reads Detection.Valid (misplacedIn? depth v) (Detection.check depth path v) := by
  refine Reads.andThen (Q := fun d => d.limits.Valid) ?_ (Detection.reads_checkMarks path)
  refine reads_fields (misplacedIn? depth) (fun es => ?_) (fun _ => misplacedIn?_of_ne_object) v
  -- only the three lists of names count, in their order
  have hwrong : misplacedIn? depth (.object es) =
      (((((none.or ((Value.lookup "sql_functions" es).bind (raisedOf? depth))).or
        ((Value.lookup "interpolating_functions" es).bind (raisedOf? depth))).or
        ((Value.lookup "statement_parameters" es).bind (raisedOf? depth))).or none).or none).or
        none := by
    simp only [misplacedIn?, nameKeys, Value.get?, List.findSome?_cons,
      List.findSome?_nil, Option.or_none, Option.none_or]
    cases (Value.lookup "sql_functions" es).bind (raisedOf? depth) with
    | some k => rfl
    | none =>
        cases (Value.lookup "interpolating_functions" es).bind (raisedOf? depth) with
        | some k => rfl
        | none => cases (Value.lookup "statement_parameters" es).bind (raisedOf? depth) <;> rfl
  have hnames := fun key default => reads_field (reads_names depth) es path key default trivial
  rw [hwrong]
  refine ((((((reads_ok ?_).ap (hnames _ _)).ap (hnames _ _)).ap (hnames _ _)).ap
    (reads_plainField reads_string es path _ trivial)).ap
    (reads_plainField reads_character es path _ trivial)).ap
    (reads_plainField Limits.reads_check es path _ Limits.valid_default)
  intro sql _ glue _ statement _ quotes _ comment _ limits hlimits
  exact hlimits

theorem FormatOptions.reads_check (path : List String) (v : Value) :
    Reads FormatOptions.Valid none (FormatOptions.check path v) := by
  refine reads_fields (fun _ => none) (fun es => ?_) (fun _ _ => rfl) v
  refine (((reads_ok ?_).ap (reads_plainField reads_keywordCase es path _ trivial)).ap
    (reads_plainField reads_truth es path _ trivial)).ap
    (reads_plainField reads_positive es path _ FormatOptions.valid_default.indentWidth_pos)
  intro keywords _ reindent _ width hwidth
  exact ⟨hwidth⟩

theorem DiagnosticOptions.reads_check (path : List String) (v : Value) :
    Reads (fun _ => True) none (DiagnosticOptions.check path v) := by
  refine reads_fields (fun _ => none) (fun es => ?_) (fun _ _ => rfl) v
  exact ((reads_ok fun _ _ _ _ => trivial).ap (reads_plainField reads_truth es path _ trivial)).ap
    (reads_plainField reads_truth es path _ trivial)

namespace Settings

/-! ### All settings -/

/-- Raw settings without faults keep the rules. -/
theorem reads_check (depth : Nat) (v : Value) :
    Reads Settings.Valid (misplaced? depth v) (check depth v) := by
  refine reads_fields (misplaced? depth) (fun es => ?_) (fun _ => misplaced?_of_ne_object) v
  have hwrong : misplaced? depth (.object es) =
      ((((none.or ((Value.lookup "detection" es).bind (misplacedIn? depth))).or none).or none).or
        none).or none := by
    simp only [Option.or_none, Option.none_or]
    rfl
  rw [hwrong]
  refine (((((reads_ok ?_).ap
    (reads_field (Detection.reads_check depth) es [] _ _ Detection.valid_default)).ap
    (reads_plainField FormatOptions.reads_check es [] _ FormatOptions.valid_default)).ap
    (reads_plainField DiagnosticOptions.reads_check es [] _ trivial)).ap
    (reads_plainField reads_truth es [] _ trivial)).ap
    (reads_plainField reads_truth es [] _ trivial)
  intro detection hdetection formatting hformatting diagnostics _ highlighting _ completion _
  exact ⟨hdetection, hformatting⟩

/-- The errors that are raised are of two kinds. -/
theorem raised?_cases {faults : List Fault} {e : Error} (h : raised? faults = some e) :
    (∃ kind, e = .noNames kind) ∨ e = .tooDeep := by
  obtain ⟨fault, -, hraised⟩ := List.exists_of_findSome?_eq_some h
  cases hkind : fault.kind with
  | noNames kind =>
      rw [hkind] at hraised
      exact Or.inl ⟨kind, (Option.some.inj hraised).symm⟩
  | tooDeep =>
      rw [hkind] at hraised
      exact Or.inr (Option.some.inj hraised).symm
  | _ =>
      rw [hkind] at hraised
      cases hraised

/-- **Settings that keep the rules or the error of settings**, whatever a raw value holds: the error
says that the value is no object, or it lists faults.  Only two things give neither of them, and
their failures are of other kinds: a number, a truth value or a moment that stands where names
should, and a name made of lists and objects that stand in each other more than `depth` times. -/
theorem parse_outcome (depth : Nat) (source : String) (raw : Value) :
    (∃ s, parse depth source raw = .ok s ∧ s.Valid ∧ misplaced? depth raw = none) ∨
      (∃ e, parse depth source raw = .error e ∧
        (e = .notObject source ∨ ∃ faults, faults ≠ [] ∧ e = .invalid source faults) ∧
        (LoadError.content e).kind = "ConfigError" ∧ misplaced? depth raw = none) ∨
      (∃ kind, parse depth source raw = .error (.noNames kind) ∧
        (LoadError.content (.noNames kind)).kind = "TypeError" ∧
        misplaced? depth raw = some (.noNames kind)) ∨
      (parse depth source raw = .error .tooDeep ∧
        (LoadError.content .tooDeep).kind = "RecursionError" ∧
        misplaced? depth raw = some .tooDeep ∧
        ∃ item, NamedIn raw item ∧ depth < item.height) := by
  unfold parse
  split
  · next habsent =>
      refine Or.inl ⟨{}, rfl, valid_default, ?_⟩
      cases raw with
      | object es =>
          have hnil : es = [] := by simpa [Value.truthy] using habsent
          rw [hnil]
          rfl
      | scalar s => rfl
      | list items => rfl
  · cases raw with
    | scalar s => exact Or.inr (Or.inl ⟨_, rfl, Or.inl rfl, rfl, rfl⟩)
    | list items => exact Or.inr (Or.inl ⟨_, rfl, Or.inl rfl, rfl, rfl⟩)
    | object es =>
        have hreads := reads_check depth (.object es)
        have hraised := hreads.raised?_eq
        dsimp only
        cases hmisplaced : misplaced? depth (.object es) with
        | some e =>
            rw [hmisplaced] at hraised
            rw [hraised]
            rcases raised?_cases hraised with ⟨kind, rfl⟩ | rfl
            · exact Or.inr (Or.inr (Or.inl ⟨kind, rfl, rfl, rfl⟩))
            · exact Or.inr (Or.inr (Or.inr ⟨rfl, rfl, rfl,
                exists_namedIn_of_misplaced hmisplaced⟩))
        | none =>
            rw [hraised, hmisplaced]
            rcases hreads.toExcept with ⟨s, hs, hvalid⟩ | ⟨faults, hfaults, herror⟩
            · exact Or.inl ⟨s, by rw [hs]; rfl, hvalid, rfl⟩
            · exact Or.inr (Or.inl
                ⟨_, by rw [herror]; rfl, Or.inr ⟨faults, hfaults, rfl⟩, rfl, rfl⟩)

/-- A truth value in place of names is such a value; a number or a list among names is not, unless
something stands in the list that is too deep. -/
example :
    let named (v : Value) := Value.record [("detection", .record [("sql_functions", .list [.int 5]),
      ("statement_parameters", v)])]
    misplaced? 1 (named (.bool true)) = some (.noNames "bool") ∧
      misplaced? 1 (named (.list [.list [], .int 5])) = none ∧
      misplaced? 1 (named (.list [.list [.int 5]])) = some .tooDeep := by
  decide +kernel

end Settings

end EmbeddedSql
