/-
**When a check fails for good.**

The database answers a question with rows of its own choosing, and most of what can be wrong with
them still leads to a verdict: no connection, an error, no row, an empty cell, a text that is no
JSON, a report of another kind of error, a position that is no number.  Some answers do not, and
then the failure goes past the region it belongs to: no region of the document keeps a diagnostic.
Suggestions only need the text of a cell, but not every cell has one.

Main definitions:

* `Database.nextRows`, `Database.firstCell?` — the rows of the next response, and the first cell;
* `Database.Unreadable`, `Database.Fails` — a cell that leads to no verdict, and a query that gets
  such a cell;
* `Diagnostic.outcomes` — what every region of a document gives.

Main results:

* `Database.verdictOfCell_eq_error_iff` — the cells that lead to no verdict;
* `Database.suggestions_eq_error_iff` — when there are no suggestions;
* `Diagnostic.ofRegion_eq_error_iff` — when the check of a region fails;
* `Diagnostic.ofRegions_eq` — one failing region takes the diagnostics of all;
* `Diagnostic.degrades_unless_unreadable` — **verdicts fail on unreadable cells only, and a failure
  takes the whole document**.
-/

import EmbeddedSql.Proofs.Database.Statement
import EmbeddedSql.Proofs.Diagnostic.Place
import EmbeddedSql.Proofs.Value.Display

set_option relaxedAutoImplicit false
set_option autoImplicit false

namespace EmbeddedSql

/-! ### Reports -/

namespace Verdict

/-- Only an infinite number is no position. -/
theorem readPosition_eq_error_iff {v : Value} :
    (∃ e, readPosition v = .error e) ↔ ∃ negative, v = .real (.infinite negative) := by
  constructor
  · rintro ⟨e, he⟩
    fun_cases readPosition v with
    | case4 negative => exact ⟨negative, rfl⟩
    | _ => simp_all [readPosition]
  · rintro ⟨negative, rfl⟩
    exact ⟨.overflow, rfl⟩

/-- The error that entries tell of, if any. -/
theorem ofReport_eq_error_iff {entries : List (Scalar × Value)} {length : Nat} :
    (∃ e, ofReport entries length = .error e) ↔
      ((Value.lookup "error" entries).getD (.bool false)).truthy = true ∧
        ∃ negative, Value.lookup "position" entries = some (.real (.infinite negative)) := by
  have hposition :
      (∃ negative, Value.lookup "position" entries = some (.real (.infinite negative))) ↔
      ∃ e, readPosition ((Value.lookup "position" entries).getD (.int 0)) = .error e := by
    rw [readPosition_eq_error_iff]
    cases Value.lookup "position" entries <;> simp
  rw [hposition, ofReport]
  cases ((Value.lookup "error" entries).getD (.bool false)).truthy with
  | false => simp
  | true =>
      cases readPosition ((Value.lookup "position" entries).getD (.int 0)) with
      | error e => exact ⟨fun _ => ⟨rfl, e, rfl⟩, fun _ => ⟨e, rfl⟩⟩
      | ok p => simp [bind, Except.bind, pure, Except.pure]

/-- A position is held to the query. -/
theorem position_le_of_ofReport {entries : List (Scalar × Value)} {length : Nat} {v : Verdict}
    (h : ofReport entries length = .ok v) : v.position ≤ length := by
  rw [ofReport] at h
  split at h
  · cases hposition : readPosition ((Value.lookup "position" entries).getD (.int 0)) with
    | error e => simp [hposition, bind, Except.bind] at h
    | ok p =>
        simp only [hposition, bind, Except.bind, pure, Except.pure, Except.ok.injEq] at h
        obtain rfl := h
        exact Nat.min_le_right _ _
  · obtain rfl := Except.ok.inj h
    exact Nat.zero_le _

end Verdict

/-! ### Suggestions -/

/-- What is made of two results is missing if one of them is. -/
theorem exists_bind_eq_error_iff {ε α β γ : Type} {x : Except ε α} {y : Except ε β}
    {f : α → β → γ} : (∃ e, (x >>= fun a => y >>= fun b => pure (f a b)) = .error e) ↔
      (∃ e, x = .error e) ∨ ∃ e, y = .error e := by
  cases x <;> cases y <;> simp [bind, Except.bind, pure, Except.pure]

namespace Suggestion

/-- The cells that are no suggestion and not passed over either. -/
theorem ofCell?_eq_error_iff {depth : Nat} {cell : Value} :
    (∃ e, ofCell? depth cell = .error e) ↔ ¬ cell.Printable depth := by
  rw [← Value.text_eq_error_iff]
  fun_cases ofCell? depth cell with
  | case1 => simp [Value.text, Scalar.text, Scalar.display]
  | case2 => cases cell.text depth <;> simp [bind, Except.bind, pure, Except.pure]

/-- One cell without a text takes the suggestions of all. -/
theorem ofRows_eq_error_iff {depth : Nat} {rows : List (List Value)} :
    (∃ e, ofRows depth rows = .error e) ↔
      ∃ row ∈ rows, ∃ cell, row.head? = some cell ∧ ¬ cell.Printable depth := by
  induction rows with
  | nil => simp [ofRows]
  | cons row rows ih =>
      cases row with
      | nil => simpa [ofRows] using ih
      | cons cell row =>
          rw [ofRows, exists_bind_eq_error_iff, ofCell?_eq_error_iff, ih]
          simp

end Suggestion

/-! ### Cells -/

namespace Database

variable {depths : Depths}

/-- A cell that leads to no verdict. -/
inductive Unreadable (depths : Depths) : Value → Prop
  /-- Something present that is no text. -/
  | notText {cell : Value} (hpresent : cell.truthy = true) (htext : ∀ s, cell ≠ .str s) :
      Unreadable depths cell
  /-- A JSON text that passes a limit of the reader. -/
  | limit {s : String} {e : Json.Error} (hparse : Json.parse depths.json s.toList = .error e)
      (hlimit : ∀ what left, e ≠ .expected what left) : Unreadable depths (.str s)
  /-- A JSON text that stands for no object. -/
  | notObject {s : String} {report : Value} (hparse : Json.parse depths.json s.toList = .ok report)
      (hobject : ∀ entries, report ≠ .object entries) : Unreadable depths (.str s)
  /-- A report of an error whose type has no text. -/
  | noType {s : String} {entries : List (Scalar × Value)}
      (hparse : Json.parse depths.json s.toList = .ok (.object entries))
      (hfailed : ((Value.lookup "error" entries).getD .null).truthy = true)
      (htype : ¬ ((Value.lookup "error_type" entries).getD (.str "")).Printable depths.display) :
      Unreadable depths (.str s)
  /-- A report of an error that is not the parser's, with a message that has no text. -/
  | noMessage {s : String} {entries : List (Scalar × Value)}
      (hparse : Json.parse depths.json s.toList = .ok (.object entries))
      (hfailed : ((Value.lookup "error" entries).getD .null).truthy = true)
      (hkind : (((Value.lookup "error_type" entries).getD (.str "")).text depths.display).map
        String.toLower ≠ .ok "parser")
      (hmessage : ¬ ((Value.lookup "error_message" entries).getD .null).Printable depths.display) :
      Unreadable depths (.str s)
  /-- A report of an error of the parser at an infinite position. -/
  | infinite {s : String} {entries : List (Scalar × Value)} {negative : Bool}
      (hparse : Json.parse depths.json s.toList = .ok (.object entries))
      (hfailed : ((Value.lookup "error" entries).getD .null).truthy = true)
      (hkind : (((Value.lookup "error_type" entries).getD (.str "")).text depths.display).map
        String.toLower = .ok "parser")
      (hposition : Value.lookup "position" entries = some (.real (.infinite negative))) :
      Unreadable depths (.str s)

theorem reportText_eq_error_iff {depth : Nat} {entries : List (Scalar × Value)} {key : String}
    {default : Value} : (∃ e, reportText depth entries key default = .error e) ↔
      ¬ ((Value.lookup key entries).getD default).Printable depth := by
  rw [← Value.text_eq_error_iff, reportText]
  cases ((Value.lookup key entries).getD default).text depth <;> simp [Except.mapError]

/-- When it cannot be told whose error a report is about. -/
theorem isOfParser_eq_error_iff {depth : Nat} {entries : List (Scalar × Value)} :
    (∃ e, isOfParser depth entries = .error e) ↔
      ¬ ((Value.lookup "error_type" entries).getD (.str "")).Printable depth ∨
        (((Value.lookup "error_type" entries).getD (.str "")).text depth).map String.toLower ≠
            .ok "parser" ∧
          ¬ ((Value.lookup "error_message" entries).getD .null).Printable depth := by
  rw [ne_eq, ← isOfParser_eq_true_iff, ← reportText_eq_error_iff, ← reportText_eq_error_iff,
    isOfParser]
  cases reportText depth entries "error_type" (.str "") with
  | error e => simp [bind, Except.bind]
  | ok kind =>
      by_cases hkind : kind.toLower = "parser"
      · simp [bind, Except.bind, pure, Except.pure, hkind]
      · cases reportText depth entries "error_message" .null <;>
          simp [bind, Except.bind, pure, Except.pure, hkind]

/-- When a report has no verdict: it cannot be told whose error it is about, or it is about one of
the parser at an infinite position. -/
theorem verdictOfReport_object_eq_error_iff {depth : Nat} {entries : List (Scalar × Value)}
    {length : Nat} : (∃ e, verdictOfReport depth (.object entries) length = .error e) ↔
      ((Value.lookup "error" entries).getD .null).truthy = true ∧
        ((∃ e, isOfParser depth entries = .error e) ∨ isOfParser depth entries = .ok true ∧
          ∃ negative, Value.lookup "position" entries = some (.real (.infinite negative))) := by
  have herror : ((Value.lookup "error" entries).getD (.bool false)).truthy =
      ((Value.lookup "error" entries).getD .null).truthy := by
    cases Value.lookup "error" entries <;> rfl
  dsimp only [verdictOfReport]
  by_cases hfailed : ((Value.lookup "error" entries).getD .null).truthy = true
  · rw [if_pos hfailed]
    cases hparser : isOfParser depth entries with
    | error e => simp [hfailed, bind, Except.bind]
    | ok ofParser =>
        cases ofParser with
        | false => simp [bind, Except.bind, pure, Except.pure]
        | true =>
            have hreport : (∃ e, Verdict.ofReport entries length = .error e) ↔ _ :=
              Verdict.ofReport_eq_error_iff
            rw [herror] at hreport
            simpa [bind, Except.bind, pure, Except.pure, hfailed] using hreport
  · rw [if_neg hfailed, Verdict.ofReport_eq_error_iff, herror]
    simp [hfailed]

/-- The verdict on a text. -/
theorem verdictOfCell_str (s : String) (length : Nat) :
    verdictOfCell depths (some (.str s)) length =
      if s.isEmpty then .ok (.failed "No validation result")
      else
        match Json.parse depths.json s.toList with
        | .ok report => verdictOfReport depths.display report length
        | .error (.expected what left) =>
          .ok (.failed ("Validation result parsing error: " ++
            Json.Error.message s.toList (.expected what left)))
        | .error e => .error (.unreadable e) := by
  have hpresent : (Value.str s).truthy = !s.isEmpty := rfl
  rw [verdictOfCell, Option.filter_some, hpresent]
  cases s.isEmpty <;> rfl

/-- A text that stands for a value is not empty. -/
theorem isEmpty_of_parse {depth : Nat} {s : String} {v : Value}
    (h : Json.parse depth s.toList = .ok v) : s.isEmpty = false := by
  have hpresent := truthy_of_parse h
  simpa [Value.truthy, Scalar.truthy] using hpresent

theorem verdictOfCell_of_parse {s : String} {report : Value}
    (h : Json.parse depths.json s.toList = .ok report) (length : Nat) :
    verdictOfCell depths (some (.str s)) length = verdictOfReport depths.display report length := by
  rw [verdictOfCell_str, isEmpty_of_parse h, if_neg Bool.false_ne_true, h]

/-- The empty text is short of a value, which is no limit. -/
theorem isEmpty_of_limit {depth : Nat} {s : String} {e : Json.Error}
    (h : Json.parse depth s.toList = .error e) (hlimit : ∀ what left, e ≠ .expected what left) :
    s.isEmpty = false := by
  rw [Bool.eq_false_iff]
  intro hempty
  obtain rfl : s = "" := String.isEmpty_iff.1 hempty
  rw [String.toList_empty, Json.parse_nil] at h
  exact hlimit _ _ (Except.error.inj h).symm

theorem Unreadable.verdictOfCell_eq {cell : Value} (h : Unreadable depths cell) (length : Nat) :
    ∃ e, verdictOfCell depths (some cell) length = .error e := by
  cases h with
  | notText hpresent htext =>
      refine ⟨.notText, ?_⟩
      rw [verdictOfCell, Option.filter_some, if_pos hpresent]
      split
      · next hnone => cases hnone
      · next s hsome => exact absurd (Option.some.inj hsome) (htext s)
      · rfl
  | @limit s e hparse hlimit =>
      refine ⟨.unreadable e, ?_⟩
      rw [verdictOfCell_str, isEmpty_of_limit hparse hlimit, if_neg Bool.false_ne_true, hparse]
      cases e with
      | expected what left => exact absurd rfl (hlimit what left)
      | _ => rfl
  | @notObject s report hparse hobject =>
      refine ⟨.notObject, ?_⟩
      rw [verdictOfCell_of_parse hparse]
      cases report with
      | object entries => exact absurd rfl (hobject entries)
      | _ => rfl
  | noType hparse hfailed htype =>
      rw [verdictOfCell_of_parse hparse]
      exact verdictOfReport_object_eq_error_iff.2
        ⟨hfailed, Or.inl (isOfParser_eq_error_iff.2 (Or.inl htype))⟩
  | noMessage hparse hfailed hkind hmessage =>
      rw [verdictOfCell_of_parse hparse]
      exact verdictOfReport_object_eq_error_iff.2
        ⟨hfailed, Or.inl (isOfParser_eq_error_iff.2 (Or.inr ⟨hkind, hmessage⟩))⟩
  | infinite hparse hfailed hkind hposition =>
      rw [verdictOfCell_of_parse hparse]
      exact verdictOfReport_object_eq_error_iff.2
        ⟨hfailed, Or.inr ⟨isOfParser_eq_true_iff.2 hkind, _, hposition⟩⟩

theorem unreadable_of_verdictOfCell {cell : Value} {length : Nat} {e : Verdict.Error}
    (h : verdictOfCell depths (some cell) length = .error e) : Unreadable depths cell := by
  by_cases htext : ∃ s, cell = .str s
  · obtain ⟨s, rfl⟩ := htext
    rw [verdictOfCell_str] at h
    cases hparse : Json.parse depths.json s.toList with
    | error l =>
        rw [hparse] at h
        refine Unreadable.limit hparse ?_
        rintro what left rfl
        split at h <;> cases h
    | ok report =>
        rw [isEmpty_of_parse hparse, if_neg Bool.false_ne_true, hparse] at h
        cases report with
        | object entries =>
            obtain ⟨hfailed, hunknown | ⟨hparser, negative, hposition⟩⟩ :=
              verdictOfReport_object_eq_error_iff.1 ⟨e, h⟩
            · rcases isOfParser_eq_error_iff.1 hunknown with htype | ⟨hkind, hmessage⟩
              · exact Unreadable.noType hparse hfailed htype
              · exact Unreadable.noMessage hparse hfailed hkind hmessage
            · exact Unreadable.infinite hparse hfailed (isOfParser_eq_true_iff.1 hparser) hposition
        | _ => exact Unreadable.notObject hparse (by simp)
  · refine Unreadable.notText ?_ fun s hs => htext ⟨s, hs⟩
    by_contra habsent
    rw [verdictOfCell, Option.filter_some, if_neg habsent] at h
    cases h

/-- The cells that lead to no verdict. -/
theorem verdictOfCell_eq_error_iff {cell : Option Value} {length : Nat} :
    (∃ e, verdictOfCell depths cell length = .error e) ↔
      ∃ v, cell = some v ∧ Unreadable depths v := by
  constructor
  · rintro ⟨e, he⟩
    cases cell with
    | none => cases he
    | some v => exact ⟨v, rfl, unreadable_of_verdictOfCell he⟩
  · rintro ⟨v, rfl, hv⟩
    exact hv.verdictOfCell_eq length

/-- A report that is a list. -/
example : Unreadable ⟨485, 980, 485⟩ (.str "[]") := by
  have hparse : Json.parse 980 "[]".toList = .ok (.list []) := by
    simp [Json.parse, Json.value, Json.skipGap, Json.isGap, bind, Except.bind]
  exact Unreadable.notObject hparse (by simp)

theorem position_le_of_verdictOfReport {depth : Nat} {report : Value} {length : Nat} {v : Verdict}
    (h : verdictOfReport depth report length = .ok v) : v.position ≤ length := by
  cases report with
  | object entries =>
      dsimp only [verdictOfReport] at h
      split at h
      · cases hparser : isOfParser depth entries with
        | error e => simp [hparser, bind, Except.bind] at h
        | ok ofParser =>
            rw [hparser] at h
            cases ofParser with
            | false => exact Except.ok.inj h ▸ Nat.zero_le _
            | true => exact Verdict.position_le_of_ofReport h
      · exact Verdict.position_le_of_ofReport h
  | _ => cases h

theorem position_le_of_verdictOfCell {cell : Option Value} {length : Nat} {v : Verdict}
    (h : verdictOfCell depths cell length = .ok v) : v.position ≤ length := by
  have hfailed : ∀ message, (Verdict.failed message).position ≤ length := fun _ => Nat.zero_le _
  unfold verdictOfCell at h
  split at h
  · exact Except.ok.inj h ▸ hfailed _
  · split at h
    · exact position_le_of_verdictOfReport h
    · exact Except.ok.inj h ▸ hfailed _
    · cases h
  · cases h

/-! ### Answers -/

/-- The rows of the next response, none without a connection or after an error. -/
def nextRows (d : Database) : List (List Value) :=
  match d.active with
  | none => []
  | some c =>
    match c.pending.headD (.rows []) with
    | .rows rows => rows
    | .failure _ => []

/-- The first cell of the next response. -/
def firstCell? (d : Database) : Option Value :=
  d.nextRows.head?.bind List.head?

/-- A query whose report is unreadable. -/
def Fails (depths : Depths) (d : Database) (code : Text) : Prop :=
  code ≠ [] ∧ ∃ cell, d.firstCell? = some cell ∧ Unreadable depths cell

/-- What a response leads to is told by the rows. -/
theorem verdict_eq (depths : Depths) (d : Database) {code : Text} (hcode : code ≠ []) :
    (∃ message, (d.verdict depths code).1 = .ok (.failed message) ∧ d.firstCell? = none) ∨
      (d.verdict depths code).1 = verdictOfCell depths d.firstCell? code.length := by
  rw [verdict, if_neg (by simpa using hcode)]
  cases hactive : d.active with
  | none =>
      refine Or.inl ⟨Error.message .notConnected, ?_, ?_⟩
      · simp only [send, hactive, verdictOfResponse]
      · simp only [firstCell?, nextRows, hactive, List.head?_nil, Option.bind_none]
  | some c =>
      cases hresponse : c.pending.headD (.rows []) with
      | failure message =>
          refine Or.inl ⟨"SQL validation error: " ++ message, ?_, ?_⟩
          · simp only [send, hactive, Connection.send, hresponse, verdictOfResponse]
          · simp only [firstCell?, nextRows, hactive, hresponse, List.head?_nil, Option.bind_none]
      | rows rows =>
          refine Or.inr ?_
          simp only [send, hactive, Connection.send, hresponse, verdictOfResponse, firstCell?,
            nextRows]

/-- When a query has no verdict. -/
theorem verdict_eq_error_iff (depths : Depths) (d : Database) (code : Text) :
    (∃ e, (d.verdict depths code).1 = .error e) ↔ d.Fails depths code := by
  by_cases hcode : code = []
  · subst hcode
    simp [verdict, Fails]
  · rcases d.verdict_eq depths hcode with ⟨message, hverdict, hcell⟩ | hverdict
    · simp [hverdict, Fails, hcell]
    · rw [hverdict, verdictOfCell_eq_error_iff, Fails]
      simp [hcode]

theorem position_le_of_verdict {d : Database} {code : Text} {v : Verdict}
    (h : (d.verdict depths code).1 = .ok v) : v.position ≤ code.length := by
  by_cases hcode : code = []
  · subst hcode
    obtain rfl := Except.ok.inj h
    exact Nat.zero_le _
  · rcases d.verdict_eq depths hcode with ⟨message, hverdict, -⟩ | hverdict
    · obtain rfl := Except.ok.inj (hverdict.symm.trans h)
      exact Nat.zero_le _
    · exact position_le_of_verdictOfCell (hverdict.symm.trans h)

/-- Suggestions are made of the rows of the next response. -/
theorem suggestions_eq (depth : Nat) (d : Database) (code : Text) :
    (d.suggestions depth code).1 =
      if code.isEmpty then .ok [] else Suggestion.ofRows depth d.nextRows := by
  cases hcode : code.isEmpty with
  | true => simp [suggestions, hcode]
  | false =>
      have hquery := isEmpty_completionQuery code
      have hrows : (d.execute (String.ofList (completionQuery code)) .null).1 = d.nextRows := by
        rw [execute, hquery, if_neg Bool.false_ne_true]
        cases hactive : d.active with
        | none => simp only [send, hactive, nextRows]
        | some c =>
            cases hresponse : c.pending.headD (.rows []) <;>
              simp only [send, hactive, Connection.send, hresponse, nextRows]
      rw [suggestions, hcode, if_neg Bool.false_ne_true, if_neg Bool.false_ne_true, ← hrows]

/-- When there are no suggestions. -/
theorem suggestions_eq_error_iff (depth : Nat) (d : Database) (code : Text) :
    (∃ e, (d.suggestions depth code).1 = .error e) ↔
      code ≠ [] ∧ ∃ row ∈ d.nextRows, ∃ cell, row.head? = some cell ∧ ¬ cell.Printable depth := by
  rw [suggestions_eq]
  by_cases hcode : code = []
  · simp [hcode]
  · rw [if_neg (by simpa using hcode), Suggestion.ofRows_eq_error_iff]
    simp [hcode]

end Database

namespace Diagnostic

/-! ### Regions -/

/-- A verdict shows no diagnostic when its message is no text. -/
theorem ofVerdict_eq_error_iff {b : Buffer} {r : Region} {v : Verdict} :
    (∃ e, ofVerdict b r v = .error e) ↔ v.error = true ∧ ∀ s, v.message ≠ .str s := by
  unfold ofVerdict
  cases v.error with
  | false => simp
  | true =>
      rw [if_pos rfl]
      split
      · next s hs => simp [hs]
      · next hs => simpa using hs

/-- When the check of a region fails. -/
theorem ofRegion_eq_error_iff {depths : Depths} {b : Buffer} {d : Database} {r : Region} :
    (∃ e, (ofRegion depths b (some d) r).1 = .error e) ↔
      r.direct = true ∧ (d.Fails depths (query r) ∨
        query r ≠ [] ∧ ∃ v, (d.verdict depths (query r)).1 = .ok v ∧ v.error = true ∧
        ∀ s, v.message ≠ .str s) := by
  by_cases hdirect : r.direct = true
  · by_cases hquery : query r = []
    · simp [ofRegion, hquery, Database.Fails]
    · cases hverdict : (d.verdict depths (query r)).1 with
      | error e =>
          have hchecked : (!r.direct || (query r).isEmpty) = false := by simp [hdirect, hquery]
          have hfails := (d.verdict_eq_error_iff depths (query r)).1 ⟨e, hverdict⟩
          simp only [ofRegion, hchecked, hverdict, Bool.false_eq_true, if_false]
          exact ⟨fun _ => ⟨hdirect, Or.inl hfails⟩, fun _ => ⟨.noVerdict e, rfl⟩⟩
      | ok v =>
          have hreadable : ¬ d.Fails depths (query r) := by
            rw [← d.verdict_eq_error_iff, hverdict]
            simp
          rw [ofRegion_of_verdict hdirect hquery hverdict]
          cases hfound : ofVerdict b r v with
          | error e =>
              obtain ⟨herror, hmessage⟩ := ofVerdict_eq_error_iff.1 ⟨e, hfound⟩
              exact ⟨fun _ => ⟨hdirect, Or.inr ⟨hquery, v, rfl, herror, hmessage⟩⟩,
                fun _ => ⟨e, rfl⟩⟩
          | ok found =>
              constructor
              · rintro ⟨e, he⟩
                cases he
              rintro ⟨-, hfails | ⟨-, w, hw, herror, hmessage⟩⟩
              · exact absurd hfails hreadable
              · obtain rfl := Except.ok.inj hw
                obtain ⟨e, he⟩ := ofVerdict_eq_error_iff (b := b) (r := r).2 ⟨herror, hmessage⟩
                rw [hfound] at he
                cases he
  · simp [ofRegion, hdirect]

/-! ### Documents -/

/-- What every region gives, each with what the database has left to answer. -/
def outcomes (depths : Depths) (b : Buffer) : (database : Option Database) → List Region →
    List (Except Error (List Diagnostic))
  | _, [] => []
  | database, r :: rest =>
    let (outcome, database) := ofRegion depths b database r
    outcome :: outcomes depths b database rest

/-- The regions are checked until one of them fails. -/
theorem toOption_collect (depths : Depths) (b : Buffer) (database : Option Database)
    (rs : List Region) :
    (collect depths b database rs).1.toOption =
      if (outcomes depths b database rs).all Except.isOk then
        some ((outcomes depths b database rs).flatMap fun outcome => outcome.toOption.getD [])
      else none := by
  induction rs generalizing database with
  | nil => rfl
  | cons r rest ih =>
      rw [collect, outcomes]
      rcases hregion : ofRegion depths b database r with ⟨outcome, database'⟩
      cases outcome with
      | error e => rfl
      | ok found =>
          have hok : (Except.ok found :: outcomes depths b database' rest).all Except.isOk =
              (outcomes depths b database' rest).all Except.isOk := rfl
          have hmap : ((collect depths b database' rest).1.map (found ++ ·)).toOption =
              (collect depths b database' rest).1.toOption.map (found ++ ·) := by
            cases (collect depths b database' rest).1 <;> rfl
          dsimp only
          rw [hok, hmap, ih, List.flatMap_cons]
          split <;> rfl

/-- One failing region takes the diagnostics of all. -/
theorem ofRegions_eq (depths : Depths) (b : Buffer) (database : Option Database)
    (rs : List Region) :
    (ofRegions depths b database rs).1 =
      if (outcomes depths b database rs).all Except.isOk then
        (outcomes depths b database rs).flatMap fun outcome => outcome.toOption.getD []
      else [] := by
  have hcollect := toOption_collect depths b database rs
  dsimp only [ofRegions]
  rw [hcollect]
  split <;> rfl

/-- **Verdicts fail on unreadable cells only, and a failure takes the whole document.**  Whatever
the database answers, a query has a verdict with a position in the query, unless the first cell of
the answer is unreadable, and then it has none; suggestions are made of the rows, unless some row
starts with a cell that has no text, and then there are none.  The check of a region fails when its
query has no verdict, or one whose message is no text.  When no check fails, a document has the
diagnostics of all its regions; otherwise it has none at all. -/
theorem degrades_unless_unreadable (depths : Depths) (d : Database) (code : Text) (b : Buffer)
    (r : Region) (rs : List Region) :
    (match (d.verdict depths code).1 with
      | .ok v => v.position ≤ code.length ∧ ¬ d.Fails depths code
      | .error _ => d.Fails depths code) ∧
    (d.suggestions depths.display code).1 =
      (if code.isEmpty then .ok [] else Suggestion.ofRows depths.display d.nextRows) ∧
    ((∃ e, (d.suggestions depths.display code).1 = .error e) ↔
      code ≠ [] ∧ ∃ row ∈ d.nextRows, ∃ cell, row.head? = some cell ∧
        ¬ cell.Printable depths.display) ∧
    ((∃ e, (ofRegion depths b (some d) r).1 = .error e) ↔
      r.direct = true ∧ (d.Fails depths (query r) ∨
        query r ≠ [] ∧ ∃ v, (d.verdict depths (query r)).1 = .ok v ∧ v.error = true ∧
          ∀ s, v.message ≠ .str s)) ∧
    (ofRegions depths b (some d) rs).1 =
      (if (outcomes depths b (some d) rs).all Except.isOk then
        (outcomes depths b (some d) rs).flatMap fun outcome => outcome.toOption.getD []
      else []) := by
  refine ⟨?_, d.suggestions_eq depths.display code, d.suggestions_eq_error_iff depths.display code,
    ofRegion_eq_error_iff, ofRegions_eq depths b (some d) rs⟩
  have hfails := d.verdict_eq_error_iff depths code
  cases hverdict : (d.verdict depths code).1 with
  | ok v =>
      refine ⟨Database.position_le_of_verdict hverdict, fun hcode => ?_⟩
      obtain ⟨e, he⟩ := hfails.2 hcode
      rw [hverdict] at he
      cases he
  | error e => exact hfails.1 ⟨e, hverdict⟩

end Diagnostic

end EmbeddedSql
