/-
**Where an error of the parser is shown.**

The parser counts characters of the query: of the decoded text, without the blanks at its ends.  The
error is shown in the document, where escapes take two characters, some of the blanks in front may
be escapes, and a literal may go over several lines.

Main definitions:

* `Database.Reports` — the next response reports an error of the parser, with message and position;
* `Diagnostic.blanks` — the blanks in front of a query.

Main results:

* `Escape.decode_eq_singleton_iff` — what stands for one character: itself, or an escape;
* `Database.verdict_of_reports` — the verdict on a report, its position held to the query;
* `Diagnostic.errorStart_eq` — the way of a position, from the query to the document;
* `Diagnostic.parser_error_at_character` — **an error is shown at the character it is about**.
-/

import EmbeddedSql.Diagnostic
import EmbeddedSql.Proofs.Region.Content

set_option relaxedAutoImplicit false
set_option autoImplicit false

namespace EmbeddedSql

open Text

/-! ### Blanks at the ends -/

/-- A text is the blanks in front, what is left without the blanks at its ends, and more blanks. -/
theorem Text.exists_eq_append_trim (t : Text) :
    ∃ behind, isAllBlank behind = true ∧ t = t.takeWhile isBlank ++ trim t ++ behind := by
  refine ⟨((trimLeft t).reverse.takeWhile isBlank).reverse, ?_, ?_⟩
  · rw [isAllBlank, List.all_reverse]
    exact List.all_takeWhile
  · rw [trim, List.append_assoc, ← List.reverse_append, List.takeWhile_append_dropWhile,
      List.reverse_reverse, trimLeft, List.takeWhile_append_dropWhile]

/-! ### One decoded character -/

namespace Escape

theorem units_eq_nil_iff {t : Text} : units t = [] ↔ t = [] := by
  fun_cases units t <;> simp

/-- What decodes to one character is the character, or an escape that stands for it. -/
theorem decode_eq_singleton_iff {t : Text} {c : Char} :
    decode t = [c] ↔ t = [c] ∨ ∃ d, t = ['\\', d] ∧ meaning? d = some c := by
  constructor
  · intro h
    unfold decode at h
    fun_cases units t with
    | case1 => simp [units] at h
    | case2 d => exact Or.inl (by simpa [units] using h)
    | case3 d rest e hmeaning =>
        rw [units_escape hmeaning, List.map_cons] at h
        obtain ⟨rfl, hrest⟩ := List.cons.inj h
        obtain rfl : rest = [] := units_eq_nil_iff.1 (List.map_eq_nil_iff.1 hrest)
        exact Or.inr ⟨d, rfl, hmeaning⟩
    | case4 d rest hmeaning =>
        rw [units_plain_escape hmeaning, List.map_cons] at h
        have hrest := units_eq_nil_iff.1 (List.map_eq_nil_iff.1 (List.cons.inj h).2)
        simp at hrest
    | case5 d e rest hd =>
        rw [units_cons hd, List.map_cons] at h
        have hrest := units_eq_nil_iff.1 (List.map_eq_nil_iff.1 (List.cons.inj h).2)
        simp at hrest
  · rintro (rfl | ⟨d, rfl, hmeaning⟩)
    · rfl
    · rw [decode, units_escape hmeaning]
      rfl

theorem decode_extent_succ {raw : Text} {i : Nat} {c : Char} (h : (decode raw)[i]? = some c) :
    decode (extent raw i (i + 1)) = [c] := by
  rw [decode_extent raw (Nat.le_add_right i 1), Text.slice, Nat.add_sub_cancel_left, List.take_one,
    List.head?_drop, h]
  rfl

end Escape

/-! ### Reports -/

theorem Json.parse_nil (depth : Nat) : parse depth [] = fail "Expecting value" [] := by
  have hgap : skipGap [] = [] := rfl
  unfold parse
  dsimp only
  rw [hgap, value.eq_def]
  rfl

namespace Database

/-- A report is about an error of the parser **exactly if** the type it tells has a text that says
so. -/
theorem isOfParser_eq_true_iff {depth : Nat} {entries : List (Scalar × Value)} :
    isOfParser depth entries = .ok true ↔
      (((Value.lookup "error_type" entries).getD (.str "")).text depth).map String.toLower =
        .ok "parser" := by
  rw [isOfParser, reportText]
  cases ((Value.lookup "error_type" entries).getD (.str "")).text depth with
  | error e => exact ⟨nofun, nofun⟩
  | ok kind =>
      by_cases hkind : kind.toLower = "parser"
      · simp [Except.map, Except.mapError, bind, Except.bind, pure, Except.pure, hkind]
      · cases reportText depth entries "error_message" .null <;>
          simp [Except.map, Except.mapError, bind, Except.bind, pure, Except.pure, hkind]

/-- A report of an error of the parser, with a message and a position. -/
structure ParserError (depth : Nat) (entries : List (Scalar × Value)) (message : String)
    (p : Int) : Prop where
  failed : ((Value.lookup "error" entries).getD .null).truthy = true
  kind_eq : (((Value.lookup "error_type" entries).getD (.str "")).text depth).map String.toLower =
    .ok "parser"
  message_eq : (Value.lookup "error_message" entries).getD (.str "Unknown SQL error") = .str message
  position_eq : Verdict.readPosition ((Value.lookup "position" entries).getD (.int 0)) = .ok p

/-- The next response of the database is a row that starts with a report of an error of the
parser. -/
def Reports (depths : Depths) (d : Database) (message : String) (p : Int) : Prop :=
  ∃ c report row rows entries, d.active = some c ∧
    c.pending.head? = some (.rows ((.str report :: row) :: rows)) ∧
    Json.parse depths.json report.toList = .ok (.object entries) ∧
    ParserError depths.display entries message p

theorem ofReport_of_parserError {depth : Nat} {entries : List (Scalar × Value)} {message : String}
    {p : Int} (h : ParserError depth entries message p) (length : Nat) :
    ∃ kind, Verdict.ofReport entries length =
      .ok ⟨true, kind, .str message, min p.toNat length⟩ := by
  have hfailed : ((Value.lookup "error" entries).getD (.bool false)).truthy = true := by
    have hsome := h.failed
    cases hlookup : Value.lookup "error" entries with
    | none => rw [hlookup] at hsome; exact absurd hsome (by decide)
    | some v => rwa [hlookup] at hsome
  refine ⟨Verdict.firstPresent (Value.lookup "error_subtype" entries)
    (Value.lookup "error_type" entries) (.str Verdict.unknownKind), ?_⟩
  rw [Verdict.ofReport, if_pos hfailed, h.position_eq, h.message_eq]
  rfl

/-- A report is not empty. -/
theorem truthy_of_parse {depth : Nat} {report : String} {v : Value}
    (h : Json.parse depth report.toList = .ok v) : (Value.str report).truthy = true := by
  rw [Value.truthy, Scalar.truthy, Bool.not_eq_true', Bool.eq_false_iff]
  intro hempty
  obtain rfl : report = "" := String.isEmpty_iff.1 hempty
  rw [String.toList_empty, Json.parse_nil] at h
  cases h

/-- The verdict on a report, its position held to the query. -/
theorem verdict_of_reports {depths : Depths} {d : Database} {message : String} {p : Int}
    (h : d.Reports depths message p) {code : Text} (hcode : code ≠ []) :
    ∃ kind, (d.verdict depths code).1 =
      .ok ⟨true, kind, .str message, min p.toNat code.length⟩ := by
  obtain ⟨c, report, row, rows, entries, hactive, hpending, hparse, herror⟩ := h
  obtain ⟨kind, hkind⟩ := ofReport_of_parserError herror code.length
  have hresponse : c.pending.headD (.rows []) = .rows ((.str report :: row) :: rows) := by
    rw [List.headD_eq_head?_getD, hpending, Option.getD_some]
  have hcell : (some (Value.str report)).filter Value.truthy = some (.str report) := by
    rw [Option.filter_some, if_pos (truthy_of_parse hparse)]
  have hparser := isOfParser_eq_true_iff.2 herror.kind_eq
  refine ⟨kind, ?_⟩
  rw [verdict, if_neg (by simpa using hcode)]
  simp only [send, hactive, Connection.send, hresponse, verdictOfResponse, List.head?_cons,
    Option.bind_some, verdictOfCell, hcell, hparse, verdictOfReport, herror.failed, if_pos, hparser,
    bind, Except.bind]
  exact hkind

end Database

namespace Diagnostic

/-! ### From the query to the document -/

/-- The blanks in front of the query of a raw text. -/
def blanks (raw : Text) : Text :=
  (Escape.decode raw).takeWhile isBlank

theorem exists_decode_eq (raw : Text) : ∃ behind, isAllBlank behind = true ∧
    Escape.decode raw = blanks raw ++ Escape.query raw ++ behind :=
  Text.exists_eq_append_trim (Escape.decode raw)

theorem length_blanks_add_le (raw : Text) :
    (blanks raw).length + (Escape.query raw).length ≤ (Escape.decode raw).length := by
  obtain ⟨behind, -, hdecode⟩ := exists_decode_eq raw
  rw [hdecode, List.length_append, List.length_append]
  exact Nat.le_add_right _ _

/-- A place in the query is behind the blanks that are stripped. -/
theorem rawOffset_eq {raw : Text} {position : Nat} (h : position ≤ (Escape.query raw).length) :
    rawOffset raw position = Escape.offsetAt raw ((blanks raw).length + position) := by
  have hblanks : (Escape.decode raw).length - (trimLeft (Escape.decode raw)).length =
      (blanks raw).length := by
    have hlength := congrArg List.length
      (List.takeWhile_append_dropWhile (p := isBlank) (l := Escape.decode raw))
    rw [List.length_append] at hlength
    rw [trimLeft, blanks]
    omega
  have hle := length_blanks_add_le raw
  rw [rawOffset, hblanks, Nat.min_eq_left (by omega), Escape.offsetAt_eq_getD]

/-- The diagnostics of a region of which the database has a verdict. -/
theorem ofRegion_of_verdict {b : Buffer} {r : Region} (hdirect : r.direct = true)
    (hquery : query r ≠ []) {depths : Depths} {db : Database} {v : Verdict}
    (hv : (db.verdict depths (query r)).1 = .ok v) :
    (ofRegion depths b (some db) r).1 = (ofVerdict b r v).map (ofFindings b r ++ ·) := by
  have hchecked : (!r.direct || (query r).isEmpty) = false := by simp [hdirect, hquery]
  simp only [ofRegion, hchecked, hv, Bool.false_eq_true, if_false]
  rfl

section Regions

variable {doc : Document} {l : Literal} {r : Region} (hr : Region.Covered doc l r)
  {position : Nat} (hposition : position ≤ (Escape.query r.raw).length)

include hr hposition

/-- The way of a position, from the query to the document. -/
theorem errorStart_eq :
    errorStart doc r position = doc.positionOf (doc.offsetOf r.range.start +
      Escape.offsetAt r.raw ((blanks r.raw).length + position)) := by
  rw [errorStart, Document.advance, rawOffset_eq hposition]
  exact hr.advanceIn_offsetAt _

theorem contains_errorStart : r.range.contains (errorStart doc r position) = true := by
  rw [errorStart_eq hr hposition]
  exact hr.contains_positionOf (Nat.le_add_right _ _) (hr.offsetAt_le_stop _)

theorem offsetOf_errorStart :
    doc.offsetOf (errorStart doc r position) = doc.offsetOf r.range.start +
      Escape.offsetAt r.raw ((blanks r.raw).length + position) := by
  have hle := hr.offsetAt_le_stop ((blanks r.raw).length + position)
  have hlt := hr.stop_lt_length
  rw [errorStart_eq hr hposition]
  exact doc.offsetOf_positionOf (by omega)

end Regions

/-- A character of the query is one of the decoded text, behind the blanks in front. -/
theorem getElem?_decode {raw : Text} {k : Nat} {c : Char} (h : (Escape.query raw)[k]? = some c) :
    (Escape.decode raw)[(blanks raw).length + k]? = some c := by
  obtain ⟨behind, -, hdecode⟩ := exists_decode_eq raw
  obtain ⟨hlt, -⟩ := List.getElem?_eq_some_iff.1 h
  rw [hdecode, List.append_assoc, List.getElem?_append_right (Nat.le_add_right _ _),
    Nat.add_sub_cancel_left, List.getElem?_append_left hlt, h]

/-- **An error is shown at the character it is about.**  An error that the parser reports on the
query of a region adds one diagnostic, which starts inside the region wherever the parser says it
is: behind the blanks in front of the query, as many decoded characters into it as the position says
and not further than its end.  Where the position is one of the query, the document goes on there
with what is written for this character: the character, or an escape that stands for it. -/
theorem parser_error_at_character {d : Detection} {b : Buffer} {r : Region}
    (hr : r ∈ Region.all d b.document) (hdirect : r.direct = true)
    (hplain : r.interpolating = false) (hquery : query r ≠ []) {depths : Depths} {db : Database}
    {message : String} {p : Int} (hreports : db.Reports depths message p) :
    ∃ severity start behind,
      (ofRegion depths b (some db) r).1 = .ok (ofFindings b r ++
        [⟨message, severity, b.rangeToClient ⟨start, ⟨start.line, start.character + 1⟩⟩⟩]) ∧
      r.range.contains start = true ∧
      isAllBlank behind = true ∧ Escape.decode r.raw = blanks r.raw ++ query r ++ behind ∧
      b.document.offsetOf start = b.document.offsetOf r.range.start +
        Escape.offsetAt r.raw ((blanks r.raw).length + min p.toNat (query r).length) ∧
      ∀ (k : Nat) (c : Char), p = k → (query r)[k]? = some c →
        let written := Escape.extent r.raw ((blanks r.raw).length + k)
          ((blanks r.raw).length + k + 1)
        written <+: b.document.text.drop (b.document.offsetOf start) ∧
          Escape.decode written = [c] ∧
          (written = [c] ∨ ∃ x, written = ['\\', x] ∧ Escape.meaning? x = some c) := by
  obtain ⟨l, hl⟩ := Region.exists_covered_of_mem_all hr
  obtain ⟨kind, hverdict⟩ := Database.verdict_of_reports hreports hquery
  have hdiagnostics := ofRegion_of_verdict (b := b) hdirect hquery hverdict
  have hsame : query r = Escape.query r.raw := by simp [query, hplain]
  have hposition : min p.toNat (query r).length ≤ (Escape.query r.raw).length := by
    rw [← hsame]
    exact Nat.min_le_right _ _
  obtain ⟨behind, hbehind, hdecode⟩ := exists_decode_eq r.raw
  have hstart := offsetOf_errorStart hl hposition
  refine ⟨Verdict.kindSeverity kind, errorStart b.document r (min p.toNat (query r).length),
    behind, ?_, contains_errorStart hl hposition, hbehind, ?_, hstart, ?_⟩
  · rw [hdiagnostics, ofVerdict, if_pos rfl, errorRange, hplain]
    rfl
  · rw [hsame]
    exact hdecode
  · rintro k c rfl hc written
    obtain ⟨hlt, -⟩ := List.getElem?_eq_some_iff.1 hc
    have hone : Escape.decode written = [c] :=
      Escape.decode_extent_succ (getElem?_decode (hsame ▸ hc))
    rw [hstart, Int.toNat_natCast, Nat.min_eq_left (Nat.le_of_lt hlt)]
    exact ⟨hl.extent_starts _ _, hone, Escape.decode_eq_singleton_iff.1 hone⟩

/-- The second quote of a name that goes over two lines, behind blanks of three kinds. -/
theorem parser_error_at_character_escaped :
    let b : Buffer :=
      ⟨"file:///a.R", "dbGetQuery(con, \" \\t\nSELECT \\\"a\n\\\" FRM t\\n\")".toList, none, none⟩
    let r : Region := ⟨⟨⟨0, 17⟩, ⟨2, 10⟩⟩, "dbGetQuery", true, false,
      " \\t\nSELECT \\\"a\n\\\" FRM t\\n".toList, true⟩
    let report := "\x7b\"error\":true,\"error_type\":\"parser\",\"position\":\"10\"\x7d"
    let db : Database := {
      name := ":memory:"
      opening := .ok []
      active := some { pending := [.rows [[.str report]]] } }
    let depths : Depths := ⟨485, 980, 485⟩
    r ∈ Region.all {} b.document ∧ db.Reports depths "Unknown SQL error" 10 ∧
      ∃ severity start,
        (ofRegion depths b (some db) r).1 = .ok (ofFindings b r ++ [⟨"Unknown SQL error", severity,
          b.rangeToClient ⟨start, ⟨start.line, start.character + 1⟩⟩⟩]) ∧
        r.range.contains start = true ∧ b.document.offsetOf start = 32 ∧
        ['\\', '"'] <+: b.document.text.drop 32 := by
  intro b r report db depths
  have hr : r ∈ Region.all {} b.document := by decide +kernel
  have hparse : Json.parse depths.json report.toList = .ok (.object [(.str "error", .bool true),
      (.str "error_type", .str "parser"), (.str "position", .str "10")]) := by
    have hlength : "true".length = 4 := rfl
    simp [report, depths, Json.parse, Json.value, Json.entries, Json.skipGap,
      Json.stringValue, Json.string, Json.isGap, Json.word?, Json.words, hlength, bind, Except.bind,
      pure, Except.pure]
    rfl
  have hreports : db.Reports depths "Unknown SQL error" 10 :=
    ⟨_, report, [], [], _, rfl, rfl, hparse, by decide +kernel, by decide +kernel, rfl,
      by decide +kernel⟩
  obtain ⟨severity, start, behind, hfound, hinside, -, -, hstart, hwritten⟩ :=
    parser_error_at_character hr rfl rfl (by decide +kernel) hreports
  have hoffset : b.document.offsetOf start = 32 := by
    rw [hstart]
    decide +kernel
  obtain ⟨hquote, -, -⟩ := hwritten 10 '"' rfl (by decide +kernel)
  rw [hoffset] at hquote
  exact ⟨hr, hreports, severity, start, hfound, hinside, hoffset, hquote⟩

end Diagnostic

end EmbeddedSql
