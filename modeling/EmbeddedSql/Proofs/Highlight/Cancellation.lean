/-
**Cancellation is all or nothing.**

A scan may be told to stop at any of its questions: before a function, before an occurrence of its
name, and once more before the highlights of a region.  How many questions there are does not depend
on the answers, so a scan that goes on to its end is the scan that nobody watches, and any other
gives nothing.  What is left behind by one that was stopped is what the lookup before it left: an
entry that was too old may be gone, and the regions may already be kept, but later answers are the
same.

Main definitions:

* `Signal.stops` — whether one of the next questions is answered with yes;
* `Signal.Polls` — a computation with a fixed number of questions and a fixed value.

Main results:

* `Signal.Polls.bind`, `Signal.polls_mapM` — questions add up;
* `Region.exists_polls_survey` — **a survey is all or nothing**;
* `RegionStore.regions_lookup` — a lookup, stopped or not, changes no later answer;
* `HighlightStore.get_eq` — highlights are the stored ones, or depend on the regions only;
* `HighlightStore.cancellation_leaves_no_trace` — **what is stopped leaves no trace**.
-/

import EmbeddedSql.Proofs.Cache.Expiry
import EmbeddedSql.Proofs.Highlight.Store

set_option relaxedAutoImplicit false
set_option autoImplicit false

namespace EmbeddedSql

/-! ### Questions -/

namespace Signal

variable {α β : Type}

/-- Whether one of the next `count` questions is answered with yes. -/
def stops (s : Signal) (asked count : Nat) : Bool :=
  (List.range' asked count).any s

theorem stops_iff {s : Signal} {asked count : Nat} :
    s.stops asked count = true ↔ ∃ n, asked ≤ n ∧ n < asked + count ∧ s n = true := by
  simp [stops, and_assoc]

theorem stops_add (s : Signal) (asked m n : Nat) :
    s.stops asked (m + n) = (s.stops asked m || s.stops (asked + m) n) := by
  rw [stops, stops, stops, ← List.any_append, List.range'_append_1]

theorem stops_silent (asked count : Nat) : silent.stops asked count = false := by
  simp [stops, silent]

/-- A computation asks a number of questions, and gives a value unless one of them is answered with
yes. -/
def Polls (x : Signal → Watched α) (count : Nat) (v : α) : Prop :=
  ∀ s asked, (x s).run asked = if s.stops asked count then none else some (v, asked + count)

theorem polls_pure (v : α) : Polls (fun _ => pure v) 0 v :=
  fun _ _ => rfl

theorem polls_poll : Polls poll 1 () := by
  intro s asked
  simp [poll, stops, StateT.run]

/-- Questions add up. -/
theorem Polls.bind {x : Signal → Watched α} {f : Signal → α → Watched β} {m n : Nat} {v : α} {w : β}
    (hx : Polls x m v) (hf : Polls (fun s => f s v) n w) :
    Polls (fun s => x s >>= f s) (m + n) w := by
  intro s asked
  rw [StateT.run_bind, hx s asked, stops_add]
  cases s.stops asked m with
  | true => rfl
  | false =>
      rw [Bool.false_or, ← Nat.add_assoc]
      exact hf s (asked + m)

theorem Polls.map {x : Signal → Watched α} {m : Nat} {v : α} (hx : Polls x m v) (f : α → β) :
    Polls (fun s => f <$> x s) m (f v) := by
  intro s asked
  rw [StateT.run_map, hx s asked]
  cases s.stops asked m <;> rfl

theorem polls_mapM {f : Signal → α → Watched β} (h : ∀ a, ∃ n w, Polls (fun s => f s a) n w)
    (as : List α) : ∃ n ws, Polls (fun s => as.mapM (f s)) n ws := by
  induction as with
  | nil => exact ⟨0, [], polls_pure []⟩
  | cons a as ih =>
      obtain ⟨m, w, hw⟩ := h a
      obtain ⟨n, ws, hws⟩ := ih
      simp only [List.mapM_cons]
      exact ⟨_, w :: ws, hw.bind (hws.bind (polls_pure _))⟩

/-- The value is the one that a computation gives when nobody stops it. -/
theorem Polls.gives {x : Signal → Watched α} {m : Nat} {v : α} (hx : Polls x m v) :
    Gives (x silent) v := by
  intro asked
  exact ⟨asked + m, by rw [hx silent asked, stops_silent]; rfl⟩

end Signal

/-! ### The survey -/

namespace Region

open Signal

theorem exists_polls_inCode (literals : List Literal) (left : Nat) (os : List Nat) :
    ∃ n v, Polls (fun s => inCode s literals left os) n v := by
  induction os generalizing left with
  | nil =>
      simp only [inCode]
      exact ⟨0, _, polls_pure _⟩
  | cons o os ih =>
      simp only [inCode]
      cases Literal.containing? literals o with
      | some l =>
          obtain ⟨n, v, hv⟩ := ih left
          exact ⟨_, v, polls_poll.bind hv⟩
      | none =>
          cases left with
          | zero => exact ⟨_, _, polls_poll.bind (polls_pure _)⟩
          | succ left =>
              obtain ⟨n, v, hv⟩ := ih left
              exact ⟨_, _, polls_poll.bind (hv.bind (polls_pure _))⟩

theorem exists_polls_callsOf (d : Detection) (text : Text) (literals : List Literal)
    (function : String) : ∃ n v, Polls (fun s => callsOf s d text literals function) n v := by
  obtain ⟨n, v, hv⟩ := exists_polls_inCode literals d.limits.functionMatches
    (Call.occurrences function text 0 text.length)
  exact ⟨_, _, polls_poll.bind (hv.bind (polls_pure _))⟩

/-- **A survey is all or nothing.** -/
theorem exists_polls_survey (d : Detection) (doc : Document) :
    ∃ n, Polls (fun s => survey s d doc) n (surveyAll d doc) := by
  obtain ⟨n, v, hv⟩ : ∃ n v, Polls (fun s => survey s d doc) n v := by
    simp only [survey]
    split
    · exact ⟨0, _, polls_pure _⟩
    · obtain ⟨n, v, hv⟩ := polls_mapM
        (exists_polls_callsOf d doc.text (Literal.scanAll d.marks doc.text)) d.functions
      exact ⟨_, _, hv.bind (polls_pure _)⟩
  obtain ⟨asked, hrun⟩ := hv.gives 0
  have hvalue : surveyAll d doc = v := by rw [surveyAll, hrun]; rfl
  exact ⟨n, hvalue ▸ hv⟩

end Region

/-! ### The region store -/

namespace RegionStore

/-- A lookup answers from the cache, is stopped, or stores the regions of the document. -/
theorem lookup_cases (s : RegionStore) (signal : Signal) (now : Real) (doc : Document) :
    let found := s.cache.find doc.uri doc.version now
    (∃ regions, found.1 = some regions ∧
      s.lookup signal now doc = (some (regions, 0), { s with cache := found.2 })) ∨
    found.1 = none ∧ (s.lookup signal now doc = (none, { s with cache := found.2 }) ∨
      ∃ asked, s.lookup signal now doc = (some (Region.all s.detection doc, asked),
        { s with
          cache := found.2.insert doc.uri doc.version (Region.all s.detection doc) now })) := by
  obtain ⟨n, hn⟩ := Region.exists_polls_survey s.detection doc
  have hrun : (Region.survey signal s.detection doc).run 0 = _ := hn signal 0
  unfold lookup
  rcases s.cache.find doc.uri doc.version now with ⟨_ | regions, cache⟩
  · refine Or.inr ⟨rfl, ?_⟩
    rw [hrun]
    cases signal.stops 0 n with
    | true => exact Or.inl rfl
    | false => exact Or.inr ⟨_, rfl⟩
  · exact Or.inl ⟨regions, rfl, rfl⟩

/-- A lookup that nobody stops answers with what is kept, or with a survey. -/
theorem exists_lookup_silent (s : RegionStore) (now : Real) (doc : Document) :
    ∃ asked, (s.lookup .silent now doc).1 =
      some (((s.cache.find doc.uri doc.version now).1).getD
        (Region.all s.detection doc), asked) := by
  obtain ⟨asked, hrun⟩ := Region.gives_survey s.detection doc 0
  unfold lookup
  rcases s.cache.find doc.uri doc.version now with ⟨_ | regions, cache⟩
  · simp only [hrun]
    exact ⟨asked, rfl⟩
  · exact ⟨0, rfl⟩

theorem regions_eq (s : RegionStore) (now : Real) (doc : Document) :
    (s.regions now doc).1 = ((s.cache.find doc.uri doc.version now).1).getD
      (Region.all s.detection doc) := by
  obtain ⟨asked, hlookup⟩ := s.exists_lookup_silent now doc
  have hregions : (s.regions now doc).1 =
      (((s.lookup .silent now doc).1).map Prod.fst).getD [] := rfl
  rw [hregions, hlookup]
  rfl

/-- A stopped lookup has stored nothing. -/
theorem lookup_snd_of_stopped {s : RegionStore} {signal : Signal} {now : Real} {doc : Document}
    (h : (s.lookup signal now doc).1 = none) : (s.lookup signal now doc).2 =
      { s with cache := (s.cache.find doc.uri doc.version now).2 } := by
  rcases s.lookup_cases signal now doc with ⟨regions, -, heq⟩ | ⟨-, heq | ⟨asked, heq⟩⟩
  · rw [heq]
  · rw [heq]
  · rw [heq] at h
    cases h

/-- A lookup, stopped or not, changes no later answer. -/
theorem regions_lookup (s : RegionStore) (signal : Signal) {now later : Real} (doc : Document)
    (hlater : now.le later = true) :
    ((s.lookup signal now doc).2.regions later doc).1 = (s.regions later doc).1 := by
  rw [regions_eq, regions_eq]
  rcases s.lookup_cases signal now doc with ⟨regions, -, heq⟩ | ⟨hnone, heq | ⟨asked, heq⟩⟩
  · rw [heq, Cache.find_find s.cache doc.uri doc.version hlater]
  · rw [heq, Cache.find_find s.cache doc.uri doc.version hlater]
  · rw [heq, Cache.find_fst_of_le hlater hnone]
    dsimp only
    rcases Cache.find_insert (s.cache.find doc.uri doc.version now).2 doc.uri doc.version
      (Region.all s.detection doc) now later with hfind | hfind
    · rw [hfind]
      rfl
    · rw [hfind]

end RegionStore

/-! ### The highlight store -/

namespace HighlightStore

open Signal

theorem polls_ofRegions (ls : List Text) (rs : List Region) :
    Polls (fun s => ofRegions s ls rs) rs.length (rs.flatMap (Highlight.ofFilled ls)) := by
  induction rs with
  | nil => exact polls_pure []
  | cons r rs ih =>
      simp only [ofRegions, List.length_cons, List.flatMap_cons, Nat.add_comm rs.length]
      exact polls_poll.bind (Polls.bind (f := fun _ rest => pure (Highlight.ofFilled ls r ++ rest))
        ih (polls_pure _))

/-- A parse leaves the region store that its lookup leaves, and stores highlights if it is not
stopped. -/
theorem parse_snd (s : HighlightStore) (regions : RegionStore) (signal : Signal) (now : Real)
    (doc : Document) :
    (s.parse regions signal now doc).2 =
      (if doc.uri.isEmpty then regions else (regions.lookup signal now doc).2,
        match (s.parse regions signal now doc).1 with
        | .ok (some hs) => s.insert doc.uri doc.version hs
        | _ => s) := by
  unfold parse
  cases doc.uri.isEmpty with
  | true => rfl
  | false =>
      rw [if_neg Bool.false_ne_true, if_neg Bool.false_ne_true]
      rcases regions.lookup signal now doc with ⟨_ | ⟨found, asked⟩, regions'⟩
      · rfl
      · dsimp only
        rw [polls_ofRegions doc.lines found signal asked]
        cases signal.stops asked found.length <;> rfl

theorem parse_silent (s : HighlightStore) (regions : RegionStore) (now : Real) (doc : Document) :
    (s.parse regions .silent now doc).1 = if doc.uri.isEmpty then .error .noName
      else .ok (some ((regions.regions now doc).1.flatMap (Highlight.ofFilled doc.lines))) := by
  obtain ⟨asked, hlookup⟩ := regions.exists_lookup_silent now doc
  rw [← regions.regions_eq] at hlookup
  obtain ⟨asked', hrun⟩ := gives_ofRegions doc.lines (regions.regions now doc).1 asked
  unfold parse
  cases doc.uri.isEmpty with
  | true => rfl
  | false =>
      rw [if_neg Bool.false_ne_true, if_neg Bool.false_ne_true]
      rcases hcase : regions.lookup .silent now doc with ⟨found, regions'⟩
      rw [hcase] at hlookup
      obtain rfl : found = _ := hlookup
      simp only [hrun]

/-- Highlights are the stored ones if they belong to the version, else those of the regions. -/
theorem get_eq (s : HighlightStore) (regions : RegionStore) (now : Real) (doc : Document) :
    (s.get regions now doc).1 =
      match (s.entries.get? doc.uri).filter fun entry => entry.1 = doc.version with
      | some entry => .ok entry.2
      | none =>
        if doc.uri.isEmpty then .error .noName
        else .ok ((regions.regions now doc).1.flatMap (Highlight.ofFilled doc.lines)) := by
  have hfresh : (s.parse regions .silent now doc).1.map (·.getD []) =
      if doc.uri.isEmpty then .error .noName
      else .ok ((regions.regions now doc).1.flatMap (Highlight.ofFilled doc.lines)) := by
    rw [parse_silent]
    split <;> rfl
  unfold get
  cases s.entries.get? doc.uri with
  | none => exact hfresh
  | some entry =>
      obtain ⟨version, hs⟩ := entry
      by_cases hversion : version = doc.version
      · simp only [hversion, if_true, Option.filter_some, decide_true]
      · simp only [hversion, if_false, Option.filter_some, decide_false, Bool.false_eq_true]
        exact hfresh

/-- Later highlights depend on the stored ones and on the regions. -/
theorem get_congr (s : HighlightStore) {regions regions' : RegionStore} {now : Real}
    {doc : Document} (h : (regions'.regions now doc).1 = (regions.regions now doc).1) :
    (s.get regions' now doc).1 = (s.get regions now doc).1 := by
  rw [get_eq, get_eq, h]

/-- **What is stopped leaves no trace.**  A survey asks a number of questions that does not depend
on the answers; it gives nothing if one of them is answered with yes, and otherwise what it gives
when nobody asks.  A lookup that is stopped leaves the store as the look into the cache left it.  A
parse that is stopped leaves all stored highlights with their versions.  Either way, the regions and
the highlights of the document are later those that they would have been. -/
theorem cancellation_leaves_no_trace (s : HighlightStore) (regions : RegionStore) (doc : Document)
    {now later : Real} (hlater : now.le later = true) :
    (∃ count, ∀ (signal : Signal) (asked : Nat),
      (Region.survey signal regions.detection doc).run asked =
        if signal.stops asked count then none
        else some (Region.surveyAll regions.detection doc, asked + count)) ∧
    ∀ signal : Signal,
      ((regions.lookup signal now doc).1 = none →
        (regions.lookup signal now doc).2 = { regions with
          cache := (regions.cache.find doc.uri doc.version now).2 }) ∧
      ((regions.lookup signal now doc).2.regions later doc).1 = (regions.regions later doc).1 ∧
      ((s.parse regions signal now doc).1 = .ok none → (s.parse regions signal now doc).2.2 = s ∧
        ((s.parse regions signal now doc).2.1.regions later doc).1 =
          (regions.regions later doc).1 ∧
        ((s.parse regions signal now doc).2.2.get (s.parse regions signal now doc).2.1 later
          doc).1 = (s.get regions later doc).1) := by
  refine ⟨Region.exists_polls_survey regions.detection doc, fun signal =>
    ⟨RegionStore.lookup_snd_of_stopped, regions.regions_lookup signal doc hlater, ?_⟩⟩
  intro hstopped
  have hregions : ((s.parse regions signal now doc).2.1.regions later doc).1 =
      (regions.regions later doc).1 := by
    rw [parse_snd]
    dsimp only
    split
    · rfl
    · exact regions.regions_lookup signal doc hlater
  have hstore : (s.parse regions signal now doc).2.2 = s := by
    rw [parse_snd, hstopped]
  refine ⟨hstore, hregions, ?_⟩
  rw [hstore]
  exact s.get_congr hregions

/-- A parse that is stopped before the highlights of the only region, whose scan is kept; a second
passes until they are asked for. -/
theorem cancellation_leaves_no_trace_behind_survey :
    let doc : Document := ⟨"file:///a.R", "dbGetQuery(con, \"SELECT 1\")".toList, 1⟩
    let regions : RegionStore := ⟨{}, { lifetime := ⟨false, 5, 0⟩ }⟩
    let now := Real.finite (.zero false)
    let later := Real.finite ⟨false, 1, 0⟩
    now.le later = true ∧ (parse {} regions (.after 15) now doc).1 = .ok none ∧
      ((parse {} regions (.after 15) now doc).2.1.cache.get? doc.uri).isSome = true ∧
      (get (parse {} regions (.after 15) now doc).2.2 (parse {} regions (.after 15) now doc).2.1
        later doc).1 = (get {} regions later doc).1 := by
  intro doc regions now later
  have hlater : now.le later = true := by decide +kernel
  have hstopped : (parse {} regions (.after 15) now doc).1 = .ok none := by decide +kernel
  have hkept : ((parse {} regions (.after 15) now doc).2.1.cache.get? doc.uri).isSome = true := by
    decide +kernel
  obtain ⟨-, hall⟩ := cancellation_leaves_no_trace {} regions doc hlater
  obtain ⟨-, -, hparse⟩ := hall (.after 15)
  obtain ⟨-, -, hget⟩ := hparse hstopped
  exact ⟨hlater, hstopped, hkept, hget⟩

end HighlightStore

end EmbeddedSql
