/-
**The name that a literal is bound to.**

The look behind a literal goes back over blanks, an equals sign, blanks and a name.  What it returns
is what a search from left to right for a name with its equals sign would find first, among the
characters it may look at.  So the name is as long as possible, but it need not be the whole name
that stands in the text: the stretch that is looked at may begin inside of it, and a digit or an
underscore that cannot start a name is cut off although it belongs to the same word.

Main definitions:

* `Call.IsNamed` — the name of an argument with its equals sign;
* `Call.FirstNamed` — the first place of a stretch where such a name starts.

Main results:

* `Call.nameBeforeEquals?_reverse` — going back over a name with its equals sign;
* `Call.namedArgument?_eq_some_iff` — **the look behind is a search for the first name**;
* `Call.named_argument_iff` — and where the name is a part of a longer word.
-/

import Mathlib.Data.List.DropRight
import Mathlib.Data.Nat.Find
import EmbeddedSql.Proofs.Call.Comments

set_option relaxedAutoImplicit false
set_option autoImplicit false

namespace EmbeddedSql

namespace Text

theorem drop_slice (t : Text) (lo hi n : Nat) :
    (slice t lo hi).drop n = slice t (lo + n) hi := by
  rw [slice, slice, List.drop_take, List.drop_drop, Nat.sub_sub]

/-- Blanks in front of a text are passed over. -/
theorem trimLeft_blank_append {s : Text} (hs : isAllBlank s = true) (t : Text) :
    trimLeft (s ++ t) = trimLeft t :=
  List.dropWhile_append_of_pos (List.all_eq_true.1 hs)

theorem trimLeft_cons {c : Char} (hc : isBlank c = false) (t : Text) :
    trimLeft (c :: t) = c :: t :=
  List.dropWhile_cons_of_neg (by simp [hc])

/-- A text is what is passed over and what is left. -/
theorem exists_eq_append_trimLeft (t : Text) : ∃ s, isAllBlank s = true ∧ t = s ++ trimLeft t :=
  ⟨t.takeWhile isBlank, List.all_takeWhile, (List.takeWhile_append_dropWhile).symm⟩

@[simp] theorem isAllBlank_reverse (t : Text) : isAllBlank t.reverse = isAllBlank t := by
  simp [isAllBlank]

theorem isNameChar_of_isNameStart {c : Char} (h : isNameStart c = true) : isNameChar c = true := by
  simp only [isNameStart, isNameChar, Char.isAlphanum, Bool.or_eq_true] at h ⊢
  tauto

/-- Digits and the underscore stand in names and cannot start one. -/
theorem isDigit_or_eq_of_isNameChar {c : Char} (h : isNameChar c = true)
    (hstart : isNameStart c = false) : c.isDigit = true ∨ c = '_' := by
  simp only [isNameStart, isNameChar, Char.isAlphanum, Bool.or_eq_true, Bool.or_eq_false_iff,
    beq_iff_eq, beq_eq_false_iff_ne] at h hstart
  rcases h with ((h | h) | h) | h
  · simp [h] at hstart
  · exact Or.inl h
  · exact absurd h hstart.2
  · exact Or.inr h

theorem isNameChar_of_isDigit_or_eq {c : Char} (h : c.isDigit = true ∨ c = '_') :
    isNameChar c = true := by
  simp only [isNameChar, Char.isAlphanum, Bool.or_eq_true, beq_iff_eq]
  tauto

theorem isBlank_of_isNameChar {c : Char} (h : isNameChar c = true) : isBlank c = false :=
  Call.isBlank_eq_false (by simp [Call.isQualifiedChar, h])

end Text

namespace Call

/-! ### Names with an equals sign -/

/-- Names of arguments: a letter or a dot, and name characters behind it. -/
def isArgumentName : Text → Bool
  | [] => false
  | c :: rest => Text.isNameStart c && rest.all Text.isNameChar

/-- A text is a name with an equals sign behind it; blanks may stand on either side of the sign. -/
def IsNamed (name t : Text) : Prop :=
  isArgumentName name = true ∧ ∃ gap gap', Text.isAllBlank gap = true ∧
    Text.isAllBlank gap' = true ∧ t = name ++ (gap ++ '=' :: gap')

theorem isArgumentName_iff {name : Text} : isArgumentName name = true ↔
    name ≠ [] ∧ name.dropWhile (!Text.isNameStart ·) = name ∧
      ∀ c ∈ name, Text.isNameChar c = true := by
  cases name with
  | nil => simp [isArgumentName]
  | cons c rest =>
      rw [isArgumentName, Bool.and_eq_true, List.all_eq_true]
      constructor
      · rintro ⟨hc, hrest⟩
        refine ⟨by simp, List.dropWhile_cons_of_neg (by simp [hc]), ?_⟩
        exact List.forall_mem_cons.2 ⟨Text.isNameChar_of_isNameStart hc, hrest⟩
      · rintro ⟨-, hdrop, hall⟩
        refine ⟨?_, (List.forall_mem_cons.1 hall).2⟩
        have hc := List.dropWhile_eq_self_iff.1 hdrop (by simp)
        rw [List.getElem_cons_zero] at hc
        simpa using hc

theorem isArgumentName_append {word name : Text} (hword : isArgumentName word = true)
    (hname : isArgumentName name = true) : isArgumentName (word ++ name) = true := by
  cases word with
  | nil => exact hname
  | cons c rest =>
      have hall := (isArgumentName_iff.1 hname).2.2
      simp only [isArgumentName, Bool.and_eq_true, List.cons_append, List.all_append] at hword ⊢
      exact ⟨hword.1, hword.2, List.all_eq_true.2 hall⟩

theorem IsNamed.append {word name t : Text} (hword : isArgumentName word = true)
    (h : IsNamed name t) : IsNamed (word ++ name) (word ++ t) := by
  obtain ⟨hname, gap, gap', hgap, hgap', rfl⟩ := h
  exact ⟨isArgumentName_append hword hname, gap, gap', hgap, hgap', by simp⟩

/-- The end of a word from the first character on that can start a name. -/
def nameOf (word : Text) : Text :=
  word.dropWhile (!Text.isNameStart ·)

theorem isArgumentName_nameOf {word : Text} (h : ∀ c ∈ word, Text.isNameChar c = true)
    (hne : nameOf word ≠ []) : isArgumentName (nameOf word) = true :=
  isArgumentName_iff.2 ⟨hne, List.dropWhile_idempotent _ word,
    fun c hc => h c ((List.dropWhile_sublist _).subset hc)⟩

theorem exists_eq_append_nameOf (word : Text) : ∃ junk, word = junk ++ nameOf word :=
  ⟨word.takeWhile (!Text.isNameStart ·), (List.takeWhile_append_dropWhile).symm⟩

/-- The word that a text given last character first ends with. -/
def wordOf (reversed : Text) : Text :=
  (reversed.takeWhile Text.isNameChar).reverse

theorem isNameChar_of_mem_wordOf {reversed : Text} {c : Char} (hc : c ∈ wordOf reversed) :
    Text.isNameChar c = true :=
  List.all_eq_true.1 List.all_takeWhile c (List.mem_reverse.1 hc)

theorem exists_eq_wordOf_append (reversed : Text) :
    ∃ before, reversed = (wordOf reversed).reverse ++ before :=
  ⟨reversed.dropWhile Text.isNameChar, by rw [wordOf, List.reverse_reverse,
    List.takeWhile_append_dropWhile]⟩

/-- Going back over a name with its equals sign leads to the start of the word that the name
ends. -/
theorem nameBeforeEquals?_reverse {name t : Text} (h : IsNamed name t) (before : Text) :
    nameBeforeEquals? (t.reverse ++ before) = some (nameOf (wordOf before) ++ name) := by
  obtain ⟨hname, gap, gap', hgap, hgap', rfl⟩ := h
  obtain ⟨hne, hdrop, hchars⟩ := isArgumentName_iff.1 hname
  have hsign : Text.trimLeft (gap'.reverse ++ '=' :: (gap.reverse ++ (name.reverse ++ before))) =
      '=' :: (gap.reverse ++ (name.reverse ++ before)) := by
    rw [Text.trimLeft_blank_append (by simpa using hgap'), Text.trimLeft_cons (by decide)]
  have hblanks : Text.trimLeft (gap.reverse ++ (name.reverse ++ before)) =
      name.reverse ++ before := by
    rw [Text.trimLeft_blank_append (by simpa using hgap)]
    obtain ⟨c, rest, hrev⟩ := List.exists_cons_of_ne_nil (List.reverse_ne_nil_iff.2 hne)
    have hc : c ∈ name := List.mem_reverse.1 (hrev ▸ List.mem_cons_self)
    rw [hrev, List.cons_append, Text.trimLeft_cons (Text.isBlank_of_isNameChar (hchars c hc))]
  have hword : ((name.reverse ++ before).takeWhile Text.isNameChar).reverse =
      wordOf before ++ name := by
    rw [List.takeWhile_append_of_pos (fun c hc => hchars c (List.mem_reverse.1 hc)),
      List.reverse_append, List.reverse_reverse, wordOf]
  have hstart : (wordOf before ++ name).dropWhile (!Text.isNameStart ·) =
      nameOf (wordOf before) ++ name := by
    rw [List.dropWhile_append, hdrop, nameOf]
    split
    · next hempty => rw [List.isEmpty_iff.1 hempty, List.nil_append]
    · rfl
  simp [nameBeforeEquals?, hsign, hblanks, hword, hstart, hne]

/-- What is found going back is a name with its equals sign. -/
theorem exists_isNamed {reversed name : Text} (h : nameBeforeEquals? reversed = some name) :
    ∃ t before, IsNamed name t ∧ reversed = t.reverse ++ before := by
  unfold nameBeforeEquals? at h
  split at h
  · next rest hsign =>
      obtain ⟨gap', hgap', hreversed⟩ := Text.exists_eq_append_trimLeft reversed
      obtain ⟨gap, hgap, hrest⟩ := Text.exists_eq_append_trimLeft rest
      obtain ⟨before, hbefore⟩ := exists_eq_wordOf_append (Text.trimLeft rest)
      obtain ⟨junk, hjunk⟩ := exists_eq_append_nameOf (wordOf (Text.trimLeft rest))
      obtain ⟨hne, hname⟩ : nameOf (wordOf (Text.trimLeft rest)) ≠ [] ∧
          nameOf (wordOf (Text.trimLeft rest)) = name := by
        simpa [wordOf, nameOf] using h
      have hargument := isArgumentName_nameOf (fun _ => isNameChar_of_mem_wordOf) hne
      rw [hname] at hjunk hargument
      rw [hjunk] at hbefore
      refine ⟨name ++ (gap.reverse ++ '=' :: gap'.reverse), junk.reverse ++ before,
        ⟨hargument, gap.reverse, gap'.reverse, by simpa using hgap, by simpa using hgap', rfl⟩, ?_⟩
      rw [hreversed, hsign, hrest, hbefore]
      simp
  · simp at h

/-! ### The search for the first name -/

/-- The first offset of a stretch at which a name with an equals sign starts that reaches to the end
of the stretch. -/
structure FirstNamed (text : Text) (lo hi : Nat) (name : Text) (start : Nat) : Prop where
  le_start : lo ≤ start
  named : IsNamed name (text.slice start hi)
  first : ∀ k other, lo ≤ k → IsNamed other (text.slice k hi) → start ≤ k

theorem IsNamed.ne_nil {name t : Text} (h : IsNamed name t) : t ≠ [] := by
  obtain ⟨-, gap, gap', -, -, rfl⟩ := h
  simp

namespace FirstNamed

variable {text name : Text} {lo hi start : Nat} (h : FirstNamed text lo hi name start)

include h

theorem start_lt : start < hi ∧ start < text.length := by
  have hpos := List.length_pos_iff.2 h.named.ne_nil
  rw [Text.length_slice] at hpos
  omega

theorem slice_eq : text.slice lo hi = text.slice lo start ++ text.slice start hi := by
  have hlt := h.start_lt
  rw [← List.take_append_drop (start - lo) (text.slice lo hi), Text.drop_slice,
    Nat.add_sub_cancel' h.le_start, Text.slice, List.take_take, Nat.min_eq_left (by omega)]
  rfl

/-- No name ends in front of the first one: the two would be one name. -/
theorem nameOf_eq_nil : nameOf (wordOf (text.slice lo start).reverse) = [] := by
  by_contra hne
  have hlen : (text.slice lo start).length = start - lo := by
    have hlt := h.start_lt
    rw [Text.length_slice]
    omega
  obtain ⟨before, hbefore⟩ := exists_eq_wordOf_append (text.slice lo start).reverse
  obtain ⟨junk, hjunk⟩ := exists_eq_append_nameOf (wordOf (text.slice lo start).reverse)
  have hargument := isArgumentName_nameOf (fun _ => isNameChar_of_mem_wordOf) hne
  generalize nameOf (wordOf (text.slice lo start).reverse) = found at hne hjunk hargument
  have hsplit : text.slice lo start = (before.reverse ++ junk) ++ found := by
    rw [← List.reverse_reverse (text.slice lo start), hbefore, hjunk]
    simp
  have hnamed : IsNamed (found ++ name) (text.slice (lo + (before.reverse ++ junk).length) hi) := by
    rw [← Text.drop_slice, h.slice_eq, hsplit, List.append_assoc, List.drop_left]
    exact h.named.append hargument
  have hle := h.first _ _ (Nat.le_add_right _ _) hnamed
  have hpos := List.length_pos_iff.2 hne
  have hle_start := h.le_start
  rw [hsplit, List.length_append] at hlen
  omega

/-- A character that can start a name does not stand before the first one, unless it is out of
reach. -/
theorem isNameStart_eq_false {c : Char} (hlo : lo < start)
    (hc : charBefore none text start = some c) : Text.isNameStart c = false := by
  by_contra hstart
  obtain ⟨k, rfl⟩ := Nat.exists_eq_add_one_of_ne_zero (show start ≠ 0 by omega)
  have hlt := h.start_lt
  have hslice : text.slice k hi = [c] ++ text.slice (k + 1) hi := by
    have hcut := Text.slice_cut (Nat.le_refl k) (show k < hi by omega) hc
    simpa [Text.slice] using hcut
  have hnamed : IsNamed ([c] ++ name) (text.slice k hi) := by
    rw [hslice]
    exact h.named.append (by simpa [isArgumentName] using hstart)
  have hle := h.first k _ (by omega) hnamed
  omega

end FirstNamed

/-- **The look behind is a search for the first name** with an equals sign, among the characters it
may look at. -/
theorem namedArgument?_eq_some_iff {text : Text} {quote budget : Nat} {name : Text} :
    namedArgument? text quote budget = some name ↔
      ∃ start, FirstNamed text (quote - budget) quote name start := by
  have hfound : ∀ {name start}, FirstNamed text (quote - budget) quote name start →
      namedArgument? text quote budget = some name := by
    intro name start h
    rw [namedArgument?, h.slice_eq, List.reverse_append, nameBeforeEquals?_reverse h.named,
      h.nameOf_eq_nil, List.nil_append]
  refine ⟨fun h => ?_, fun h => h.elim fun _ => hfound⟩
  obtain ⟨t, before, hnamed, hreversed⟩ := exists_isNamed h
  have hslice : text.slice (quote - budget) quote = before.reverse ++ t := by
    rw [← List.reverse_reverse (text.slice _ _), hreversed]
    simp
  -- of all places where a name starts, the first one is the one that is found
  have hexists : ∃ k, quote - budget ≤ k ∧ ∃ other, IsNamed other (text.slice k quote) := by
    refine ⟨quote - budget + before.reverse.length, Nat.le_add_right _ _, name, ?_⟩
    rwa [← Text.drop_slice, hslice, List.drop_left]
  classical
  obtain ⟨hle, other, hother⟩ := Nat.find_spec hexists
  have hfirst : FirstNamed text (quote - budget) quote other (Nat.find hexists) :=
    ⟨hle, hother, fun k name' hk hname' => Nat.find_min' hexists ⟨hk, name', hname'⟩⟩
  obtain rfl : name = other := Option.some.inj (h.symm.trans (hfound hfirst))
  exact ⟨_, hfirst⟩

/-- **The name of an argument and the word it stands in.**  The look behind returns the first name
with an equals sign that reaches to the quote.  It is a part of a longer word in two cases only: the
stretch that is looked at begins inside of the word, or the word goes on to the left with a digit or
an underscore. -/
theorem named_argument_iff (text : Text) (quote budget : Nat) (name : Text) :
    (namedArgument? text quote budget = some name ↔
      ∃ start, FirstNamed text (quote - budget) quote name start) ∧
    ∀ start, FirstNamed text (quote - budget) quote name start →
      ((∃ c, charBefore none text start = some c ∧ Text.isNameChar c = true) ↔
        ∃ c, charBefore none text start = some c ∧
          (start = quote - budget ∧ Text.isNameChar c = true ∨
            quote - budget < start ∧ (c.isDigit = true ∨ c = '_'))) := by
  refine ⟨namedArgument?_eq_some_iff, fun start h => exists_congr fun c => ?_⟩
  refine and_congr_right fun hc => ⟨fun hname => ?_, ?_⟩
  · rcases Nat.eq_or_lt_of_le h.le_start with heq | hlt
    · exact Or.inl ⟨heq.symm, hname⟩
    · exact Or.inr ⟨hlt, Text.isDigit_or_eq_of_isNameChar hname (h.isNameStart_eq_false hlt hc)⟩
  · rintro (⟨-, hname⟩ | ⟨-, hdigit⟩)
    · exact hname
    · exact Text.isNameChar_of_isDigit_or_eq hdigit

/-- Both ways to return a part of a word: the look behind stops inside of it, or the word starts
with an underscore. -/
theorem named_argument_iff_part :
    let cut : Text := "dbGetQuery(con, mystatement = \"x\")".toList
    let odd : Text := "dbGetQuery(con, _statement = \"x\")".toList
    let name : Text := "statement".toList
    (namedArgument? cut 30 12 = some name ∧ FirstNamed cut 18 30 name 18 ∧
      ∃ c, charBefore none cut 18 = some c ∧ Text.isNameChar c = true) ∧
    (namedArgument? odd 29 50 = some name ∧ FirstNamed odd 0 29 name 17 ∧
      ∃ c, charBefore none odd 17 = some c ∧ Text.isNameChar c = true) := by
  intro cut odd name
  have hcut : namedArgument? cut 30 12 = some name := by decide +kernel
  have hodd : namedArgument? odd 29 50 = some name := by decide +kernel
  have hcut_named : IsNamed name (cut.slice 18 30) :=
    ⟨by decide, [' '], [' '], by decide, by decide, by decide⟩
  have hodd_named : IsNamed name (odd.slice 17 29) :=
    ⟨by decide, [' '], [' '], by decide, by decide, by decide⟩
  obtain ⟨hcut_iff, hcut_part⟩ := named_argument_iff cut 30 12 name
  obtain ⟨hodd_iff, hodd_part⟩ := named_argument_iff odd 29 50 name
  have hcut_first : FirstNamed cut 18 30 name 18 := by
    obtain ⟨start, h⟩ := hcut_iff.1 hcut
    obtain rfl : start = 18 := Nat.le_antisymm (h.first 18 name (by decide) hcut_named) h.le_start
    exact h
  have hodd_first : FirstNamed odd 0 29 name 17 := by
    obtain ⟨start, h⟩ := hodd_iff.1 hodd
    have hle : start ≤ 17 := h.first 17 name (by decide) hodd_named
    have hearlier : ∀ k < 17, ¬ name <+: odd.slice k 29 := by decide +kernel
    obtain rfl : start = 17 := by
      refine Nat.le_antisymm hle (Nat.le_of_not_lt fun hlt => hearlier start hlt ?_)
      obtain ⟨-, gap, gap', -, -, heq⟩ := h.named
      exact ⟨_, heq.symm⟩
    exact h
  exact ⟨⟨hcut, hcut_first, (hcut_part 18 hcut_first).2 ⟨'y', by decide, Or.inl ⟨rfl, by decide⟩⟩⟩,
    hodd, hodd_first,
    (hodd_part 17 hodd_first).2 ⟨'_', by decide, Or.inr ⟨by decide, Or.inr rfl⟩⟩⟩

end Call

end EmbeddedSql
