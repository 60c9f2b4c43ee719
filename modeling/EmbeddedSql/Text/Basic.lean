/-
**Texts as lists of characters.**

All offsets of the library count characters, so a text is a list of characters and a part of it
is cut out by `drop` and `take`.

* `Text` — a text;
* `Text.slice` — the part between two offsets, clamped to the text;
* `Text.lines`, `Text.joinLines` — the lines between newlines, and the text they came from;
* `Text.trim`, `Text.trimLeft` — without the blanks at its ends, or at its start;
* `Text.occurs`, `Text.replaceFirst`, `Text.replaceAll`, `Text.replaceChar` — search and
  replacement from left to right;
* `Text.unifyNewlines`, `Text.plainNewlines` — every carriage return with a newline after it
  dropped, and every other one turned into a newline as well.
-/

import EmbeddedSql.Text.Class

set_option relaxedAutoImplicit false
set_option autoImplicit false

namespace EmbeddedSql

/-- A text, one entry per character. -/
abbrev Text := List Char

namespace Text

/-! ### Parts of a text -/

/-- The characters at offsets `lo`, …, `hi - 1`; an end beyond the text is the end of the text. -/
def slice (t : Text) (lo hi : Nat) : Text :=
  (t.drop lo).take (hi - lo)

@[simp] theorem slice_zero_length (t : Text) : slice t 0 t.length = t := by
  simp [slice]

@[simp] theorem length_slice (t : Text) (lo hi : Nat) :
    (slice t lo hi).length = min (hi - lo) (t.length - lo) := by
  simp [slice]

theorem getElem?_slice (t : Text) (lo hi k : Nat) :
    (slice t lo hi)[k]? = if k < hi - lo then t[lo + k]? else none := by
  rw [slice, List.getElem?_take]
  split
  · rw [List.getElem?_drop]
  · rfl

/-- The part of a text that is put together of three. -/
theorem slice_append_append (before part behind : Text) :
    slice (before ++ (part ++ behind)) before.length (before.length + part.length) = part := by
  rw [slice, List.drop_left, Nat.add_sub_cancel_left, List.take_left]

/-- The text without the blanks it starts with. -/
def trimLeft (t : Text) : Text :=
  t.dropWhile isBlank

/-- The text without the blanks at either end. -/
def trim (t : Text) : Text :=
  ((trimLeft t).reverse.dropWhile isBlank).reverse

/-- Whether a text holds nothing but blanks. -/
def isAllBlank (t : Text) : Bool :=
  t.all isBlank

/-! ### Lines -/

/-- Puts one character in front of a nonempty list of lines. -/
def consLine (c : Char) (ls : List Text) : List Text :=
  if c = '\n' then
    [] :: ls
  else
    match ls with
    | [] => [[c]]
    | l :: rest => (c :: l) :: rest

/-- The lines of a text, which the newlines separate.  There is always at least one. -/
def lines (t : Text) : List Text :=
  t.foldr consLine [[]]

/-- The text whose lines are given. -/
def joinLines (ls : List Text) : Text :=
  ['\n'].intercalate ls

@[simp] theorem lines_nil : lines [] = [[]] := rfl

theorem lines_cons (c : Char) (t : Text) : lines (c :: t) = consLine c (lines t) := rfl

theorem consLine_ne_nil (c : Char) (ls : List Text) : consLine c ls ≠ [] := by
  unfold consLine
  split
  · simp
  · split <;> simp

/-- There is always a line. -/
theorem lines_ne_nil (t : Text) : lines t ≠ [] := by
  cases t with
  | nil => simp
  | cons c t => exact consLine_ne_nil c (lines t)

theorem joinLines_consLine (c : Char) {ls : List Text} (h : ls ≠ []) :
    joinLines (consLine c ls) = c :: joinLines ls := by
  cases ls with
  | nil => exact absurd rfl h
  | cons l rest =>
    by_cases hc : c = '\n'
    · simp [consLine, joinLines, hc, List.intercalate]
    · cases rest <;> simp [consLine, joinLines, hc, List.intercalate]

/-- Nothing of a text is lost in its lines. -/
@[simp] theorem joinLines_lines (t : Text) : joinLines (lines t) = t := by
  induction t with
  | nil => rfl
  | cons c t ih => rw [lines_cons, joinLines_consLine c (lines_ne_nil t), ih]

/-- Every carriage return that a newline follows is dropped. -/
def unifyNewlines : Text → Text
  | '\r' :: '\n' :: rest => '\n' :: unifyNewlines rest
  | c :: rest => c :: unifyNewlines rest
  | [] => []

/-- Every line break with a carriage return in it becomes a newline. -/
def plainNewlines (t : Text) : Text :=
  (unifyNewlines t).map fun c => if c = '\r' then '\n' else c

/-! ### Search and replacement -/

/-- Whether `pattern` stands somewhere in the text. The empty pattern stands everywhere. -/
def occurs (pattern : Text) : Text → Bool
  | [] => pattern.isEmpty
  | c :: rest => pattern.isPrefixOf (c :: rest) || occurs pattern rest

/-- A pattern stands in a text when the text goes on before and after it. -/
theorem occurs_iff (pattern t : Text) : occurs pattern t = true ↔ pattern <:+: t := by
  induction t with
  | nil => simp [occurs]
  | cons c t ih => simp [occurs, ih, List.infix_cons_iff]

/-- The leftmost occurrence of `pattern` exchanged for `new`. -/
def replaceFirst (pattern new : Text) : Text → Text
  | [] => if pattern.isEmpty then new else []
  | c :: rest =>
    if pattern.isPrefixOf (c :: rest) then new ++ (c :: rest).drop pattern.length
    else c :: replaceFirst pattern new rest

/-- Replacement of a nonempty pattern; `skip` characters of an occurrence are still to be
passed over. -/
def replaceFrom (pattern new : Text) : Nat → Text → Text
  | _, [] => []
  | skip + 1, _ :: rest => replaceFrom pattern new skip rest
  | 0, c :: rest =>
    if pattern.isPrefixOf (c :: rest) then new ++ replaceFrom pattern new (pattern.length - 1) rest
    else c :: replaceFrom pattern new 0 rest

/-- All occurrences of `pattern`, from left to right and without overlap, exchanged for `new`.
The empty pattern occurs before every character and at the end. -/
def replaceAll (pattern new t : Text) : Text :=
  if pattern.isEmpty then new ++ t.flatMap (fun c => c :: new)
  else replaceFrom pattern new 0 t

/-- Every `c` exchanged for `new`. -/
def replaceChar (c : Char) (new t : Text) : Text :=
  t.flatMap fun d => if d = c then new else [d]

@[simp] theorem replaceChar_nil (c : Char) (new : Text) : replaceChar c new [] = [] := rfl

theorem replaceChar_cons (c d : Char) (new t : Text) :
    replaceChar c new (d :: t) = (if d = c then new else [d]) ++ replaceChar c new t := rfl

theorem replaceChar_append (c : Char) (new s t : Text) :
    replaceChar c new (s ++ t) = replaceChar c new s ++ replaceChar c new t := by
  simp [replaceChar]

end Text

end EmbeddedSql
