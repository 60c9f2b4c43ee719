/-
**What scalars stand for.**

A scalar without a tag that is written plainly stands for a null, a truth value, a number or a
moment if it looks like one, and for its text otherwise.

* `Yaml.Tag` — what a scalar or collection stands for;
* `Yaml.Tag.ofPlain` — what a plain scalar looks like;
* `Yaml.Tag.read` — the scalar that a text stands for under a tag.
-/

import EmbeddedSql.Value.Json
import EmbeddedSql.Yaml.Error

set_option relaxedAutoImplicit false
set_option autoImplicit false

namespace EmbeddedSql.Yaml

/-- What a scalar or collection stands for. -/
inductive Tag where
  | null
  | bool
  | int
  | real
  | str
  | moment
  /-- The key under which mappings are merged. -/
  | merge
  /-- The key of a default value. -/
  | equals
  | sequence
  | mapping
  | unknown
  deriving Repr, DecidableEq

/-- What the full names of tags start with. -/
def Tag.standard : String := "tag:yaml.org,2002:"

/-- The tag with a full name. -/
def Tag.ofName (n : Text) : Tag :=
  let known : List (String × Tag) :=
    [("null", .null), ("bool", .bool), ("int", .int), ("float", .real), ("str", .str),
     ("timestamp", .moment), ("seq", .sequence), ("map", .mapping)]
  ((known.map fun e => (Tag.standard ++ e.1, e.2)).lookup (String.ofList n)).getD .unknown

/-! ### What numbers look like -/

/-- A text without its sign. -/
def unsigned : Text → Text
  | '-' :: rest => rest
  | '+' :: rest => rest
  | t => t

/-- Digits and underscores. -/
def isDigitLike (c : Char) : Bool :=
  c.isDigit || c == '_'

/-- Whether a text starts with a digit and goes on with digits and underscores. -/
def isNumeral : Text → Bool
  | [] => false
  | c :: rest => c.isDigit && rest.all isDigitLike

/-- Whether digits of a base and underscores, and nothing else, make up a text. -/
def areDigits (base : Nat) (t : Text) : Bool :=
  !t.isEmpty && t.all fun c => c == '_' || (Json.hexDigit? c).any (· < base)

/-- The parts of a text between colons. -/
def colonParts (t : Text) : List Text :=
  t.foldr (fun c parts =>
    match parts with
    | [] => [[c]]
    | p :: rest => if c = ':' then [] :: p :: rest else (c :: p) :: rest) [[]]

/-- Minutes or seconds: one or two digits below sixty. -/
def isSixtieth : Text → Bool
  | [c] => c.isDigit
  | [c, d] => '0' ≤ c && c ≤ '5' && d.isDigit
  | _ => false

/-- Whether a text without sign is a whole number.  A leading zero makes it octal, and colons
separate sixtieths. -/
def looksWhole (t : Text) : Bool :=
  match t with
  | '0' :: 'b' :: ds => areDigits 2 ds
  | '0' :: 'x' :: ds => areDigits 16 ds
  | ['0'] => true
  | '0' :: ds => areDigits 8 ds
  | _ =>
    match colonParts t with
    | first :: rest => isNumeral first && rest.all isSixtieth
    | [] => false

/-- Whether a text is an exponent with a sign, or nothing. -/
def isExponent : Text → Bool
  | [] => true
  | e :: sign :: ds =>
    (e == 'e' || e == 'E') && (sign == '+' || sign == '-') && !ds.isEmpty && ds.all Char.isDigit
  | _ => false

/-- Whether a text is a number with a point.  Only digits before the point may have a sign. -/
def looksReal (t : Text) : Bool :=
  let body := unsigned t
  let whole := body.takeWhile (· ≠ '.')
  match body.drop whole.length with
  | '.' :: rest =>
    let fraction := rest.takeWhile isDigitLike
    let exponent := rest.drop fraction.length
    if whole.isEmpty then
      [".inf", ".Inf", ".INF"].contains (String.ofList body) ||
        [".nan", ".NaN", ".NAN"].contains (String.ofList t) ||
        (t.head? = some '.' && isNumeral fraction && isExponent exponent)
    else if isNumeral whole then isExponent exponent
    else
      match colonParts whole with
      | first :: more => isNumeral first && more.all isSixtieth && exponent.isEmpty
      | [] => false
  | _ => false

/-! ### What moments look like -/

/-- The parts of a moment as they are written. -/
structure WrittenMoment where
  date : List Text
  clock : List Text
  /-- The digits after the seconds. -/
  fraction : Text
  /-- What follows: nothing, or the distance from universal time. -/
  zone : Text
  deriving Repr, DecidableEq

/-- The digits a text starts with, and the rest, if a certain number of digits is there. -/
def digitRun? (least most : Nat) (t : Text) : Option (Text × Text) :=
  let ds := (t.take most).takeWhile Char.isDigit
  if least ≤ ds.length then some (ds, t.drop ds.length) else none

/-- What follows a character that a text must start with. -/
def after? (c : Char) : Text → Option Text
  | d :: rest => if c = d then some rest else none
  | [] => none

/-- Whether a text is a distance from universal time. -/
def isZone : Text → Bool
  | [] => true
  | ['Z'] => true
  | sign :: rest =>
    (sign == '+' || sign == '-') &&
      match digitRun? 1 2 rest with
      | some (_, []) => true
      | some (_, ':' :: minutes) => minutes.length = 2 && minutes.all Char.isDigit
      | _ => false

/-- A text without blanks in front. -/
def dropBlanks (t : Text) : Text :=
  t.dropWhile fun c => c == ' ' || c == '\t'

/-- What follows the letter or the blanks that separate the time from the day. -/
def afterDay? : Text → Option Text
  | 'T' :: rest => some rest
  | 't' :: rest => some rest
  | ' ' :: rest => some (dropBlanks rest)
  | '\t' :: rest => some (dropBlanks rest)
  | _ => none

/-- The time of day in a text: hours, minutes and seconds, the digits after the seconds, and the
distance from universal time. -/
def writtenClock? (t : Text) : Option (List Text × Text × Text) := do
  let (hour, rest) ← digitRun? 1 2 (← afterDay? t)
  let (minute, rest) ← digitRun? 2 2 (← after? ':' rest)
  let (second, rest) ← digitRun? 2 2 (← after? ':' rest)
  let fraction :=
    match rest with
    | '.' :: rest => rest.takeWhile Char.isDigit
    | _ => []
  let rest := if rest.head? = some '.' then rest.drop (fraction.length + 1) else rest
  let zone := dropBlanks rest
  if isZone zone && (!zone.isEmpty || rest.isEmpty) then
    some ([hour, minute, second], fraction, zone)
  else none

/-- The moment a text looks like.  Without a time of day, month and day have two digits. -/
def writtenMoment? (t : Text) : Option WrittenMoment := do
  let (year, rest) ← digitRun? 4 4 t
  let (month, rest) ← digitRun? 1 2 (← after? '-' rest)
  let (day, rest) ← digitRun? 1 2 (← after? '-' rest)
  if rest.isEmpty then
    if month.length = 2 && day.length = 2 then some ⟨[year, month, day], [], [], []⟩ else none
  else
    let (clock, fraction, zone) ← writtenClock? rest
    some ⟨[year, month, day], clock, fraction, zone⟩

/-! ### Plain scalars -/

/-- The words for null. -/
def nullWords : List String := ["", "~", "null", "Null", "NULL"]

/-- The words for a truth value. -/
def boolWords : List (String × Bool) :=
  (["yes", "Yes", "YES", "true", "True", "TRUE", "on", "On", "ON"].map (·, true)) ++
  (["no", "No", "NO", "false", "False", "FALSE", "off", "Off", "OFF"].map (·, false))

/-- What a plain scalar stands for. -/
def Tag.ofPlain (t : Text) : Tag :=
  let s := String.ofList t
  if nullWords.contains s then .null
  else if (boolWords.lookup s).isSome then .bool
  else if looksReal t then .real
  else if looksWhole (unsigned t) then .int
  else if s = "<<" then .merge
  else if (writtenMoment? t).isSome then .moment
  else if s = "=" then .equals
  else .str

/-! ### Reading -/

/-- A text without underscores. -/
def bare (t : Text) : Text :=
  t.filter (· ≠ '_')

/-- The whole number that digits of a base stand for. -/
def readBase (base : Nat) (t : Text) : Except Error Int :=
  let ds := t.filterMap fun c => (Json.hexDigit? c).filter (· < base)
  if t.isEmpty || ds.length ≠ t.length then .error (.numeral (.unreadable base t))
  else .ok (Text.ofDigits base ds)

/-- The sum of numbers that are worth sixty times as much as the next one. -/
def sixtieths (parts : List Int) : Int :=
  parts.foldl (fun n part => 60 * n + part) 0

/-- The whole number a text stands for. -/
def readWhole (t : Text) : Except Error Int := do
  let t := bare t
  if t.isEmpty then throw .noNumber
  let body := unsigned t
  let n ←
    match body with
    | [] => throw .noNumber
    | ['0'] => pure 0
    | '0' :: 'b' :: ds => readBase 2 ds
    | '0' :: 'x' :: ds => readBase 16 ds
    | '0' :: _ => readBase 8 body
    | _ =>
      if body.contains ':' then
        (sixtieths ·) <$> (colonParts body).mapM fun part => (Text.readInt part).mapError .numeral
      else (Text.readInt body).mapError .numeral
  return if t.head? = some '-' then -n else n

/-- The decimal a text stands for, if it is digits with a point or an exponent. -/
def decimal? (t : Text) : Option Decimal :=
  let body := unsigned t
  let whole := body.takeWhile Char.isDigit
  let rest := body.drop whole.length
  let fraction :=
    match rest with
    | '.' :: ds => ds.takeWhile Char.isDigit
    | _ => []
  let rest := if rest.head? = some '.' then rest.drop (fraction.length + 1) else rest
  let power : Option Int :=
    match rest with
    | [] => some 0
    | e :: more =>
      let ds := unsigned more
      if (e == 'e' || e == 'E') && !ds.isEmpty && ds.all Char.isDigit then
        some (if more.head? = some '-' then -(Json.natOfDigits ds : Int) else Json.natOfDigits ds)
      else none
  if whole.isEmpty && fraction.isEmpty then none
  else
    power.map fun p =>
      ⟨t.head? = some '-', Json.natOfDigits (whole ++ fraction), p - fraction.length⟩

/-- The double that an unsigned text stands for. -/
def readDecimal (t : Text) : Except Error Real :=
  if ["inf", "infinity"].contains (String.ofList t) then .ok (.infinite false)
  else if t = "nan".toList then .ok .undefined
  else
    match decimal? t with
    | some d => .ok (.ofDecimal d)
    | none => .error (.noReal t)

/-- The sum of doubles of which each is worth sixty times as much as the next one; the last one
comes first. -/
def sixtiethSum : (worth : Nat) → (sum : Real) → List Real → Real
  | _, sum, [] => sum
  | worth, sum, r :: rest => sixtiethSum (60 * worth) (sum.add (r.scale worth 1)) rest

/-- The double a text stands for. -/
def readReal (t : Text) : Except Error Real := do
  let t := (bare t).map Char.toLower
  if t.isEmpty then throw .noNumber
  let body := unsigned t
  let r ←
    if body = ".inf".toList then pure (.infinite false)
    else if body = ".nan".toList then pure .undefined
    else if body.contains ':' then
      (fun parts => sixtiethSum 1 (.ofInt 0) parts.reverse) <$> (colonParts body).mapM readDecimal
    else readDecimal body
  return if t.head? = some '-' then r.neg else r

/-- The minutes that a clock is ahead, as it is written. -/
def readZone : Text → Option Int
  | [] => none
  | ['Z'] => some 0
  | sign :: rest =>
    let minutes : Int :=
      match colonParts rest with
      | [h] => 60 * Json.natOfDigits h
      | h :: m :: _ => 60 * Json.natOfDigits h + Json.natOfDigits m
      | [] => 0
    some (if sign = '-' then -minutes else minutes)

/-- The moment that a text stands for. -/
def readMoment (t : Text) : Except Error Moment :=
  match writtenMoment? t with
  | none => .error .noMoment
  | some w =>
    let part (ts : List Text) (i : Nat) : Nat := ((ts[i]?).map Json.natOfDigits).getD 0
    let date : Date := ⟨part w.date 0, part w.date 1, part w.date 2⟩
    let micro := Json.natOfDigits ((w.fraction ++ List.replicate 6 '0').take 6)
    let clock : Option Clock :=
      if w.clock.isEmpty then none
      else some ⟨part w.clock 0, part w.clock 1, part w.clock 2, micro, readZone w.zone⟩
    (Moment.make date clock).mapError .moment

/-- The truth value a text stands for, however it is written. -/
def readBool (t : Text) : Except Error Bool :=
  match boolWords.lookup (String.ofList (t.map Char.toLower)) with
  | some b => .ok b
  | none => .error (.noBool (t.map Char.toLower))

/-- The scalar that a text stands for under a tag. -/
def Tag.read (tag : Tag) (t : Text) : Except Error Scalar :=
  match tag with
  | .null => .ok .null
  | .bool => (readBool t).map .bool
  | .int => (readWhole t).map .int
  | .real => (readReal t).map .real
  | .str => .ok (.str (String.ofList t))
  | .moment => (readMoment t).map .moment
  | _ => .error .malformed

end EmbeddedSql.Yaml
