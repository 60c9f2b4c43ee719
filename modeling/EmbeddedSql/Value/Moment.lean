/-
**Days and times of day.**

* `Date`, `Date.daysIn` — a day of the calendar, and the number of days of a month;
* `Clock` — a time of day, with its distance from universal time if that is known;
* `Moment` — a day, or a time on a day;
* `Moment.make` — a moment from its parts, or which of them no moment has;
* `Moment.text`, `Moment.display` — a moment for readers, and in full.
-/

import EmbeddedSql.Text.Numeral

set_option relaxedAutoImplicit false
set_option autoImplicit false

namespace EmbeddedSql

/-- A day. -/
structure Date where
  year : Nat
  month : Nat
  day : Nat
  deriving Repr, DecidableEq

/-- A time of day. -/
structure Clock where
  hour : Nat
  minute : Nat
  second : Nat
  microsecond : Nat
  /-- How many minutes the clock is ahead of universal time. -/
  ahead : Option Int
  deriving Repr, DecidableEq

/-- A day, or a time on it. -/
structure Moment where
  date : Date
  clock : Option Clock
  deriving Repr, DecidableEq

/-! ### The calendar -/

/-- Whether a year has a leap day. -/
def Date.isLeap (year : Nat) : Bool :=
  year % 4 == 0 && (year % 100 != 0 || year % 400 == 0)

/-- The number of days of a month. -/
def Date.daysIn (year month : Nat) : Nat :=
  if month = 2 then (if Date.isLeap year then 29 else 28)
  else if [4, 6, 9, 11].contains month then 30
  else 31

/-- A number of minutes as days, not rounded up, and seconds. -/
def Clock.span (minutes : Int) : String :=
  let days := minutes / 1440
  let seconds := minutes % 1440 * 60
  let parts := (if days = 0 then [] else ["days=" ++ Int.repr days]) ++
    (if seconds = 0 then [] else ["seconds=" ++ Int.repr seconds])
  "datetime.timedelta(" ++ (if parts.isEmpty then "0" else ", ".intercalate parts) ++ ")"

namespace Moment

/-- A part that no moment has. -/
inductive Error where
  | year (n : Nat)
  | month
  | day
  | hour
  | minute
  | second
  /-- Clocks differ from universal time by less than a day. -/
  | ahead (minutes : Int)
  deriving Repr, DecidableEq

/-- The wording of an error. -/
def Error.message : Error → String
  | .year n => "year " ++ Nat.repr n ++ " is out of range"
  | .month => "month must be in 1..12"
  | .day => "day is out of range for month"
  | .hour => "hour must be in 0..23"
  | .minute => "minute must be in 0..59"
  | .second => "second must be in 0..59"
  | .ahead minutes =>
    "offset must be a timedelta strictly between -timedelta(hours=24) and timedelta(hours=24), not "
      ++ Clock.span minutes ++ "."

/-- The moment with the given parts; the first one that does not fit is reported. -/
def make (date : Date) (clock : Option Clock) : Except Error Moment := do
  if let some minutes := clock.bind Clock.ahead then
    if 1440 ≤ minutes.natAbs then throw (.ahead minutes)
  if date.year = 0 then throw (.year date.year)
  if date.month = 0 || 12 < date.month then throw .month
  if date.day = 0 || Date.daysIn date.year date.month < date.day then throw .day
  if let some c := clock then
    if 23 < c.hour then throw .hour
    if 59 < c.minute then throw .minute
    if 59 < c.second then throw .second
  return ⟨date, clock⟩

/-! ### Texts -/

/-- A number with zeros in front up to the given width. -/
def padded (width n : Nat) : String :=
  String.ofList (List.replicate (width - (Nat.repr n).length) '0') ++ Nat.repr n

/-- How far a clock is ahead of universal time, in hours and minutes. -/
def aheadText (minutes : Int) : String :=
  (if minutes < 0 then "-" else "+") ++ padded 2 (minutes.natAbs / 60) ++ ":" ++
    padded 2 (minutes.natAbs % 60)

/-- The text of a time of day. -/
def clockText (c : Clock) : String :=
  padded 2 c.hour ++ ":" ++ padded 2 c.minute ++ ":" ++ padded 2 c.second ++
    (if c.microsecond = 0 then "" else "." ++ padded 6 c.microsecond) ++
    (c.ahead.map aheadText).getD ""

/-- The text of a moment. -/
def text (m : Moment) : String :=
  let date := padded 4 m.date.year ++ "-" ++ padded 2 m.date.month ++ "-" ++ padded 2 m.date.day
  match m.clock with
  | none => date
  | some c => date ++ " " ++ clockText c

/-- The word for the kind of a moment. -/
def kind (m : Moment) : String :=
  if m.clock.isSome then "datetime.datetime" else "datetime.date"

/-- How far a clock is ahead of universal time, in full. -/
def aheadDisplay (minutes : Int) : String :=
  "tzinfo=" ++
    if minutes = 0 then "datetime.timezone.utc"
    else "datetime.timezone(" ++ Clock.span minutes ++ ")"

/-- The parts of a time of day, without seconds and microseconds when they are zero. -/
def clockParts (c : Clock) : List String :=
  [c.hour, c.minute].map Nat.repr ++
    (if c.second = 0 && c.microsecond = 0 then [] else [Nat.repr c.second]) ++
    (if c.microsecond = 0 then [] else [Nat.repr c.microsecond]) ++
    (c.ahead.map aheadDisplay).toList

/-- The display of a moment. -/
def display (m : Moment) : String :=
  m.kind ++ "(" ++ ", ".intercalate ([m.date.year, m.date.month, m.date.day].map Nat.repr ++
    (m.clock.map clockParts).getD []) ++ ")"

end Moment

end EmbeddedSql
