/-
**Positions and ranges of a document.**

* `Position` — a line and a character in it, both counted from zero;
* `Position.ofInts` — a position from numbers a client sent, within the bounds of the protocol;
* `Position.compare` — document order;
* `Range`, `Range.contains` — two positions, and the positions between them, ends included.
-/

set_option relaxedAutoImplicit false
set_option autoImplicit false

namespace EmbeddedSql

/-- A place in a document. -/
structure Position where
  line : Nat
  character : Nat
  deriving Repr, DecidableEq, Inhabited

namespace Position

/-- The largest number a position may hold. -/
def bound : Nat := 2147483647

/-- A component that a position cannot hold. -/
inductive OutOfRange where
  | line (n : Int)
  | character (n : Int)
  deriving Repr, DecidableEq

/-- The wording of a rejected component. -/
def OutOfRange.message : OutOfRange → String
  | .line n => "Position.line should be in range [0:2147483647], but was " ++ Int.repr n ++ "."
  | .character n =>
    "Position.character should be in range [0:2147483647], but was " ++ Int.repr n ++ "."

/-- Whether a number may be a component of a position. -/
def admits (n : Int) : Bool :=
  0 ≤ n && n ≤ bound

/-- The position with the given components; the line is checked first. -/
def ofInts (line character : Int) : Except OutOfRange Position :=
  if !admits line then .error (.line line)
  else if !admits character then .error (.character character)
  else .ok ⟨line.toNat, character.toNat⟩

/-- Document order: by line, then by character. -/
def compare (a b : Position) : Ordering :=
  (Ord.compare a.line b.line).then (Ord.compare a.character b.character)

/-- Whether the first position is not behind the second. -/
def le (a b : Position) : Bool :=
  (compare a b).isLE

end Position

/-- What lies between two positions. -/
structure Range where
  start : Position
  stop : Position
  deriving Repr, DecidableEq, Inhabited

namespace Range

/-- Whether a position lies in the range, both ends included. -/
def contains (r : Range) (p : Position) : Bool :=
  r.start.le p && p.le r.stop

/-- Whether the range ends on another line than it starts on. -/
def isMultiline (r : Range) : Bool :=
  r.start.line != r.stop.line

end Range

end EmbeddedSql
