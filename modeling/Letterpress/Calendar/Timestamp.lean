import Letterpress.Calendar.Instant

/-!
# Timestamps

The text of RFC 3339 for an instant in UTC, and the padded numbers that all date texts are
made of. Years of more than four digits and years before zero always carry a sign.

## Main definitions

* `Pad`: How a number is filled up to its width.
* `padded`: A number filled up to its width.
* `yearText`: A year of at least four digits.
* `Precision`: How much of a second a timestamp shows.
* `Instant.timestamp`: The timestamp of an instant.
-/

namespace Letterpress

namespace Calendar

/-- How a number is filled up to its width. -/
inductive Pad where
  | zero
  | space
  | none
  deriving DecidableEq, Repr

/-- A number filled up on the left to its width. A sign counts as part of the width and stands
    before the zeros, but behind the spaces. A plus sign is written on demand. -/
def padded (pad : Pad) (width : Nat) (plus : Bool) (n : Int) : String :=
  let sign := if n < 0 then ['-'] else if plus then ['+'] else []
  let digits := Nat.toDigits 10 n.natAbs
  let missing := width - (sign.length + digits.length)
  String.ofList <|
    match pad with
    | .zero => sign ++ List.replicate missing '0' ++ digits
    | .space => List.replicate missing ' ' ++ sign ++ digits
    | .none => sign ++ digits

/-- A natural number with zeros in front up to its width. -/
def zeroPadded (width n : Nat) : String :=
  padded .zero width false n

/-- A year of at least four digits. A year that does not fit into four digits has a sign, for
    which there is a place of its own. -/
def yearText (pad : Pad) (year : Int) : String :=
  if 0 ≤ year ∧ year < 10000 then padded pad 4 false year else padded pad 5 true year

/-- How much of a second a timestamp shows: whole seconds, thousandths, or as many groups of
    three digits as the fraction needs. -/
inductive Precision where
  | seconds
  | millis
  | asNeeded
  deriving DecidableEq, Repr

/-- Nanoseconds behind a point, in as many groups of three digits as they need, and nothing at
    all for none. -/
def shortestFraction (nanos : Nat) : String :=
  if nanos = 0 then ""
  else if nanos % 1000000 = 0 then "." ++ zeroPadded 3 (nanos / 1000000)
  else if nanos % 1000 = 0 then "." ++ zeroPadded 6 (nanos / 1000)
  else "." ++ zeroPadded 9 nanos

namespace Instant

/-- The hour, minute and second of a clock, with colons. -/
def clock (t : Instant) : String :=
  zeroPadded 2 t.hour ++ ":" ++ zeroPadded 2 t.minute ++ ":" ++ zeroPadded 2 t.clockSecond

/-- The fraction of a second to the given precision. -/
def fractionText (precision : Precision) (t : Instant) : String :=
  match precision with
  | .seconds => ""
  | .millis => "." ++ zeroPadded 3 (t.clockNanos / 1000000)
  | .asNeeded => shortestFraction t.clockNanos

/-- The timestamp of an instant. The time zone is given by its text. -/
def timestamp (precision : Precision) (zone : String) (t : Instant) : String :=
  let d := t.date
  yearText .zero d.year ++ "-" ++ zeroPadded 2 d.month ++ "-" ++ zeroPadded 2 d.day ++ "T" ++
    t.clock ++ t.fractionText precision ++ zone

end Instant

end Calendar

end Letterpress
