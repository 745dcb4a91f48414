import Letterpress.Calendar.Date

/-!
# Instants

A point in time in UTC, down to the nanosecond. A leap second has no number of its own in the
count of seconds; it is kept as a second whole second of nanoseconds after the fifty-ninth
second of its minute, so that it sorts and prints where it belongs.

## Main definitions

* `Instant`: A day, a second of that day, and nanoseconds.
* `Instant.ofMillis?`, `Instant.toMillis`: Between instants and milliseconds since 1970.
* `Instant.seconds`: Whole seconds since 1970.
* `Instant.shift`: The instant a number of seconds later.
-/

namespace Letterpress

namespace Calendar

/-- A point in time: days since the first of January 1970, seconds since midnight, and
    nanoseconds, which reach beyond a thousand million only within a leap second. -/
structure Instant where
  day : Int
  second : Nat
  nanos : Nat
  deriving DecidableEq, Repr

namespace Instant

/-- Midnight at the beginning of a date. -/
def ofDate (d : Date) : Instant :=
  ⟨d.toDay, 0, 0⟩

/-- The date of an instant. -/
def date (t : Instant) : Date :=
  .ofDay t.day

/-- The range of years has a first and a last day. -/
def minDay : Int := (⟨Date.minYear, 1, 1⟩ : Date).toDay

def maxDay : Int := (⟨Date.maxYear, 12, 31⟩ : Date).toDay

/-- The instant so many milliseconds after the beginning of 1970, unless it is out of range. -/
def ofMillis? (ms : Int) : Option Instant :=
  let day := ms / 86400000
  let rest := (ms % 86400000).toNat
  if minDay ≤ day ∧ day ≤ maxDay then
    some ⟨day, rest / 1000, rest % 1000 * 1000000⟩
  else none

/-- Whole seconds since the beginning of 1970. A leap second counts as the second before it. -/
def seconds (t : Instant) : Int :=
  t.day * 86400 + t.second

/-- Milliseconds since the beginning of 1970. Within a leap second they run on past the
    thousand. -/
def toMillis (t : Instant) : Int :=
  t.seconds * 1000 + t.nanos / 1000000

def hour (t : Instant) : Nat := t.second / 3600

def minute (t : Instant) : Nat := t.second / 60 % 60

/-- The second of the minute as a clock shows it: sixty within a leap second. -/
def clockSecond (t : Instant) : Nat := t.second % 60 + t.nanos / 1000000000

/-- The nanoseconds behind the second that a clock shows. -/
def clockNanos (t : Instant) : Nat := t.nanos % 1000000000

/-- The hour on a dial of twelve. -/
def dialHour (t : Instant) : Nat :=
  (t.hour + 11) % 12 + 1

def isAfternoon (t : Instant) : Bool := 12 ≤ t.hour

/-- The instant so many seconds later. The fraction stays as it is, also that of a leap
    second. -/
def shift (t : Instant) (seconds : Int) : Instant :=
  let total := (t.second : Int) + seconds
  ⟨t.day + total / 86400, (total % 86400).toNat, t.nanos⟩

end Instant

end Calendar

end Letterpress
