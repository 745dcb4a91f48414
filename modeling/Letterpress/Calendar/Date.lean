/-!
# Calendar Dates

The proleptic Gregorian calendar: the present rules, applied to all years, with a year zero
and negative years before it. A day is a whole number, counted from the first of January 1970.

Years are reckoned from the first of March here, so that the leap day is the last day of its
year. The days before a month are then a linear function of the month, and four hundred years
always have the same length.

## Main definitions

* `Date`: A year, a month and a day of the month.
* `Date.ofDay`, `Date.toDay`: Between day counts and dates.
* `Date.ofParts?`: The date of given parts, if there is one.
* `weekday`, `Date.ordinal`, `Date.isoWeek`: Where a date stands in its week and year.
-/

namespace Letterpress

namespace Calendar

/-- A date of the proleptic Gregorian calendar. -/
structure Date where
  year : Int
  month : Nat
  day : Nat
  deriving DecidableEq, Repr

/-- The days of four hundred years. -/
def eraDays : Int := 146097

/-- The days before a month, in a year that begins with March as month zero. -/
def daysBefore (monthFromMarch : Int) : Int :=
  (153 * monthFromMarch + 2) / 5

namespace Date

/-- The day count of a date. -/
def toDay (d : Date) : Int :=
  let y := if d.month ≤ 2 then d.year - 1 else d.year
  let era := y / 400
  let yearOfEra := y % 400
  let monthFromMarch : Int := (d.month + 9) % 12
  let dayOfYear := daysBefore monthFromMarch + d.day - 1
  era * eraDays + (yearOfEra * 365 + yearOfEra / 4 - yearOfEra / 100 + dayOfYear) - 719468

/-- The date of a day count. -/
def ofDay (day : Int) : Date :=
  let z := day + 719468
  let era := z / eraDays
  let dayOfEra := z % eraDays
  let yearOfEra :=
    (dayOfEra - dayOfEra / 1460 + dayOfEra / 36524 - dayOfEra / (eraDays - 1)) / 365
  let dayOfYear := dayOfEra - (365 * yearOfEra + yearOfEra / 4 - yearOfEra / 100)
  let monthFromMarch := (5 * dayOfYear + 2) / 153
  let month := (monthFromMarch + 2) % 12 + 1
  let y := yearOfEra + era * 400
  ⟨if month ≤ 2 then y + 1 else y, month.toNat,
    (dayOfYear - daysBefore monthFromMarch + 1).toNat⟩

/-- The first and the last year that an instant may lie in. -/
def minYear : Int := -262143

def maxYear : Int := 262142

/-- A year with a leap day. -/
def isLeap (year : Int) : Bool :=
  year % 4 == 0 && (year % 100 != 0 || year % 400 == 0)

/-- The number of days of a month. -/
def monthLength (year : Int) (month : Nat) : Nat :=
  if month = 2 then if isLeap year then 29 else 28
  else if month = 4 ∨ month = 6 ∨ month = 9 ∨ month = 11 then 30
  else 31

/-- The date with the given parts, unless the calendar has no such date. -/
def ofParts? (year : Int) (month day : Nat) : Option Date :=
  if minYear ≤ year ∧ year ≤ maxYear ∧ 1 ≤ month ∧ month ≤ 12 ∧ 1 ≤ day ∧
      day ≤ monthLength year month then
    some ⟨year, month, day⟩
  else none

/-- The number of a date within its year, from one. -/
def ordinal (d : Date) : Nat :=
  (d.toDay - (⟨d.year, 1, 1⟩ : Date).toDay + 1).toNat

/-- The quarter of the year, from one. -/
def quarter (d : Date) : Nat :=
  (d.month - 1) / 3 + 1

/-- The day of the week, with Sunday as zero. -/
def weekday (d : Date) : Nat :=
  ((d.toDay + 4) % 7).toNat

/-- The day of the week, with Monday as one and Sunday as seven. -/
def isoWeekday (d : Date) : Nat :=
  (d.weekday + 6) % 7 + 1

/-- The week of the year, when weeks begin with the given weekday and the days before the
    first such weekday are in week zero. -/
def weekFrom (firstWeekday : Nat) (d : Date) : Nat :=
  (d.ordinal + 6 - (d.weekday + 7 - firstWeekday) % 7) / 7

/-- The year and the week by the rule that a week belongs to the year in which its Thursday
    lies. -/
def isoWeek (d : Date) : Int × Nat :=
  let thursday := ofDay (d.toDay + 4 - d.isoWeekday)
  (thursday.year, (thursday.ordinal - 1) / 7 + 1)

end Date

end Calendar

end Letterpress
