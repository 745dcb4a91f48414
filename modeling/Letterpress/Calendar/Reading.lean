import Letterpress.Calendar.Instant
import Letterpress.Number.Reading
import Letterpress.Text.Blank

/-!
# Reading Dates

Three written forms of a date are understood, and tried in this order:

1. the timestamp of RFC 3339, with fixed widths, an optional fraction of a second, and a time
   zone;
2. a date and a time with `T` between them and no time zone;
3. a date alone, which means its midnight.

The last two are lax: a field may have fewer digits than usual, blanks may stand before a
field, and a year with a sign may have any number of digits. Blanks around the whole text do
not count. All times are converted to UTC, and a second numbered sixty is a leap second.

## Main definitions

* `Instant.ofTimestamp?`: The first form.
* `Instant.ofText?`: Any of the forms.
-/

namespace Letterpress

namespace Calendar

open Letterpress.Number (digitsValue tenTo)

/-- Takes one expected character off the front. -/
def expect (c : Char) : List Char → Option (List Char)
  | [] => none
  | d :: rest => if c == d then some rest else none

/-- Takes exactly `width` digits off the front. -/
def fixedField (width : Nat) (cs : List Char) : Option (Nat × List Char) :=
  let ds := cs.take width
  if ds.length = width ∧ ds.all Char.isDigit then some (digitsValue ds, cs.drop width) else none

/-- Takes at least one and at most `width` digits off the front, after any blanks. -/
def laxField (width : Nat) (cs : List Char) : Option (Nat × List Char) :=
  let cs := Text.trimLeft cs
  let ds := (cs.take width).takeWhile Char.isDigit
  if ds.isEmpty then none else some (digitsValue ds, cs.drop ds.length)

/-- Takes a year off the front, after any blanks: all the digits behind a sign, or up to four
    without one. -/
def laxYear (cs : List Char) : Option (Int × List Char) :=
  match Text.trimLeft cs with
  | '-' :: rest => (laxSigned rest).map fun (n, rest) => (-(n : Int), rest)
  | '+' :: rest => (laxSigned rest).map fun (n, rest) => ((n : Int), rest)
  | cs => (laxField 4 cs).map fun (n, rest) => ((n : Int), rest)
where
  /-- All the digits behind a sign, with no blank between them and the sign. -/
  laxSigned (cs : List Char) : Option (Nat × List Char) :=
    let ds := cs.takeWhile Char.isDigit
    if ds.isEmpty then none else some (digitsValue ds, cs.dropWhile Char.isDigit)

/-- The instant of a date and a time of day. A second numbered sixty becomes the leap second
    after the fifty-ninth. -/
def instant? (year : Int) (month day hour minute second nanos : Nat) : Option Instant := do
  let d ← Date.ofParts? year month day
  if hour < 24 ∧ minute < 60 ∧ second ≤ 60 then
    if second = 60 then
      some ⟨d.toDay, hour * 3600 + minute * 60 + 59, nanos + 1000000000⟩
    else some ⟨d.toDay, hour * 3600 + minute * 60 + second, nanos⟩
  else none

/-- A fraction of a second in nanoseconds, if there is one. Digits beyond the ninth do not
    count. -/
def fraction : List Char → Option (Nat × List Char)
  | '.' :: rest =>
    let ds := rest.takeWhile Char.isDigit
    if ds.isEmpty then none
    else
      let kept := ds.take 9
      some (digitsValue kept * tenTo (9 - kept.length), rest.dropWhile Char.isDigit)
  | rest => some (0, rest)

/-- A time zone as seconds ahead of UTC: `Z`, or a sign with hours and minutes. Both the
    hyphen and the true minus sign are taken for a minus. -/
def zone : List Char → Option (Int × List Char)
  | 'Z' :: rest => some (0, rest)
  | 'z' :: rest => some (0, rest)
  | '+' :: rest => offset rest
  | '-' :: rest => (offset rest).map fun (s, rest) => (-s, rest)
  | '−' :: rest => (offset rest).map fun (s, rest) => (-s, rest)
  | _ => none
where
  /-- Hours and minutes with a colon between them, less than a day. -/
  offset (cs : List Char) : Option (Int × List Char) := do
    let (hours, cs) ← fixedField 2 cs
    let cs ← expect ':' cs
    let (minutes, cs) ← fixedField 2 cs
    if hours < 24 ∧ minutes < 60 then some ((hours * 3600 + minutes * 60 : Nat), cs) else none

/-- The letter between a date and a time, or a space in its place. -/
def betweenDateAndTime : List Char → Option (List Char)
  | 'T' :: rest => some rest
  | 't' :: rest => some rest
  | ' ' :: rest => some rest
  | _ => none

namespace Instant

/-- The timestamp form, as the characters of a whole text. -/
def ofTimestamp? (cs : List Char) : Option Instant := do
  let (year, cs) ← fixedField 4 cs
  let (month, cs) ← fixedField 2 (← expect '-' cs)
  let (day, cs) ← fixedField 2 (← expect '-' cs)
  let (hour, cs) ← fixedField 2 (← betweenDateAndTime cs)
  let (minute, cs) ← fixedField 2 (← expect ':' cs)
  let (second, cs) ← fixedField 2 (← expect ':' cs)
  let (nanos, cs) ← fraction cs
  let (ahead, cs) ← zone cs
  if cs.isEmpty then
    (instant? year month day hour minute second nanos).map (·.shift (-ahead))
  else none

/-- The lax date in front of a text, and the rest of it. -/
def laxDate (cs : List Char) : Option ((Int × Nat × Nat) × List Char) := do
  let (year, cs) ← laxYear cs
  let (month, cs) ← laxField 2 (← expect '-' cs)
  let (day, cs) ← laxField 2 (← expect '-' cs)
  some ((year, month, day), cs)

/-- A date and a time without a time zone. -/
def ofDateTime? (cs : List Char) : Option Instant := do
  let ((year, month, day), cs) ← laxDate cs
  let (hour, cs) ← laxField 2 (← expect 'T' cs)
  let (minute, cs) ← laxField 2 (← expect ':' cs)
  let (second, cs) ← laxField 2 (← expect ':' cs)
  if cs.isEmpty then instant? year month day hour minute second 0 else none

/-- A date alone. -/
def ofDateOnly? (cs : List Char) : Option Instant := do
  let ((year, month, day), cs) ← laxDate cs
  if cs.isEmpty then (Date.ofParts? year month day).map ofDate else none

/-- The instant that a text without blanks around it stands for. -/
def ofText? (s : String) : Option Instant :=
  let cs := s.toList
  (ofTimestamp? cs).or ((ofDateTime? cs).or (ofDateOnly? cs))

end Instant

end Calendar

end Letterpress
