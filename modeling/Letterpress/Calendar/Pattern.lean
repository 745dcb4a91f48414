import Letterpress.Calendar.Timestamp
import Letterpress.Number.Power

/-!
# Date Patterns

Patterns in which a percent sign and a letter stand for a part of a date. A pattern is first
taken apart into pieces, so that one with an unknown directive is refused as a whole before
anything is written. A flag between the percent sign and the letter replaces the padding of a
number: a hyphen for none, an underscore for spaces, a zero for zeros. It is refused where
there is no single number to pad.

The time zone is always UTC, so the directives for it are constant. One of them, the flag `#`
on the zone offset, describes how to read an offset and cannot be written at all.

## Main definitions

* `Quantity`: The numbers that a date consists of.
* `Piece`: A piece of a pattern.
* `pieces?`: Takes a pattern apart.
* `Piece.write?`: What a piece stands for at an instant.
* `writePattern`: What a pattern stands for at an instant.
-/

namespace Letterpress

namespace Calendar

/-- The numbers that a date and time consist of. -/
inductive Quantity where
  | year | century | yearOfCentury
  | isoYear | isoYearOfCentury
  | quarter | month | day
  | weekFromSunday | weekFromMonday | isoWeek
  | weekdayFromSunday | weekdayFromMonday | dayOfYear
  | hour | dialHour | minute | second | nanos
  | epochSeconds
  deriving DecidableEq, Repr

/-- A piece of a pattern. -/
inductive Piece where
  | literal (s : String)
  | number (q : Quantity) (pad : Pad)
  | weekdayName (short : Bool)
  | monthName (short : Bool)
  | halfDay (upper : Bool)
  | fraction
  | fractionDigits (groups : Nat) (pointed : Bool)
  | timestamp
  | unwritable
  deriving DecidableEq, Repr

/-- The names of the weekdays, from Sunday. -/
def weekdayNames : List String :=
  ["Sunday", "Monday", "Tuesday", "Wednesday", "Thursday", "Friday", "Saturday"]

/-- The English names of the months. -/
def monthNames : List String :=
  ["January", "February", "March", "April", "May", "June", "July", "August", "September",
   "October", "November", "December"]

/-- The number that a letter stands for, with the padding it has without a flag. -/
def quantityOf? : Char → Option (Quantity × Pad)
  | 'Y' => some (.year, .zero)
  | 'C' => some (.century, .zero)
  | 'y' => some (.yearOfCentury, .zero)
  | 'G' => some (.isoYear, .zero)
  | 'g' => some (.isoYearOfCentury, .zero)
  | 'q' => some (.quarter, .none)
  | 'm' => some (.month, .zero)
  | 'd' => some (.day, .zero)
  | 'e' => some (.day, .space)
  | 'U' => some (.weekFromSunday, .zero)
  | 'W' => some (.weekFromMonday, .zero)
  | 'V' => some (.isoWeek, .zero)
  | 'w' => some (.weekdayFromSunday, .none)
  | 'u' => some (.weekdayFromMonday, .none)
  | 'j' => some (.dayOfYear, .zero)
  | 'H' => some (.hour, .zero)
  | 'k' => some (.hour, .space)
  | 'I' => some (.dialHour, .zero)
  | 'l' => some (.dialHour, .space)
  | 'M' => some (.minute, .zero)
  | 'S' => some (.second, .zero)
  | 'f' => some (.nanos, .zero)
  | 's' => some (.epochSeconds, .none)
  | _ => none

/-- A month, day and year of the century with slashes. -/
def slashDate : List Piece :=
  [.number .month .zero, .literal "/", .number .day .zero, .literal "/",
   .number .yearOfCentury .zero]

/-- Hours and minutes with a colon. -/
def hourMinute : List Piece :=
  [.number .hour .zero, .literal ":", .number .minute .zero]

/-- Hours, minutes and seconds with colons. -/
def hourMinuteSecond : List Piece :=
  hourMinute ++ [.literal ":", .number .second .zero]

/-- The pieces that a letter without a flag stands for. -/
def directiveOf? (c : Char) : Option (List Piece) :=
  match c with
  | 'A' => some [.weekdayName false]
  | 'a' => some [.weekdayName true]
  | 'B' => some [.monthName false]
  | 'b' => some [.monthName true]
  | 'h' => some [.monthName true]
  | 'D' => some slashDate
  | 'x' => some slashDate
  | 'F' => some [.number .year .zero, .literal "-", .number .month .zero, .literal "-",
      .number .day .zero]
  | 'v' => some [.number .day .space, .literal "-", .monthName true, .literal "-",
      .number .year .zero]
  | 'R' => some hourMinute
  | 'T' => some hourMinuteSecond
  | 'X' => some hourMinuteSecond
  | 'r' => some [.number .dialHour .zero, .literal ":", .number .minute .zero, .literal ":",
      .number .second .zero, .literal " ", .halfDay true]
  | 'c' => some ([.weekdayName true, .literal " ", .monthName true, .literal " ",
      .number .day .space, .literal " "] ++ hourMinuteSecond ++
      [.literal " ", .number .year .zero])
  | 'P' => some [.halfDay false]
  | 'p' => some [.halfDay true]
  | 'Z' => some [.literal "UTC"]
  | 'z' => some [.literal "+0000"]
  | '+' => some [.timestamp]
  | 'n' => some [.literal "\n"]
  | 't' => some [.literal "\t"]
  | '%' => some [.literal "%"]
  | _ => (quantityOf? c).map fun (q, pad) => [.number q pad]

/-- The pieces of the directive behind a percent sign, and the count of its characters. -/
def directive? (cs : List Char) : Option (List Piece × Nat) :=
  let withPad (pad : Pad) (c : Char) := (quantityOf? c).map fun (q, _) => ([Piece.number q pad], 2)
  match cs with
  | '-' :: c :: _ => withPad .none c
  | '_' :: c :: _ => withPad .space c
  | '0' :: c :: _ => withPad .zero c
  | '#' :: 'z' :: _ => some ([.unwritable], 2)
  | ':' :: 'z' :: _ => some ([.literal "+00:00"], 2)
  | ':' :: ':' :: 'z' :: _ => some ([.literal "+00:00:00"], 3)
  | ':' :: ':' :: ':' :: 'z' :: _ => some ([.literal "+00"], 4)
  | '.' :: 'f' :: _ => some ([.fraction], 2)
  | '.' :: '3' :: 'f' :: _ => some ([.fractionDigits 1 true], 3)
  | '.' :: '6' :: 'f' :: _ => some ([.fractionDigits 2 true], 3)
  | '.' :: '9' :: 'f' :: _ => some ([.fractionDigits 3 true], 3)
  | '3' :: 'f' :: _ => some ([.fractionDigits 1 false], 2)
  | '6' :: 'f' :: _ => some ([.fractionDigits 2 false], 2)
  | '9' :: 'f' :: _ => some ([.fractionDigits 3 false], 2)
  | c :: _ => (directiveOf? c).map fun ps => (ps, 1)
  | [] => none

/-- Takes a pattern apart. The first `skip` characters belong to a directive that was already
    read. -/
def piecesFrom? : Nat → List Char → Option (List Piece)
  | _, [] => some []
  | skip + 1, _ :: rest => piecesFrom? skip rest
  | 0, c :: rest =>
    if c == '%' then
      (directive? rest).bind fun (ps, skip) => (piecesFrom? skip rest).map (ps ++ ·)
    else (piecesFrom? 0 rest).map (.literal c.toString :: ·)

/-- Takes a pattern apart, unless one of its directives is unknown. -/
def pieces? (pattern : String) : Option (List Piece) :=
  piecesFrom? 0 pattern.toList

/-- The first three letters of a name. -/
def shortName (name : String) : String :=
  (name.take 3).toString

/-- The name of the weekday of a date, or its first three letters. -/
def Date.weekdayName (short : Bool) (d : Date) : String :=
  let name := weekdayNames.getD d.weekday ""
  if short then shortName name else name

/-- The English name of the month of a date, or its first three letters. -/
def Date.monthName (short : Bool) (d : Date) : String :=
  let name := monthNames.getD (d.month - 1) ""
  if short then shortName name else name

/-- A number in two places. The number is kept in one byte, and its tens are the character so
    far behind the zero; from a hundred on these are no digits any more. -/
def twoPlaces (pad : Pad) (n : Int) : String :=
  let byte := (n % 256).toNat
  let ones := Char.ofNat ('0'.toNat + byte % 10)
  let tens := byte / 10
  String.ofList <|
    match tens, pad with
    | 0, .none => [ones]
    | 0, .space => [' ', ones]
    | _, _ => [Char.ofNat ('0'.toNat + tens), ones]

/-- A number of a date with the given padding. -/
def Quantity.write (q : Quantity) (pad : Pad) (t : Instant) : String :=
  let d := t.date
  match q with
  | .year => yearText pad d.year
  | .century => twoPlaces pad (d.year / 100)
  | .yearOfCentury => twoPlaces pad (d.year % 100)
  | .isoYear => yearText pad d.isoWeek.1
  | .isoYearOfCentury => twoPlaces pad (d.isoWeek.1 % 100)
  | .quarter => toString d.quarter
  | .month => twoPlaces pad d.month
  | .day => twoPlaces pad d.day
  | .weekFromSunday => twoPlaces pad (d.weekFrom 0)
  | .weekFromMonday => twoPlaces pad (d.weekFrom 1)
  | .isoWeek => twoPlaces pad d.isoWeek.2
  | .weekdayFromSunday => toString d.weekday
  | .weekdayFromMonday => toString d.isoWeekday
  | .dayOfYear => padded pad 3 false d.ordinal
  | .hour => twoPlaces pad t.hour
  | .dialHour => twoPlaces pad t.dialHour
  | .minute => twoPlaces pad t.minute
  | .second => twoPlaces pad t.clockSecond
  | .nanos => padded pad 9 false t.clockNanos
  | .epochSeconds => padded pad 9 false t.seconds

/-- What a piece stands for at an instant, if it can be written. -/
def Piece.write? (t : Instant) : Piece → Option String
  | .literal s => some s
  | .number q pad => some (q.write pad t)
  | .weekdayName short => some (t.date.weekdayName short)
  | .monthName short => some (t.date.monthName short)
  | .halfDay upper =>
    some (match t.isAfternoon, upper with
      | false, false => "am"
      | false, true => "AM"
      | true, false => "pm"
      | true, true => "PM")
  | .fraction => some (shortestFraction t.clockNanos)
  | .fractionDigits groups pointed =>
    let digits := zeroPadded (3 * groups) (t.clockNanos / Number.tenTo (9 - 3 * groups))
    some (if pointed then "." ++ digits else digits)
  | .timestamp => some (t.timestamp .asNeeded "+00:00")
  | .unwritable => none

/-- Why a pattern yields no text. -/
inductive PatternError where
  | malformed (pattern : String)
  | unwritable (pattern : String)
  deriving DecidableEq, Repr

/-- What a pattern stands for at an instant. -/
def writePattern (pattern : String) (t : Instant) : Except PatternError String :=
  match pieces? pattern with
  | none => .error (.malformed pattern)
  | some ps =>
    match ps.mapM (Piece.write? t) with
    | none => .error (.unwritable pattern)
    | some texts => .ok (String.join texts)

namespace Instant

/-- The long text of an instant, with the weekday and the name of the time zone. -/
def longText (t : Instant) : String :=
  let d := t.date
  d.weekdayName true ++ " " ++ d.monthName true ++ " " ++ zeroPadded 2 d.day ++ " " ++
    yearText .zero d.year ++ " " ++ t.clock ++ " GMT+0000 (Coordinated Universal Time)"

end Instant

end Calendar

end Letterpress
