import Letterpress.Filter.Basic
import Letterpress.Number.Fixed
import Letterpress.Text.Case

/-!
# Locales

How numbers, amounts of money, percentages and dates are written in a language. A locale is
given by a tag such as `de-AT`; only the language in front counts, and an unknown language is
treated like English. Each language is one value of `Locale`, and the functions below know
nothing about languages beyond these values.

Numbers are rounded from their exact value, a half to the even neighbour. A number that is
rounded to zero has no minus sign, except for amounts of money, which keep the sign of the
number they are made from.

## Main definitions

* `Locale`: The conventions of a language.
* `Locale.ofTag`: The conventions for a tag.
* `Locale.number`, `Locale.currency`, `Locale.percent`: Numbers and amounts.
* `Locale.takesSingular`: Which form of a noun goes with a number.
* `Locale.writeDate`: Dates in a style or by a pattern.
-/

namespace Letterpress

open Calendar (Date Instant)
open Number (Exact)

/-- Which numbers take the singular of a noun. -/
inductive SingularRule where
  | one
  | belowTwo
  | never
  deriving DecidableEq, Repr

/-- The order of the parts of a date in figures. -/
inductive DateLayout where
  | monthDayYear
  | dayMonthYear
  | yearMonthDay
  deriving DecidableEq, Repr

/-- The words behind the year, the month and the day of a date written out. -/
structure DateWords where
  year : String
  month : String
  day : String
  deriving Repr

/-- The conventions of a language. -/
structure Locale where
  decimalMark : Char
  groupMark : Char
  currencyBehind : Bool
  percentSpaced : Bool
  singular : SingularRule
  dateLayout : DateLayout
  dateMark : Char
  monthNames : Option (List String)
  dateWords : Option DateWords
  deriving Repr

namespace Locale

def english : Locale where
  decimalMark := '.'
  groupMark := ','
  currencyBehind := false
  percentSpaced := false
  singular := .one
  dateLayout := .monthDayYear
  dateMark := '/'
  monthNames := some Calendar.monthNames
  dateWords := none

def german : Locale :=
  { english with
    decimalMark := ','
    groupMark := '.'
    currencyBehind := true
    percentSpaced := true
    dateLayout := .dayMonthYear
    dateMark := '.'
    monthNames := some ["Januar", "Februar", "März", "April", "Mai", "Juni", "Juli", "August",
      "September", "Oktober", "November", "Dezember"] }

/-- Spanish, Italian and Dutch agree in all that is covered here. -/
def spanish : Locale :=
  { english with
    decimalMark := ','
    groupMark := '.'
    currencyBehind := true
    percentSpaced := true
    dateLayout := .dayMonthYear
    monthNames := none }

def portuguese : Locale :=
  { english with
    decimalMark := ','
    groupMark := '.'
    currencyBehind := true
    singular := .belowTwo
    dateLayout := .dayMonthYear
    monthNames := none }

/-- French groups digits with a narrow space that does not break. -/
def french : Locale :=
  { english with
    decimalMark := ','
    groupMark := '\u202f'
    currencyBehind := true
    percentSpaced := true
    singular := .belowTwo
    dateLayout := .dayMonthYear
    monthNames := some ["janvier", "février", "mars", "avril", "mai", "juin", "juillet", "août",
      "septembre", "octobre", "novembre", "décembre"] }

/-- Japanese and Chinese agree in all that is covered here. -/
def japanese : Locale :=
  { english with
    singular := .never
    dateLayout := .yearMonthDay
    monthNames := none
    dateWords := some ⟨"年", "月", "日"⟩ }

def korean : Locale :=
  { japanese with dateWords := some ⟨"년 ", "월 ", "일"⟩ }

/-- The language of a locale tag: what stands before the first hyphen or underscore, in lower
    case. -/
def languageOf (tag : String) : String :=
  Text.asciiLower (String.ofList (tag.toList.takeWhile fun c => c != '-' && c != '_'))

/-- The conventions for a locale tag. -/
def ofTag (tag : String) : Locale :=
  match languageOf tag with
  | "de" => german
  | "es" => spanish
  | "it" => spanish
  | "nl" => spanish
  | "pt" => portuguese
  | "fr" => french
  | "ja" => japanese
  | "zh" => japanese
  | "ko" => korean
  | _ => english

/-- Puts the mark between groups of three digits, counted from the right. -/
def grouped (mark : Char) : List Char → List Char
  | [] => []
  | d :: rest =>
    if rest.length % 3 = 0 ∧ rest ≠ [] then d :: mark :: grouped mark rest
    else d :: grouped mark rest

/-- The digits of the finite number `m * 2 ^ q`. Without a given count of places there are up
    to three, and none that is not needed. -/
def digitsOf (m : Nat) (q : Int) (places : Option Nat) : Number.FixedDecimal :=
  match places with
  | some n => Number.fixed n m q
  | none => (Number.fixed 3 m q).shorten

/-- Digits with the marks of the locale. -/
def marked (l : Locale) (d : Number.FixedDecimal) : List Char :=
  let whole := grouped l.groupMark d.whole
  if d.places.isEmpty then whole else whole ++ l.decimalMark :: d.places

/-- A number with the marks of the locale. -/
def number (l : Locale) (x : Exact) (places : Option Nat) : String :=
  match x with
  | .nan => "NaN"
  | .infinite negative => Number.signed negative "∞"
  | .finite negative m q =>
    let d := digitsOf m q places
    Number.signed (negative && !d.isZero) (String.ofList (l.marked d))

/-- The symbol of a currency, and the places of its amounts. A currency without a symbol is
    shown by its code. -/
def currencySymbol (code : String) : String × Nat :=
  match code with
  | "USD" => ("$", 2)
  | "EUR" => ("€", 2)
  | "GBP" => ("£", 2)
  | "JPY" => ("¥", 0)
  | "CNY" => ("CN¥", 2)
  | _ => (code, 2)

/-- A space that does not break. -/
def fixedSpace : String := "\u00a0"

/-- An amount of money. A symbol in front that consists of letters is set apart, and so is any
    symbol behind the amount. -/
def currency (l : Locale) (x : Exact) (code : String) (places : Option Nat) : String :=
  let (symbol, usual) := currencySymbol (Text.asciiUpper (Text.trim code))
  let amount := l.number x.size (some (places.getD usual))
  Number.signed x.isBelowZero <|
    if l.currencyBehind then amount ++ fixedSpace ++ symbol
    else if symbol.toList.all Char.isAlpha then symbol ++ fixedSpace ++ amount
    else symbol ++ amount

/-- A number as a percentage, without places unless they are asked for. -/
def percent (l : Locale) (x : Float) (places : Option Nat) : String :=
  let amount := l.number (Number.exact (x * 100)) (some (places.getD 0))
  if l.percentSpaced then amount ++ fixedSpace ++ "%" else amount ++ "%"

/-- The singular of a noun goes with the number. -/
def takesSingular (l : Locale) (x : Exact) : Bool :=
  match l.singular, x with
  | .one, x => x.integer? == some 1
  | .belowTwo, .finite _ m q => Exact.wholePart m q < 2
  | .belowTwo, _ => false
  | .never, _ => false

/-- A date in figures. In a short year only the last two digits are left, behind the sign that
    the year has. -/
def dateInFigures (l : Locale) (short : Bool) (d : Date) : String :=
  let mark := l.dateMark.toString
  let year :=
    if short then Calendar.padded .zero 2 false (d.year.tmod 100) else toString d.year
  let two := Calendar.zeroPadded 2
  match l.dateLayout with
  | .monthDayYear => toString d.month ++ mark ++ toString d.day ++ mark ++ year
  | .dayMonthYear => two d.day ++ mark ++ two d.month ++ mark ++ year
  | .yearMonthDay => toString d.year ++ mark ++ two d.month ++ mark ++ two d.day

/-- A date of medium length: with a short month name where the month comes first and has a
    name, and in figures otherwise. -/
def dateInBrief (l : Locale) (d : Date) : String :=
  match l.monthNames, l.dateLayout with
  | some names, .monthDayYear =>
    Calendar.shortName (names.getD (d.month - 1) "") ++ s!" {d.day}, {d.year}"
  | _, _ => l.dateInFigures false d

/-- A date written out, as far as the locale has words for that. A language that puts points
    into dates puts one behind the day. -/
def dateInWords (l : Locale) (d : Date) : String :=
  match l.dateWords, l.monthNames with
  | some w, _ => toString d.year ++ w.year ++ toString d.month ++ w.month ++ toString d.day ++ w.day
  | none, some names =>
    let month := names.getD (d.month - 1) ""
    if l.dateLayout = .monthDayYear then month ++ s!" {d.day}, {d.year}"
    else
      let point := if l.dateMark = '.' then "." else ""
      toString d.day ++ point ++ " " ++ month ++ " " ++ toString d.year
  | none, none => l.dateInFigures false d

/-- A date in one of the named styles, or else by a pattern. -/
def writeDate (l : Locale) (t : Instant) (style : String) : Except DateError String :=
  match style with
  | "iso" => .ok (t.timestamp .seconds "Z")
  | "short" => .ok (l.dateInFigures (l.dateLayout != .yearMonthDay) t.date)
  | "medium" => .ok (l.dateInBrief t.date)
  | "long" => .ok (l.dateInWords t.date)
  | pattern => (Calendar.writePattern pattern t).mapError .pattern

end Locale

end Letterpress
