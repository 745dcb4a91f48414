import Letterpress.Calendar.Reading
import Letterpress.Filter.Argument
import Letterpress.Locale

/-!
# Locale Filters

The filters for numbers, money, percentages, plurals and dates. They belong to a locale, and
read the value that they are given as a number or as a date. Arguments are looked at before
the value, so that a wrong argument is reported whatever the value is.

## Main definitions

* `numberOf`, `instantOf`: A value read as a number or as a date.
* `LocaleFilter.number`, `LocaleFilter.date`, …: The single filters.
* `LocaleFilter.all`: The filters of a locale, with their names.
-/

namespace Letterpress

open Calendar (Instant)

/-- The most decimal places that can be asked for. -/
def placesLimit : Nat := 100

/-- A value read as a number. Only a number itself may be undefined. -/
def numberOf (filter : String) (v : Value) : Except FilterError Float :=
  let x := v.asNumber
  match v with
  | .number _ => .ok x
  | _ =>
    if Number.exact x = .nan then .error (.notNumeric filter v.kind v.display) else .ok x

/-- A value read as a date: a date itself, a number of milliseconds, or a written date. -/
def instantOf (v : Value) : Except DateError Instant :=
  match v with
  | .date t => .ok t
  | .number x =>
    match (Number.exact x).truncated with
    | none => .error (.wrongKind v.kind)
    | some ms =>
      match Instant.ofMillis? ms with
      | some t => .ok t
      | none => .error (.timestampOutOfRange x)
  | .text s =>
    let trimmed := Text.trim s
    match Instant.ofText? trimmed with
    | some t => .ok t
    | none => .error (.unrecognized trimmed)
  | v => .error (.wrongKind v.kind)

namespace LocaleFilter

/-- Writes a value as a number. -/
def number (l : Locale) (v : Value) (args : List String) : FilterResult := do
  let places ← boundedArgument "number decimals" placesLimit args 0
  let x ← numberOf "number" v
  return .text (l.number (Number.exact x) places)

/-- Writes a value as an amount in the currency of the first argument. -/
def currency (l : Locale) (v : Value) (args : List String) : FilterResult := do
  let code := args.headD ""
  if (Text.trim code).isEmpty then .error .currencyMissing
  else
    let places ← boundedArgument "currency decimals" placesLimit args 1
    let x ← numberOf "currency" v
    return .text (l.currency (Number.exact x) code places)

/-- Writes a value as a percentage. -/
def percent (l : Locale) (v : Value) (args : List String) : FilterResult := do
  let places ← boundedArgument "percent decimals" placesLimit args 0
  let x ← numberOf "percent" v
  return .text (l.percent x places)

/-- Chooses between a singular and a plural. -/
def plural (l : Locale) (v : Value) (args : List String) : FilterResult :=
  match args with
  | [one, other] => do
    let x ← numberOf "plural" v
    return .text (if l.takesSingular (Number.exact x) then one else other)
  | _ => .error (.wrongCount "plural" 2 args.length)

/-- Writes a value as a date, in medium length unless a style is given. -/
def date (l : Locale) (v : Value) (args : List String) : FilterResult :=
  let written := do l.writeDate (← instantOf v) (args.headD "medium")
  match written with
  | .ok s => .ok (.text s)
  | .error e => .error (.date e)

/-- The filters of a locale, with their names. -/
def all (l : Locale) : List (String × Filter) :=
  [("number", .immediate (number l)),
   ("currency", .immediate (currency l)),
   ("percent", .immediate (percent l)),
   ("plural", .immediate (plural l)),
   ("date", .immediate (date l))]

end LocaleFilter

end Letterpress
