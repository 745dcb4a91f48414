import Letterpress.Pending
import Letterpress.Value

/-!
# Filters

A filter turns a value into another value, with the help of the texts that a template gives
it as arguments. It may fail. Some filters answer at once; others may have to wait first, and
can then only be used where a template is rendered with waiting.

## Main definitions

* `FilterError`: Why a filter failed.
* `FilterError.message`: The wording of an error.
* `Filter`: A filter that answers at once, or one that may wait.
* `Filter.apply`: Applies either.
* `FilterSet`: Filters by name.
-/

namespace Letterpress

/-- Why a value is no date, or why a date cannot be written in the wanted way. -/
inductive DateError where
  | timestampOutOfRange (x : Float)
  | unrecognized (s : String)
  | wrongKind (kind : String)
  | pattern (e : Calendar.PatternError)

/-- The wording of an error about a date. -/
def DateError.message : DateError → String
  | .timestampOutOfRange x => "timestamp " ++ Number.positionalText x ++ " is out of range"
  | .unrecognized s => "\"" ++ s ++ "\" is not a recognizable date"
  | .wrongKind kind => "cannot format a " ++ kind ++ " as a date"
  | .pattern (.malformed p) => "invalid date format \"" ++ p ++ "\""
  | .pattern (.unwritable p) => "cannot format date with \"" ++ p ++ "\""

/-- Why a filter failed. A filter from outside of the library gives its reason as a text. -/
inductive FilterError where
  | notNatural (what given : String)
  | notInteger (what given : String)
  | tooLarge (what : String) (limit given : Nat)
  | wrongCount (filter : String) (expected given : Nat)
  | currencyMissing
  | notNumeric (filter kind given : String)
  | sideUnknown (given : String)
  | date (e : DateError)
  | other (reason : String)

/-- The wording of an error. -/
def FilterError.message : FilterError → String
  | .notNatural what given =>
    what ++ " must be a non-negative integer, got \"" ++ given ++ "\""
  | .notInteger what given => what ++ " must be an integer, got \"" ++ given ++ "\""
  | .tooLarge what limit given => what ++ s!" must be at most {limit}, got {given}"
  | .wrongCount filter expected given => filter ++ s!" expects {expected} arguments, got {given}"
  | .currencyMissing => "currency expects a currency code"
  | .notNumeric filter kind given =>
    filter ++ " expects a number, got " ++ kind ++ " \"" ++ given ++ "\""
  | .sideUnknown given => "pad side must be left or right, got \"" ++ given ++ "\""
  | .date e => e.message
  | .other reason => reason

/-- What a filter makes of a value. -/
abbrev FilterResult := Except FilterError Value

/-- A filter. The arguments are the texts that follow its name in a template. -/
inductive Filter where
  | immediate (run : Value → List String → FilterResult)
  | waiting (run : Value → List String → Pending FilterResult)

namespace Filter

/-- The filter may have to wait. -/
def isWaiting : Filter → Bool
  | .immediate _ => false
  | .waiting _ => true

/-- Applies a filter, and waits if need be. -/
def apply (f : Filter) (v : Value) (args : List String) : Pending FilterResult :=
  match f with
  | .immediate run => .done (run v args)
  | .waiting run => run v args

/-- The result of a filter after all waiting. -/
def outcome (f : Filter) (v : Value) (args : List String) : FilterResult :=
  (f.apply v args).result

end Filter

/-- Filters by name. -/
abbrev FilterSet := Dictionary Filter

end Letterpress
