import Letterpress.Filter.Basic

/-!
# Options

What a caller can choose when a template is compiled: the locale, what happens to a
placeholder whose value is missing, filters of the caller's own, and the size of the cache.

Strict keys turn every missing value into an error, whatever else was chosen for it.

## Main definitions

* `AbsencePolicy`: What happens to a placeholder without a value.
* `Options`: All that can be chosen.
* `Options.effective`: What happens in the end.
-/

namespace Letterpress

/-- What happens to a placeholder without a value: it is kept as it was written, without its
    filters; or it is an error; or a function of its path takes its place. -/
inductive AbsencePolicy where
  | keep
  | error
  | callback (f : String → String)

/-- The sort of an `AbsencePolicy`. Two callbacks cannot be told apart. -/
inductive AbsenceKind where
  | keep
  | error
  | callback
  deriving DecidableEq, Repr

namespace AbsencePolicy

/-- The sort of what happens. -/
def kind : AbsencePolicy → AbsenceKind
  | .keep => .keep
  | .error => .error
  | .callback _ => .callback

end AbsencePolicy

/-- The name of a sort of handling. -/
def AbsenceKind.name : AbsenceKind → String
  | .keep => "Keep"
  | .error => "Error"
  | .callback => "Callback"

/-- What is shown of a handling. A callback shows nothing of its function. -/
def AbsencePolicy.summary (m : AbsencePolicy) : String :=
  match m.kind with
  | .callback => AbsenceKind.callback.name ++ "(<function>)"
  | k => k.name

def usualLocale : String := "en-US"

def usualCacheSize : Nat := 200

/-- All that can be chosen for a template. Without a cache size the cache stays as it is. -/
structure Options where
  locale : String := usualLocale
  whenAbsent : AbsencePolicy := .keep
  strict : Bool := false
  filters : FilterSet := .empty
  cacheSize : Option Nat := none
  deriving Inhabited

namespace Options

/-- What happens to a placeholder without a value in the end. -/
def effective (o : Options) : AbsencePolicy :=
  if o.strict then .error else o.whenAbsent

/-- A placeholder without a value is an error. -/
def refusesAbsence (o : Options) : Bool :=
  o.effective.kind == .error

end Options

end Letterpress
