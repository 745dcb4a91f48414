import Letterpress.Filter.Basic
import Letterpress.Template.ReadError

/-!
# Faults

Everything that can go wrong between the source of a template and its output. A fault says
where it arose in the words of the template: by the path of a placeholder, the name of a
filter, the chain of templates.

## Main definitions

* `FailedFilter`: A filter that failed, with all that it was given.
* `Fault`: What went wrong.
* `Fault.message`: The wording of a fault.
-/

namespace Letterpress

/-- A filter that failed in a placeholder, with the value and the arguments it was given. -/
structure FailedFilter where
  filter : String
  placeholder : String
  input : Value
  args : List String
  reason : FilterError

/-- What went wrong with a template. -/
inductive Fault where
  | malformed (e : ReadError)
  | missingKey (path : String)
  | unknownFilter (name placeholder : String)
  | unknownTemplate (name : String)
  | circularInclusion (chain : List String)
  | filterFailed (f : FailedFilter)
  | waitingFilter (filter placeholder : String)
  | pluginFailed (plugin reason : String)

/-- A placeholder without filters, as a template would have it. -/
def braced (key : String) : String := "\x7b" ++ key ++ "\x7d"

/-- Names with arrows between them. -/
def chainText (chain : List String) : String := " -> ".intercalate chain

/-- The wording of a fault. -/
def Fault.message : Fault → String
  | .malformed e => e.message
  | .missingKey path => "Missing key \"" ++ path ++ "\""
  | .unknownFilter name placeholder =>
    "Unknown filter \"" ++ name ++ "\" in placeholder \"" ++ braced placeholder ++ "\""
  | .unknownTemplate name => "Unknown template \"" ++ name ++ "\""
  | .circularInclusion chain => "Circular include: " ++ chainText chain
  | .filterFailed f =>
    "Filter \"" ++ f.filter ++ "\" failed in placeholder \"" ++ braced f.placeholder ++ "\": " ++
      f.reason.message
  | .waitingFilter filter placeholder =>
    "Filter \"" ++ filter ++ "\" in placeholder \"" ++ braced placeholder ++
      "\" is asynchronous; render this template with render_async"
  | .pluginFailed plugin reason => "Plugin \"" ++ plugin ++ "\" failed: " ++ reason

end Letterpress
