import Letterpress.Analysis.Arity
import Letterpress.Analysis.Cycle
import Letterpress.Analysis.Shape
import Letterpress.Analysis.Suggestion
import Letterpress.Source.Excerpt

/-!
# Analysis

Looks for mistakes in a source without rendering it. Unlike compilation, which stops at the
first fault, an analysis finds all it can: unknown filters and templates, wrong counts of
arguments, inclusions that go round in circles, filters that do not fit their values, and,
given sample data, missing values. A source that cannot be read has exactly one finding.

A `Finding` is what was found; a `Diagnostic` is a finding with its place. Diagnostics are
sorted by where they begin, and those of one place stay in the order in which they were found.

## Main definitions

* `Finding`: What was found, with its severity, wording and data.
* `Diagnostic`: A finding and where it is.
* `placeholderSightings`, `inclusionSightings`: The findings about one node.
* `analyze`: The diagnostics of a source.
* `reportText`: All diagnostics with excerpts of the source.
-/

namespace Letterpress

/-- How bad a finding is. -/
inductive Severity where
  | error
  | warning
  deriving DecidableEq, Repr

/-- The name of a severity. -/
def Severity.name : Severity → String
  | .error => "error"
  | .warning => "warning"

/-- What an analysis can find. -/
inductive Finding where
  | malformed (fault : ReadFault)
  | unknownFilter (name : String) (suggestions : List String)
  | badArguments (filter : String) (arity : Arity) (given : Nat)
  | suspiciousFilter (filter path : String) (wanted actual : Shape)
  | missingKey (path : String)
  | unknownTemplate (name : String) (suggestions : List String)
  | circularInclusion (name : String) (chain : List String)
  deriving DecidableEq, Repr

namespace Finding

/-- The code of a finding. -/
def code : Finding → String
  | .malformed _ => "parse-error"
  | .unknownFilter .. => "unknown-filter"
  | .badArguments .. => "bad-args"
  | .suspiciousFilter .. => "suspicious-filter"
  | .missingKey _ => "missing-key"
  | .unknownTemplate .. => "unknown-template"
  | .circularInclusion .. => "circular-include"

/-- How bad a finding is. Only a guess is a warning. -/
def severity : Finding → Severity
  | .suspiciousFilter .. => .warning
  | _ => .error

/-- The wording of a finding. -/
def message : Finding → String
  | .malformed fault => fault.text
  | .unknownFilter name suggestions =>
    "Unknown filter \"" ++ name ++ "\"" ++ suggestionQuestion suggestions
  | .badArguments filter arity given =>
    "Filter \"" ++ filter ++ "\" expects " ++ arity.inWords ++ s!", got {given}"
  | .suspiciousFilter filter path wanted actual =>
    "Filter \"" ++ filter ++ "\" expects a " ++ wanted.name ++ " but \"" ++ path ++
      "\" looks like a " ++ actual.name
  | .missingKey path => "Missing key \"" ++ path ++ "\""
  | .unknownTemplate name suggestions =>
    "Unknown template \"" ++ name ++ "\"" ++ suggestionQuestion suggestions
  | .circularInclusion _ chain => "Circular include: " ++ chainText chain

/-- Advice on a finding. -/
def hint : Finding → Option String
  | .circularInclusion name _ => some ("template \"" ++ name ++ "\" eventually includes itself")
  | _ => none

/-- The particulars of a finding as data. -/
def data (f : Finding) : Json :=
  let texts (items : List String) : Json := .list (items.map .text)
  .record <| Entries.ofList <|
    match f with
    | .malformed _ => []
    | .unknownFilter name suggestions =>
      [("filter", .text name), ("suggestions", texts suggestions)]
    | .badArguments filter arity given =>
      [("filter", .text filter), ("expected", arity.asData), ("min", .whole arity.least),
       ("max", (arity.most.map fun n => Json.whole n).getD .null), ("got", .whole given)]
    | .suspiciousFilter filter path wanted actual =>
      [("filter", .text filter), ("path", .text path), ("expected", .text wanted.name),
       ("actual", .text actual.name)]
    | .missingKey path => [("path", .text path)]
    | .unknownTemplate name suggestions =>
      [("name", .text name), ("suggestions", texts suggestions)]
    | .circularInclusion _ chain => [("chain", texts chain)]

end Finding

/-- A finding and where it is. The line and the column say once more where the range begins. -/
structure Diagnostic where
  finding : Finding
  offset : Nat
  range : Range
  line : Nat
  column : Nat
  deriving DecidableEq, Repr

/-- A finding about a stretch of source. -/
structure Sighting where
  finding : Finding
  span : Span
  deriving DecidableEq, Repr

/-- The finding with its place. -/
def Sighting.diagnostic (s : Sighting) (index : LineTable) : Diagnostic :=
  let range := index.range s.span
  ⟨s.finding, s.span.start, range, range.start.line, range.start.column⟩

/-- A filter call with an unknown name, or with the wrong count of arguments for a filter of
    the library. -/
def callSightings (scope : Scope) (call : FilterUse) : List Sighting :=
  match scope.filters.origin? call.name with
  | none => [⟨.unknownFilter call.name (closestNames call.name scope.filters.names), call.span⟩]
  | some origin =>
    match arityOf? call.name with
    | none => []
    | some arity =>
      if origin.isOwn && !arity.admits call.args.length then
        [⟨.badArguments call.name arity call.args.length, call.span⟩]
      else []

/-- The shape of what a placeholder shows: of its value in the sample data if it has one, and
    otherwise what the last name of its path suggests. -/
def shapeOf? (sample : Option Value) (p : Placeholder) : Option Shape :=
  match sample.bind (·.lookup p.path) with
  | some v => Value.shape? v
  | none => p.path.getLast?.bind shapeByName?

/-- The first filter of a placeholder does not fit what the placeholder shows. Later filters
    are not looked at, since they work on what the first one makes. -/
def shapeSightings (scope : Scope) (sample : Option Value) (p : Placeholder) : List Sighting :=
  match p.filters with
  | [] => []
  | call :: _ =>
    match scope.filters.origin? call.name, wantedShape? call.name, shapeOf? sample p with
    | some origin, some wanted, some actual =>
      if origin.isOwn && wanted != actual then
        [⟨.suspiciousFilter call.name p.key wanted actual, call.span⟩]
      else []
    | _, _, _ => []

/-- A placeholder has no value in the sample data, and the options make that an error. -/
def absenceSightings (scope : Scope) (sample : Option Value) (p : Placeholder) : List Sighting :=
  match sample with
  | none => []
  | some v =>
    if scope.options.refusesAbsence && (v.lookup p.path).isNone then
      [⟨.missingKey p.key, p.span⟩]
    else []

/-- The findings about a placeholder. -/
def placeholderSightings (scope : Scope) (sample : Option Value) (p : Placeholder) :
    List Sighting :=
  p.filters.flatMap (callSightings scope) ++ shapeSightings scope sample p ++
    absenceSightings scope sample p

/-- The finding about an inclusion, if there is one. -/
def inclusionSightings (scope : Scope) (i : Inclusion) : List Sighting :=
  if scope.templates.contains i.name then
    match cycleFrom? scope i.name with
    | some chain => [⟨.circularInclusion i.name chain, i.span⟩]
    | none => []
  else [⟨.unknownTemplate i.name (closestNames i.name scope.templates.names), i.span⟩]

/-- All findings about a source, first about its placeholders and then about its inclusions. -/
def sightings (scope : Scope) (sample : Option Value) (source : String) : List Sighting :=
  match readTemplate source with
  | .error e => [⟨.malformed e.fault, ⟨e.offset, e.offset⟩⟩]
  | .ok ns =>
    (placeholders ns).flatMap (placeholderSightings scope sample) ++
      (inclusions ns).flatMap (inclusionSightings scope)

/-- The diagnostics of a source, in the order of the source. -/
def analyze (scope : Scope) (sample : Option Value) (source : String) : List Diagnostic :=
  let index := LineTable.ofSource source
  let sorted := (sightings scope sample source).mergeSort fun a b => a.span.start ≤ b.span.start
  sorted.map (·.diagnostic index)

/-- The diagnostics of one severity. -/
def ofSeverity (severity : Severity) (ds : List Diagnostic) : List Diagnostic :=
  ds.filter (·.finding.severity == severity)

/-- All diagnostics with excerpts of the source. -/
def reportText (ds : List Diagnostic) (source : String) : String :=
  "\n\n".intercalate <| ds.map fun d =>
    let kind := d.finding.severity.name ++ "[" ++ d.finding.code ++ "]"
    excerpt kind d.range.start d.finding.message d.finding.hint source

end Letterpress
