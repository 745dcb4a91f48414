import Letterpress.Filter.Locale
import Letterpress.Filter.Text

/-!
# Filter Tables

All filters that a template can call by name. They come from four places, and where two of
them know the same name the later place wins: the text filters, the filters of the locale, the
filters of plugins, and those of the caller.

## Main definitions

* `Origin`: Where a filter comes from.
* `FilterTable`: Filters with their origins, by name.
* `FilterTable.gather`: Brings the filters of all places together.
-/

namespace Letterpress

/-- Where a filter comes from. -/
inductive Origin where
  | builtin
  | locale
  | plugin
  | caller
  deriving DecidableEq, Repr

/-- The filter belongs to the library. -/
def Origin.isOwn : Origin → Bool
  | .builtin => true
  | .locale => true
  | .plugin => false
  | .caller => false

/-- A filter and where it comes from. -/
structure KnownFilter where
  filter : Filter
  origin : Origin

/-- The filters that can be called by name. -/
abbrev FilterTable := Dictionary KnownFilter

namespace FilterTable

/-- Adds filters of one origin. They take the place of any that had their names before. -/
def add (t : FilterTable) (origin : Origin) (filters : List (String × Filter)) : FilterTable :=
  filters.foldl (fun t (name, f) => t.insert name ⟨f, origin⟩) t

/-- Brings all filters together for a locale. -/
def gather (locale : String) (plugins caller : FilterSet) : FilterTable :=
  let t := add .empty .builtin TextFilter.all
  let t := add t .locale (LocaleFilter.all (.ofTag locale))
  let t := add t .plugin plugins.entries
  add t .caller caller.entries

/-- The filter with a name. -/
def filter? (t : FilterTable) (name : String) : Option Filter :=
  (t.get? name).map (·.filter)

/-- Where the filter with a name comes from. -/
def origin? (t : FilterTable) (name : String) : Option Origin :=
  (t.get? name).map (·.origin)

end FilterTable

end Letterpress
