import Letterpress.Text.Case

/-!
# Slugs

A text reduced to lower-case words with hyphens between them, as it is used in addresses. A
word is a run of letters and numerals of any script; everything else only separates.

## Main definitions

* `words`: The runs of characters that satisfy a condition.
* `slug`: The slug of a text.
-/

namespace Letterpress

namespace Text

/-- The maximal runs of characters that satisfy a condition, in order. -/
def words (p : Char → Bool) (cs : List Char) : List (List Char) :=
  (cs.splitOnP (fun c => !p c)).filter (fun w => !w.isEmpty)

/-- The slug of a text. -/
def slug (s : String) : String :=
  "-".intercalate ((words isAlphanumeric (toLower s).toList).map String.ofList)

end Text

end Letterpress
