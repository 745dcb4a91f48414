import Letterpress.Text.Case
import Letterpress.Value

/-!
# Shapes

A guess at whether a value is a number or a text, to find filters that do not fit. With sample
data at hand the value decides. Without it the name does: a name with *price* in it is a
number, and one with *title* in it a text. Words for numbers come first, so a name with both
is taken for a number.

## Main definitions

* `Shape`: A number or a text.
* `wantedShape?`: The shape that a filter is meant for.
* `Value.shape?`, `shapeByName?`: The shape of a value, and the shape that a name suggests.
-/

namespace Letterpress

/-- A number or a text. -/
inductive Shape where
  | number
  | text
  deriving DecidableEq, Repr

/-- The name of a shape. -/
def Shape.name : Shape → String
  | .number => "number"
  | .text => "string"

/-- Words in the names of numbers. -/
def numberWords : List String :=
  ["count", "total", "price", "amount", "qty", "quantity", "sum", "num", "age", "size",
   "percent", "rate", "score", "balance", "cost"]

/-- Words in the names of texts. -/
def textWords : List String :=
  ["name", "title", "label", "id", "email", "description", "text", "message", "slug", "url",
   "city"]

/-- The shape that a filter of the library is meant for. -/
def wantedShape? (filter : String) : Option Shape :=
  if filter ∈ ["number", "currency", "percent", "plural"] then some .number
  else if filter ∈ ["upper", "lower", "trim", "slice", "pad", "truncate", "replace",
      "capitalize", "slugify"] then some .text
  else none

/-- The shape of a value. -/
def Value.shape? : Value → Option Shape
  | .number _ => some .number
  | .text _ => some .text
  | _ => none

/-- The characters occur in a row somewhere in the text. -/
def occursIn (word : List Char) : List Char → Bool
  | [] => word.isEmpty
  | c :: rest => word.isPrefixOf (c :: rest) || occursIn word rest

/-- The shape that a name suggests. -/
def shapeByName? (name : String) : Option Shape :=
  let cs := (Text.toLower name).toList
  if numberWords.any (fun w => occursIn w.toList cs) then some .number
  else if textWords.any (fun w => occursIn w.toList cs) then some .text
  else none

end Letterpress
