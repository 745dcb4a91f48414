import Letterpress.Filter.Argument
import Letterpress.Text.Replacement
import Letterpress.Text.Slug

/-!
# Text Filters

The filters that every template can use, whatever its locale. Most of them work on the text of
a value, so they take any value; cutting and joining also know lists. Positions and widths are
counted in characters.

A negative position counts from the end, and positions beyond either end are moved to that
end, so a cut never fails and two cuts at one place always give back the whole.

## Main definitions

* `cutBounds`, `cut`: The part of a list between two positions.
* `TextFilter.slice`, `TextFilter.truncate`, `TextFilter.pad`, …: The single filters.
* `TextFilter.all`: All of them with their names.
-/

namespace Letterpress

namespace TextFilter

/-- Applies a function to the text of a value, and takes no arguments. -/
def onText (f : String → String) : Filter :=
  .immediate fun v _ => .ok (.text (f v.display))

/-- Moves a position into a sequence of the given length. -/
def clampIndex (length : Nat) (i : Int) : Nat :=
  if i < 0 then ((length : Int) + i).toNat else min i.toNat length

/-- The bounds of a cut: where it starts, and where it stops. It never stops before it
    starts, and without a stop it goes on to the end. -/
def cutBounds (length : Nat) (start : Int) (stop : Option Int) : Nat × Nat :=
  let first := clampIndex length start
  let last := (stop.map (clampIndex length)).getD length
  (first, max first last)

/-- The part of a list between two positions. -/
def cut {α : Type} (start : Int) (stop : Option Int) (items : List α) : List α :=
  let (first, last) := cutBounds items.length start stop
  (items.take last).drop first

/-- Takes a part of a list, or of the text of any other value. -/
def slice (v : Value) (args : List String) : FilterResult := do
  let start ← integerArgument "slice start" args 0
  let stop ← integerArgument "slice end" args 1
  match v with
  | .list items => .ok (.list (cut (start.getD 0) stop items))
  | v => .ok (.text (String.ofList (cut (start.getD 0) stop v.display.toList)))

/-- Shortens a text that is too long, and marks where it was cut. -/
def truncate (v : Value) (args : List String) : FilterResult := do
  let length ← naturalArgument "truncate length" args 0
  let limit := length.getD 160
  let mark := (args[1]?).getD "…"
  let s := v.display
  if s.length ≤ limit then .ok (.text s)
  else .ok (.text (String.ofList (s.toList.take limit) ++ mark))

/-- The widest text that padding makes. -/
def padLimit : Nat := 10000

/-- The side that a text is filled up on. -/
inductive PadSide where
  | left
  | right
  deriving DecidableEq, Repr

/-- The side that an argument names. -/
def padSide (given : Option String) : Except FilterError PadSide :=
  let name := (given.map fun s => Text.asciiLower (Text.trim s)).getD ""
  if name = "" ∨ name = "left" ∨ name = "start" then .ok .left
  else if name = "right" ∨ name = "end" then .ok .right
  else .error (.sideUnknown name)

/-- The first characters of the endless repetition of a text. -/
def repeated (fill : List Char) (count : Nat) : List Char :=
  (List.replicate (count / fill.length + 1) fill).flatten.take count

/-- Fills a text up to a width. The side matters, and is looked at, only if something has to
    be filled up. -/
def pad (v : Value) (args : List String) : FilterResult := do
  let width? ← boundedArgument "pad width" padLimit args 0
  let width := width?.getD 0
  let given := (args[1]?).getD ""
  let fill := if given.isEmpty then " " else given
  let s := v.display
  if width ≤ s.length then .ok (.text s)
  else
    let padding := String.ofList (repeated fill.toList (width - s.length))
    match ← padSide args[2]? with
    | .left => .ok (.text (padding ++ s))
    | .right => .ok (.text (s ++ padding))

/-- Replaces all occurrences of the first argument by the second. -/
def replace (v : Value) (args : List String) : FilterResult :=
  match args with
  | [pattern, substitute] => .ok (.text (Text.replaceAll v.display pattern substitute))
  | _ => .error (.wrongCount "replace" 2 args.length)

/-- Puts the argument in the place of null and of the empty text. -/
def orDefault (v : Value) (args : List String) : FilterResult :=
  let fallback := args.headD ""
  match v with
  | .null => .ok (.text fallback)
  | .text s => .ok (.text (if s.isEmpty then fallback else s))
  | v => .ok v

/-- Joins the texts of a list with the argument between them, or a comma. Null items are left
    blank, and other values stay as they are. -/
def join (v : Value) (args : List String) : FilterResult :=
  match v with
  | .list items => .ok (.text ((args.headD ",").intercalate (items.map Value.shown)))
  | v => .ok v

/-- The filters on texts, with their names. -/
def all : List (String × Filter) :=
  [("upper", onText Text.toUpper),
   ("lower", onText Text.toLower),
   ("trim", onText Text.trim),
   ("capitalize", onText Text.capitalize),
   ("slugify", onText Text.slug),
   ("slice", .immediate slice),
   ("truncate", .immediate truncate),
   ("pad", .immediate pad),
   ("replace", .immediate replace),
   ("default", .immediate orDefault),
   ("join", .immediate join),
   ("json", .immediate fun v _ => .ok (.text v.toJson.render))]

end TextFilter

end Letterpress
