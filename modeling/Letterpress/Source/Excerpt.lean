import Letterpress.Source.Position
import Letterpress.Template.ReadError

/-!
# Excerpts

A message together with the lines of source that it is about: two lines before the line in
question, the line itself with a caret below the column, and one line after it. All line
numbers are set to one width, so that the lines of the excerpt stand below each other as they
do in the source.

## Main definitions

* `sourceLines`: The lines of a source.
* `excerptLines`: The numbered lines around a position.
* `excerpt`: A message with its excerpt.
* `ReadError.report`: A reading error with its excerpt.
-/

namespace Letterpress

/-- The lines of a source, without their line feeds. -/
def sourceLines (source : String) : List String :=
  (source.toList.splitOn '\n').map String.ofList

/-- The decimal digits of a number, with blanks in front up to a width. -/
def rightAligned (width : Nat) (s : String) : String :=
  String.ofList (List.replicate (width - s.length) ' ') ++ s

/-- One numbered line, and the caret below it if it is the line in question. -/
def excerptLine (width : Nat) (position : Position) (number : Nat) (line : String) : String :=
  let here := number == position.line
  let marker := if here then ">" else " "
  let numbered :=
    "  " ++ marker ++ " " ++ rightAligned width (toString number) ++ " | " ++ line ++ "\n"
  if here then
    let indent := String.ofList (List.replicate (position.column - 1) ' ')
    numbered ++ "    " ++ rightAligned width "" ++ " | " ++ indent ++ "^\n"
  else numbered

/-- The numbered lines around a position. -/
def excerptLines (source : String) (position : Position) : String :=
  let lines := sourceLines source
  let first := position.line - 3
  let last := min (position.line + 1) lines.length
  let width := (toString last).length
  let numbers := (List.range (last - first)).map (· + first)
  String.join (numbers.map fun i => excerptLine width position (i + 1) (lines.getD i ""))

/-- A message with the excerpt of source that it is about, and a hint if there is one. -/
def excerpt (kind : String) (position : Position) (message : String) (hint : Option String)
    (source : String) : String :=
  kind ++ s!"\n  --> {position.line}:{position.column}\n\n" ++ excerptLines source position ++
    "  error: " ++ message ++ (hint.elim "" fun h => "\n  hint: " ++ h)

/-- A reading error with the excerpt of source around it. -/
def ReadError.report (e : ReadError) (source : String) : String :=
  excerpt "parse error" ((LineTable.ofSource source).position e.offset) e.text none source

end Letterpress
