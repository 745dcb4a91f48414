import Letterpress.Text.Case
import Letterpress.Text.Distance

/-!
# Suggestions

Names that may have been meant instead of an unknown one: those that can be reached by at most
two edits when case does not count, the closest first, and among equally close ones in the
order of the names. The candidates may come in any order and more than once. How the best of them
are chosen does not depend on what is counted as a distance, so that is a parameter.

## Main definitions

* `Scored`: A name and its distance.
* `closestBy`: The best candidates for a name, by any distance.
* `closestNames`: The best candidates, by the number of edits.
* `suggestionQuestion`: The question that a message ends with.
-/

namespace Letterpress

/-- A candidate, with its distance from the name that is wanted. -/
structure Scored where
  distance : Nat
  name : String
  deriving DecidableEq, Repr

/-- The order of candidates: closer ones first, and then by name. -/
def Scored.le (a b : Scored) : Bool :=
  a.distance < b.distance || (a.distance == b.distance && a.name ≤ b.name)

/-- The most edits that lead to a suggestion. -/
def suggestionReach : Nat := 2

/-- The most suggestions for one name. -/
def suggestionLimit : Nat := 3

/-- The candidates that are close enough, with their distances. -/
def scored (distance : String → String → Nat) (target : String) (candidates : List String) :
    List Scored :=
  let wanted := Text.toLower target
  candidates.filterMap fun name =>
    let d := distance wanted (Text.toLower name)
    if d ≤ suggestionReach then some ⟨d, name⟩ else none

/-- Leaves out repetitions of the item before. -/
def dropRepeats : List Scored → List Scored
  | [] => []
  | a :: rest =>
    match dropRepeats rest with
    | [] => [a]
    | b :: rest' => if a = b then b :: rest' else a :: b :: rest'

/-- The best candidates for a name, by the distance that is given. -/
def closestBy (distance : String → String → Nat) (target : String) (candidates : List String) :
    List String :=
  let sorted := (scored distance target candidates).mergeSort Scored.le
  ((dropRepeats sorted).take suggestionLimit).map (·.name)

/-- The best candidates for a name, by the number of edits. -/
def closestNames (target : String) (candidates : List String) : List String :=
  closestBy Text.distance target candidates

/-- The question after the best candidates. -/
def suggestionQuestion : List String → String
  | [] => ""
  | [only] => ". Did you mean \"" ++ only ++ "\"?"
  | many =>
    ". Did you mean one of " ++ ", ".intercalate (many.map fun s => "\"" ++ s ++ "\"") ++ "?"

end Letterpress
