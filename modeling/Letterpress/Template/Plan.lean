import Letterpress.Options
import Letterpress.Template.Node
import Letterpress.Text.Quoted

/-!
# Plans

A template that is ready to be filled in. Inclusions have been replaced by what they include,
every filter name by its filter, and neighbouring texts by one text, so a plan depends on
nothing that may change later. A template without placeholders is a plain text.

## Main definitions

* `Step`: A filter to apply, with its arguments.
* `Hole`: A path to look up, and the steps for its value.
* `Part`: Text or a hole.
* `mergeParts`: Joins neighbouring texts.
* `Plan`: A template that is ready to be filled in.
* `Body.ofParts`: The body of a list of parts.
-/

namespace Letterpress

/-- A filter to apply, under the name that the template has for it. -/
structure Step where
  name : String
  args : List String
  filter : Filter

/-- A place to be filled: a path to look up, and the filters for the value found there. -/
structure Hole where
  path : List String
  steps : List Step

namespace Hole

/-- The path as it is written. -/
def key (h : Hole) : String := dotted h.path

/-- The first filter that may have to wait. -/
def waitingStep? (h : Hole) : Option Step := h.steps.find? (·.filter.isWaiting)

end Hole

/-- A part of a plan. -/
inductive Part where
  | literal (s : String)
  | hole (h : Hole)

namespace Part

/-- The hole that a part is. -/
def hole? : Part → Option Hole
  | .literal _ => none
  | .hole h => some h

end Part

/-- Leaves out empty texts, and joins neighbouring ones. -/
def mergeParts : List Part → List Part
  | [] => []
  | .hole h :: rest => .hole h :: mergeParts rest
  | .literal s :: rest =>
    if s.isEmpty then mergeParts rest
    else
      match mergeParts rest with
      | .literal t :: rest' => .literal (s ++ t) :: rest'
      | rest' => .literal s :: rest'

/-- What a plan consists of: a text and nothing else, or parts with holes among them. -/
inductive Body where
  | plain (s : String)
  | mixed (ps : List Part)

/-- A template that is ready to be filled in. -/
structure Plan where
  body : Body
  whenAbsent : AbsencePolicy

/-- The body of merged parts. -/
def Body.ofParts : List Part → Body
  | [] => .plain ""
  | [.literal s] => .plain s
  | ps => .mixed ps

namespace Plan

/-- The parts of the body. -/
def parts (p : Plan) : List Part :=
  match p.body with
  | .plain _ => []
  | .mixed ps => ps

/-- The holes in document order. -/
def holes (p : Plan) : List Hole := p.parts.filterMap Part.hole?

/-- There is nothing to fill in. -/
def isPlain (p : Plan) : Bool :=
  match p.body with
  | .plain _ => true
  | .mixed _ => false

/-- The first filter that may have to wait, and the placeholder that it stands in. -/
def waitingFilter? (p : Plan) : Option (String × String) :=
  p.holes.findSome? fun h => h.waitingStep?.map fun s => (s.name, h.key)

/-- The plan can only be filled in with waiting. -/
def needsWaiting (p : Plan) : Bool := p.waitingFilter?.isSome

/-- The keys of the placeholders in document order. -/
def keys (p : Plan) : List String := p.holes.map Hole.key

/-- A plan in one line. -/
def summary (p : Plan) : String :=
  "CompiledTemplate \x7b constant: " ++ toString p.isPlain ++ ", placeholders: " ++
    Text.quotedList p.keys ++ ", on_missing: " ++ p.whenAbsent.summary ++ " \x7d"

end Plan

end Letterpress
