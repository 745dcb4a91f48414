import Letterpress.Fault
import Letterpress.Template.Plan

/-!
# Rendering

Fills a plan in with data. The path of a hole is looked up; a value that is found goes through
the filters of the hole, and its text takes the place of the hole. For a missing value the
plan says what happens, and no filter sees it.

A plan can be filled in at once, or with waiting. At once, a filter that may have to wait is a
fault before anything else is looked at. With waiting, all holes are worked on together, and
then the first fault in document order counts, whichever came first in time.

## Main definitions

* `Plan.filling`: What stands in a hole before its filters.
* `runSteps`, `runStepsWaiting`: Applies the filters of a hole.
* `Plan.render`: Fills a plan in at once.
* `Plan.renderWaiting`: Fills a plan in with waiting.
-/

namespace Letterpress

/-- What stands in a hole: a value for its filters, or a text in place of everything. -/
inductive Filling where
  | found (v : Value)
  | substitute (s : String)

/-- The failure of a step of a hole. -/
def stepFault (h : Hole) (s : Step) (input : Value) (reason : FilterError) : Fault :=
  .filterFailed ⟨s.name, h.key, input, s.args, reason⟩

/-- Applies filters that answer at once, one after the other. -/
def runSteps (h : Hole) : List Step → Value → Except Fault Value
  | [], v => .ok v
  | s :: rest, v =>
    match s.filter with
    | .waiting _ => .error (.waitingFilter s.name h.key)
    | .immediate run =>
      match run v s.args with
      | .error reason => .error (stepFault h s v reason)
      | .ok w => runSteps h rest w

/-- Applies filters one after the other, and waits where need be. -/
def runStepsWaiting (h : Hole) : List Step → Value → Pending (Except Fault Value)
  | [], v => .done (.ok v)
  | s :: rest, v =>
    (s.filter.apply v s.args).bind fun
      | .error reason => .done (.error (stepFault h s v reason))
      | .ok w => runStepsWaiting h rest w

namespace Plan

/-- Looks the path of a hole up, and decides what happens if there is nothing. -/
def filling (p : Plan) (context : Value) (h : Hole) : Except Fault Filling :=
  match context.lookup h.path with
  | some v => .ok (.found v)
  | none =>
    match p.whenAbsent with
    | .keep => .ok (.substitute (braced h.key))
    | .error => .error (.missingKey h.key)
    | .callback f => .ok (.substitute (f h.key))

/-- The text of a hole. -/
def fill (p : Plan) (context : Value) (h : Hole) : Except Fault String :=
  match p.filling context h with
  | .error f => .error f
  | .ok (.substitute s) => .ok s
  | .ok (.found v) => (runSteps h h.steps v).map Value.display

/-- The text of a hole, with waiting. -/
def fillWaiting (p : Plan) (context : Value) (h : Hole) : Pending (Except Fault String) :=
  match p.filling context h with
  | .error f => .done (.error f)
  | .ok (.substitute s) => .done (.ok s)
  | .ok (.found v) => (runStepsWaiting h h.steps v).map fun r => r.map Value.display

/-- The text of parts, up to the first fault. -/
def renderParts (p : Plan) (context : Value) : List Part → Except Fault String
  | [] => .ok ""
  | .literal s :: rest => (renderParts p context rest).map (s ++ ·)
  | .hole h :: rest =>
    match p.fill context h with
    | .error f => .error f
    | .ok s => (renderParts p context rest).map (s ++ ·)

/-- Puts the texts of the holes, given in document order, into their places. -/
def assemble : List Part → List (Except Fault String) → Except Fault String
  | [], _ => .ok ""
  | .literal s :: rest, texts => (assemble rest texts).map (s ++ ·)
  | .hole _ :: rest, [] => assemble rest []
  | .hole _ :: rest, text :: texts =>
    match text with
    | .error f => .error f
    | .ok s => (assemble rest texts).map (s ++ ·)

/-- Fills a plan in at once. -/
def render (p : Plan) (context : Value) : Except Fault String :=
  match p.body with
  | .plain s => .ok s
  | .mixed ps =>
    match p.waitingFilter? with
    | some (filter, placeholder) => .error (.waitingFilter filter placeholder)
    | none => p.renderParts context ps

/-- Fills a plan in with waiting. All holes are worked on together. -/
def renderWaiting (p : Plan) (context : Value) : Pending (Except Fault String) :=
  match p.body with
  | .plain s => .done (.ok s)
  | .mixed ps => (Pending.all (p.holes.map (p.fillWaiting context))).map (assemble ps)

end Plan

end Letterpress
