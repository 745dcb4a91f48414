import Letterpress.Fault
import Letterpress.Filter.Table
import Letterpress.Template.Plan
import Letterpress.Template.Reader

/-!
# Expansion

From the nodes of a template to its plan. Each inclusion gives way to the parts of the
template that it names, in the same place and for the same data. A template that includes
itself, directly or through others, would never end; the names of the templates being expanded
are kept on the way down, and a name that is already there is a fault.

Expansion ends because every inclusion on the way down takes up one more of the registered
names. Within one template it goes through the nodes in order, so the first fault in document
order is the one that is reported.

## Main definitions

* `Scope`: What a template can refer to.
* `Scope.enter`: The nodes of an included template.
* `expand`: The parts of nodes, with inclusions replaced.
* `compile`: The plan of nodes.

## Theorems

* `Scope.unentered_lt`: An inclusion takes up a registered name.
* `expand_inclusion`: What an inclusion expands to.
-/

namespace Letterpress

/-- What a template can refer to: filters, other templates, and options. -/
structure Scope where
  filters : FilterTable
  templates : Dictionary String
  options : Options

namespace Scope

/-- The registered names that are not among the active ones. -/
def unentered (scope : Scope) (active : List String) : List String :=
  scope.templates.names.filter (· ∉ active)

/-- The nodes of an included template, unless it is active already, or not registered, or no
    template. -/
def enter (scope : Scope) (active : List String) (name : String) : Except Fault (List Node) :=
  if name ∈ active then .error (.circularInclusion (active ++ [name]))
  else
    match scope.templates.get? name with
    | none => .error (.unknownTemplate name)
    | some source =>
      match readTemplate source with
      | .error e => .error (.malformed e)
      | .ok ns => .ok ns

theorem unentered_lt {scope : Scope} {active : List String} {name : String} {ns : List Node}
    (h : scope.enter active name = .ok ns) :
    (scope.unentered (active ++ [name])).length < (scope.unentered active).length := by
  unfold enter at h
  split at h
  · cases h
  · rename_i hactive
    split at h
    · cases h
    · rename_i source hsource
      have hmem := Dictionary.mem_names_of_get? hsource
      have hsplit : scope.unentered (active ++ [name]) =
          (scope.unentered active).filter (· ≠ name) := by
        simp only [unentered, List.filter_filter]
        congr 1
        funext k
        simp [and_comm]
      rw [hsplit]
      apply Nat.lt_of_le_of_ne (List.length_filter_le _ _)
      intro heq
      have hall := List.length_filter_eq_length_iff.mp heq name
        (List.mem_filter.mpr ⟨hmem, by simpa using hactive⟩)
      simp at hall

/-- The filters of a placeholder, found by their names. -/
def holeOf (scope : Scope) (p : Placeholder) : Except Fault Hole := do
  let steps ← p.filters.mapM fun call =>
    match scope.filters.filter? call.name with
    | some f => Except.ok (⟨call.name, call.args, f⟩ : Step)
    | none => .error (.unknownFilter call.name p.key)
  return ⟨p.path, steps⟩

end Scope

/-- The parts of nodes, with every inclusion replaced by the parts of what it includes. -/
def expand (scope : Scope) (active : List String) (ns : List Node) : Except Fault (List Part) :=
  match ns with
  | [] => .ok []
  | .text s _ :: rest =>
    match expand scope active rest with
    | .error f => .error f
    | .ok ps => .ok (.literal s :: ps)
  | .placeholder p :: rest =>
    match scope.holeOf p with
    | .error f => .error f
    | .ok h =>
      match expand scope active rest with
      | .error f => .error f
      | .ok ps => .ok (.hole h :: ps)
  | .inclusion i :: rest =>
    match _h : scope.enter active i.name with
    | .error f => .error f
    | .ok inner =>
      match expand scope (active ++ [i.name]) inner with
      | .error f => .error f
      | .ok ps =>
        match expand scope active rest with
        | .error f => .error f
        | .ok qs => .ok (ps ++ qs)
termination_by ((scope.unentered active).length, ns.length)
decreasing_by
  · exact Prod.Lex.right _ (Nat.lt_succ_self _)
  · exact Prod.Lex.right _ (Nat.lt_succ_self _)
  · exact Prod.Lex.left _ _ (Scope.unentered_lt _h)
  · exact Prod.Lex.right _ (Nat.lt_succ_self _)

theorem expand_inclusion (scope : Scope) (active : List String) (i : Inclusion)
    (rest : List Node) :
    expand scope active (.inclusion i :: rest) =
      match scope.enter active i.name with
      | .error f => .error f
      | .ok inner =>
        match expand scope (active ++ [i.name]) inner with
        | .error f => .error f
        | .ok ps =>
          match expand scope active rest with
          | .error f => .error f
          | .ok qs => .ok (ps ++ qs) := by
  rw [expand]
  split
  · next f henter => simp only [henter]
  · next inner henter => simp only [henter]

/-- The plan of nodes. -/
def compile (scope : Scope) (ns : List Node) : Except Fault Plan :=
  match expand scope [] ns with
  | .error f => .error f
  | .ok ps => .ok ⟨.ofParts (mergeParts ps), scope.options.effective⟩

/-- Reads a source and makes its plan. -/
def compileSource (scope : Scope) (source : String) : Except Fault Plan :=
  match readTemplate source with
  | .error e => .error (.malformed e)
  | .ok ns => compile scope ns

end Letterpress
