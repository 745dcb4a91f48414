import Letterpress.Template.Expansion

/-!
# Circular Inclusions

Searches the templates that can be reached from one for a circle, without expanding anything.
Templates that were searched to the end without finding one are not searched again, however
often they are included. A template that is not registered or cannot be read ends the search
in its direction; expansion reports it.

## Main definitions

* `includedNames`: The names that a registered template includes.
* `searchCycle`: Searches a list of names, below the names on the way down.
* `cycleFrom?`: The first circle that a template leads to.

## Theorems

* `searchCycle_cons`: What is done with the first of the names.
-/

namespace Letterpress

/-- The names that a registered template includes, in document order. -/
def includedNames (scope : Scope) (active : List String) (name : String) : Option (List String) :=
  match scope.enter active name with
  | .error _ => none
  | .ok ns => some ((inclusions ns).map (·.name))

theorem unentered_lt_of_includedNames {scope : Scope} {active : List String} {name : String}
    {names : List String} (h : includedNames scope active name = some names) :
    (scope.unentered (active ++ [name])).length < (scope.unentered active).length := by
  unfold includedNames at h
  split at h
  · cases h
  · rename_i ns hns
    exact Scope.unentered_lt hns

/-- Searches names from left to right. The active names are those on the way down to them, and
    the finished names lead to no circle. The result is a circle, written down from the top, or
    the names that are finished now. -/
def searchCycle (scope : Scope) (active : List String) (finished : List String)
    (names : List String) : Except (List String) (List String) :=
  match names with
  | [] => .ok finished
  | name :: rest =>
    if name ∈ active then .error (active ++ [name])
    else if name ∈ finished then searchCycle scope active finished rest
    else
      match _h : includedNames scope active name with
      | none => searchCycle scope active finished rest
      | some inner =>
        match searchCycle scope (active ++ [name]) finished inner with
        | .error chain => .error chain
        | .ok finished' => searchCycle scope active (name :: finished') rest
termination_by ((scope.unentered active).length, names.length)
decreasing_by
  · exact Prod.Lex.right _ (Nat.lt_succ_self _)
  · exact Prod.Lex.right _ (Nat.lt_succ_self _)
  · exact Prod.Lex.left _ _ (unentered_lt_of_includedNames _h)
  · exact Prod.Lex.right _ (Nat.lt_succ_self _)

theorem searchCycle_cons (scope : Scope) (active finished : List String) (name : String)
    (rest : List String) :
    searchCycle scope active finished (name :: rest) =
      if name ∈ active then .error (active ++ [name])
      else if name ∈ finished then searchCycle scope active finished rest
      else
        match includedNames scope active name with
        | none => searchCycle scope active finished rest
        | some inner =>
          match searchCycle scope (active ++ [name]) finished inner with
          | .error chain => .error chain
          | .ok finished' => searchCycle scope active (name :: finished') rest := by
  rw [searchCycle]
  by_cases hactive : name ∈ active
  · rw [if_pos hactive, if_pos hactive]
  rw [if_neg hactive, if_neg hactive]
  by_cases hfinished : name ∈ finished
  · rw [if_pos hfinished, if_pos hfinished]
  rw [if_neg hfinished, if_neg hfinished]
  split
  · next hinner => simp only [hinner]
  · next inner hinner => simp only [hinner]

/-- The first circle that a template leads to: the names from that template down to the first
    one that was there before. -/
def cycleFrom? (scope : Scope) (name : String) : Option (List String) :=
  match searchCycle scope [] [] [name] with
  | .error chain => some chain
  | .ok _ => none

end Letterpress
