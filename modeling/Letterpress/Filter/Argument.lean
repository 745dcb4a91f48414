import Letterpress.Filter.Basic

/-!
# Filter Arguments

Arguments that stand for numbers. Blanks around an argument do not count, and an argument that
is blank altogether counts as absent, so that a later one can be given without it.

## Main definitions

* `argument?`: The text of an argument, if it is there.
* `naturalArgument`, `integerArgument`: The number of an argument, if it is there.
* `boundedArgument`: A natural number up to a limit.
-/

namespace Letterpress

/-- The text of an argument without the blanks around it, unless nothing is left. -/
def argument? (args : List String) (index : Nat) : Option String :=
  match args[index]? with
  | none => none
  | some s =>
    let trimmed := Text.trim s
    if trimmed.isEmpty then none else some trimmed

/-- A natural number given as an argument. -/
def naturalArgument (what : String) (args : List String) (index : Nat) :
    Except FilterError (Option Nat) :=
  match argument? args index with
  | none => .ok none
  | some s =>
    match Number.natural? s with
    | some n => .ok (some n)
    | none => .error (.notNatural what s)

/-- An integer given as an argument. -/
def integerArgument (what : String) (args : List String) (index : Nat) :
    Except FilterError (Option Int) :=
  match argument? args index with
  | none => .ok none
  | some s =>
    match Number.integer? 64 s with
    | some i => .ok (some i)
    | none => .error (.notInteger what s)

/-- A natural number up to a limit, given as an argument. -/
def boundedArgument (what : String) (limit : Nat) (args : List String) (index : Nat) :
    Except FilterError (Option Nat) := do
  let n? ← naturalArgument what args index
  match n? with
  | some n => if n ≤ limit then .ok (some n) else .error (.tooLarge what limit n)
  | none => .ok none

end Letterpress
