import Letterpress.Json

/-!
# Arities

How many arguments the filters of the library are meant to have. This is stricter than what
the filters accept: a filter that has a use for a missing argument is still better written
with it.

## Main definitions

* `Arity`: A least count and perhaps a greatest one.
* `Arity.admits`: Whether a count fits.
* `Arity.inWords`, `Arity.asData`: How an arity is shown.
* `arityOf?`: The arity of a filter of the library.
-/

namespace Letterpress

/-- A least count of arguments, and a greatest one unless there is no limit. -/
structure Arity where
  least : Nat
  most : Option Nat
  deriving DecidableEq, Repr

namespace Arity

/-- Exactly so many arguments. -/
def exactly (n : Nat) : Arity := ⟨n, some n⟩

/-- Any count from one number to another. -/
def upTo (least most : Nat) : Arity := ⟨least, some most⟩

/-- So many arguments or more. -/
def orMore (n : Nat) : Arity := ⟨n, none⟩

/-- A count of arguments fits. -/
def admits (a : Arity) (count : Nat) : Bool :=
  a.least ≤ count && (a.most.elim true fun most => count ≤ most)

/-- A count of arguments in words. -/
def argumentCount (n : Nat) : String :=
  if n = 1 then "1 argument" else s!"{n} arguments"

/-- The arity in words. -/
def inWords (a : Arity) : String :=
  match a.most with
  | some most =>
    if most = a.least then argumentCount most else s!"{a.least} to {most} arguments"
  | none => "at least " ++ argumentCount a.least

/-- The arity as data: a number if it is exact, and a short text otherwise. -/
def asData (a : Arity) : Json :=
  match a.most with
  | some most => if most = a.least then .whole most else .text s!"{a.least}-{most}"
  | none => .text s!"at least {a.least}"

end Arity

/-- The arity of a filter of the library. -/
def arityOf? (filter : String) : Option Arity :=
  match filter with
  | "plural" => some (.exactly 2)
  | "replace" => some (.exactly 2)
  | "default" => some (.exactly 1)
  | "currency" => some (.orMore 1)
  | "date" => some (.orMore 1)
  | "slice" => some (.upTo 1 2)
  | "truncate" => some (.upTo 1 2)
  | "pad" => some (.upTo 1 3)
  | "join" => some (.upTo 0 1)
  | "number" => some (.upTo 0 1)
  | "percent" => some (.upTo 0 1)
  | "upper" => some (.exactly 0)
  | "lower" => some (.exactly 0)
  | "trim" => some (.exactly 0)
  | "capitalize" => some (.exactly 0)
  | "slugify" => some (.exactly 0)
  | "json" => some (.exactly 0)
  | _ => none

end Letterpress
