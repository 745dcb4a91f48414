import Letterpress.Number.Exact

/-!
# Reading Numbers

The decimal texts that stand for a number: an optional sign, and then digits with an optional
point and an optional exponent, or one of the words for the special values. A point needs a
digit on at least one side, an exponent needs a digit, and nothing else may stand in the text:
no blanks, no separators, no other base. The value is the float nearest to the decimal.

Whole numbers are read more strictly, as digits with an optional sign.

## Main definitions

* `Literal`: A decimal text taken apart.
* `literal?`: Takes a text apart.
* `float?`: The float of a text.
* `natural?`, `integer?`: The whole number of a text.
-/

namespace Letterpress

namespace Number

/-- A decimal text taken apart: all its digits as one natural number, the count of digits
    behind the point, and the exponent. -/
structure Literal where
  digits : Nat
  places : Nat
  exponent : Int
  deriving DecidableEq, Repr

/-- The value of a row of digits. -/
def digitsValue (ds : List Char) : Nat :=
  ds.foldl (fun n c => 10 * n + (c.toNat - '0'.toNat)) 0

/-- A sign in front of a text, if there is one, and the text behind it. -/
def splitSign : List Char → Bool × List Char
  | '-' :: rest => (true, rest)
  | '+' :: rest => (false, rest)
  | rest => (false, rest)

/-- An exponent: nothing at all, or its mark and a signed row of digits. -/
def exponent? : List Char → Option Int
  | [] => some 0
  | mark :: rest =>
    let (negative, ds) := splitSign rest
    if (mark == 'e' || mark == 'E') && !ds.isEmpty && ds.all Char.isDigit then
      some (if negative then -(digitsValue ds : Int) else digitsValue ds)
    else none

/-- Takes an unsigned decimal text apart. -/
def literal? (cs : List Char) : Option Literal :=
  let whole := cs.takeWhile Char.isDigit
  let rest := cs.dropWhile Char.isDigit
  let (places, rest) :=
    match rest with
    | '.' :: behind => (behind.takeWhile Char.isDigit, behind.dropWhile Char.isDigit)
    | _ => ([], rest)
  if whole.isEmpty && places.isEmpty then none
  else (exponent? rest).map fun e => ⟨digitsValue (whole ++ places), places.length, e⟩

/-- The float nearest to a decimal. A power of ten far outside the range of floats is decided
    by the size alone, before it is computed. -/
def Literal.toFloat (l : Literal) : Float :=
  let scale := l.exponent - l.places
  let top := (Nat.toDigits 10 l.digits).length + scale
  if l.digits = 0 || top < -400 then 0
  else if top > 400 then 1 / 0
  else Float.ofScientific l.digits (scale < 0) scale.natAbs

/-- The words for the special values, in any mixture of cases. -/
def special? (cs : List Char) : Option Float :=
  match String.ofList (cs.map Char.toLower) with
  | "nan" => some (0 / 0)
  | "inf" => some (1 / 0)
  | "infinity" => some (1 / 0)
  | _ => none

/-- The float that a text stands for. -/
def float? (s : String) : Option Float :=
  let (negative, cs) := splitSign s.toList
  let size := (special? cs).or ((literal? cs).map Literal.toFloat)
  size.map fun x => if negative then -x else x

/-- The natural number that a text stands for, with an optional plus sign, and at most the
    largest word of 64 bits. -/
def natural? (s : String) : Option Nat :=
  let ds := match s.toList with
    | '+' :: rest => rest
    | cs => cs
  if ds.isEmpty || !ds.all Char.isDigit then none
  else if digitsValue ds < twoTo 64 then some (digitsValue ds) else none

/-- The integer that a text stands for, with an optional sign, in the range of signed words of
    the given width. -/
def integer? (width : Nat) (s : String) : Option Int :=
  let (negative, ds) := splitSign s.toList
  let i : Int := if negative then -(digitsValue ds : Int) else digitsValue ds
  if ds.isEmpty || !ds.all Char.isDigit then none
  else if -(twoTo (width - 1) : Int) ≤ i && i < twoTo (width - 1) then some i else none

end Number

end Letterpress
