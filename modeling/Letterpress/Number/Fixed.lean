import Letterpress.Number.Shortest

/-!
# Fixed Decimals

A number with a given count of decimal places. The exact value is scaled by a power of ten
and rounded to a whole number, with a half going to the even neighbour; the digits are then
cut in two where the point belongs. Nothing is rounded twice, so the places may be as many as
one likes and all of them are right.

## Main definitions

* `roundedQuotient`: A quotient of natural numbers, rounded.
* `FixedDecimal`: The digits before and after the point.
* `fixed`: The digits of `m * 2 ^ q` with a given count of places.
-/

namespace Letterpress

namespace Number

/-- The whole number nearest to `num / den`. -/
def roundedQuotient (tie : Tie) (num den : Nat) : Nat :=
  let q := num / den
  match compare (2 * (num % den)) den with
  | .lt => q
  | .gt => q + 1
  | .eq =>
    match tie with
    | .up => q + 1
    | .toEven => if q % 2 = 0 then q else q + 1

/-- The digits of a number before and after its point. -/
structure FixedDecimal where
  whole : List Char
  places : List Char
  deriving DecidableEq, Repr

namespace FixedDecimal

/-- All digits are zero. -/
def isZero (d : FixedDecimal) : Bool :=
  d.whole.all (· == '0') && d.places.all (· == '0')

/-- Without the zeros at the end of the places. -/
def shorten (d : FixedDecimal) : FixedDecimal :=
  { d with places := (d.places.reverse.dropWhile (· == '0')).reverse }

end FixedDecimal

/-- The digits of `n`, with zeros in front up to the given width. -/
def paddedDigits (width n : Nat) : List Char :=
  let digits := Nat.toDigits 10 n
  List.replicate (width - digits.length) '0' ++ digits

/-- The digits of `m * 2 ^ q` with the given count of places, a half rounded to even. There is
    always a digit before the point. -/
def fixed (places : Nat) (m : Nat) (q : Int) : FixedDecimal :=
  let scaled := roundedQuotient .toEven (m * twoTo q.toNat * tenTo places) (twoTo (-q).toNat)
  let digits := paddedDigits (places + 1) scaled
  ⟨digits.take (digits.length - places), digits.drop (digits.length - places)⟩

end Number

end Letterpress
