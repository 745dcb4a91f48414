import Letterpress.Number.Exact

/-!
# Shortest Decimals

The decimal with the fewest digits that reads back as a given float. The reals that round to
a float form an interval around it, whose ends belong to it exactly when the mantissa is even
(a tie rounds to the even neighbour). The search goes through the decimal grids from coarse to
fine. On each it looks at the two points next to the value, since if any point of a grid lies
in the interval, one of these does. The first grid with a hit has the fewest digits, and of
two hits the closer is taken. Only an exact tie between the two is a matter of convention.

## Main definitions

* `Decimal`: Digits times a power of ten.
* `Tie`: What to do halfway.
* `readsBack`: Whether a decimal lies in the interval of a float.
* `shortest`: The shortest decimal of a positive float.
-/

namespace Letterpress

namespace Number

/-- The value `digits * 10 ^ exponent`. -/
structure Decimal where
  digits : Nat
  exponent : Int
  deriving DecidableEq, Repr

/-- Which of two equally close neighbours is taken. -/
inductive Tie where
  | toEven
  | up
  deriving DecidableEq, Repr

/-- Compares `a * 10 ^ i` with `b * 2 ^ j`, exactly and without fractions. -/
def compareScaled (a : Nat) (i : Int) (b : Nat) (j : Int) : Ordering :=
  compare (a * tenTo i.toNat * twoTo (-j).toNat) (b * twoTo j.toNat * tenTo (-i).toNat)

/-- The float below `m * 2 ^ q` is only half as far away as the one above. This happens when
    the mantissa is the smallest of its binade, except in the lowest binade of all. -/
def isNarrowBelow (m : Nat) (q : Int) : Bool :=
  m == twoTo 52 && q > -1074

/-- The decimal is among the reals that round to `m * 2 ^ q`. The ends of the interval are
    counted in quarters of a mantissa unit. -/
def readsBack (m : Nat) (q : Int) (d : Decimal) : Bool :=
  let low := if isNarrowBelow m q then 4 * m - 1 else 4 * m - 2
  let high := 4 * m + 2
  let fromBelow := compareScaled d.digits d.exponent low (q - 2)
  let fromAbove := compareScaled d.digits d.exponent high (q - 2)
  let closed := m % 2 == 0
  (fromBelow == .gt || (closed && fromBelow == .eq)) &&
    (fromAbove == .lt || (closed && fromAbove == .eq))

/-- How many decimal digits a natural number has; zero has one. -/
def digitCount (n : Nat) : Nat :=
  (Nat.toDigits 10 n).length

/-- The least `k` with `m * 2 ^ q < 10 ^ k`, for a positive `m`. Below one, a power of ten lies
    under the reciprocal exactly when it lies under its integer part from below. -/
def magnitude (m : Nat) (q : Int) : Int :=
  let num := m * twoTo q.toNat
  let den := twoTo (-q).toNat
  if den ≤ num then digitCount (num / den) else 1 - digitCount ((den - 1) / num)

/-- The decimal without the zeros at its end. -/
def stripZeros (d : Decimal) : Decimal :=
  let trailing := ((Nat.toDigits 10 d.digits).reverse.takeWhile (· == '0')).length
  if d.digits = 0 then d else ⟨d.digits / tenTo trailing, d.exponent + trailing⟩

/-- The point of the grid `10 ^ e` that reads back as `m * 2 ^ q`. -/
def pointOnGrid? (tie : Tie) (m : Nat) (q e : Int) : Option Decimal :=
  let num := m * twoTo q.toNat * tenTo (-e).toNat
  let den := twoTo (-q).toNat * tenTo e.toNat
  let below := num / den
  let lower : Decimal := ⟨below, e⟩
  let upper : Decimal := ⟨below + 1, e⟩
  match readsBack m q lower, readsBack m q upper with
  | false, false => none
  | true, false => some lower
  | false, true => some upper
  | true, true =>
    match compare (2 * num) ((2 * below + 1) * den) with
    | .lt => some lower
    | .gt => some upper
    | .eq =>
      match tie with
      | .up => some upper
      | .toEven => some (if below % 2 = 0 then lower else upper)

/-- The exact decimal value of `m * 2 ^ q`: a division by two is a multiplication by five and
    a shift of the point. -/
def exactDecimal (m : Nat) (q : Int) : Decimal :=
  ⟨m * twoTo q.toNat * Nat.pow 5 (-q).toNat, min q 0⟩

/-- The shortest decimal that reads back as the positive float `m * 2 ^ q`. Seventeen digits
    are enough for every float; the exact value stands in should they not be. -/
def shortest (tie : Tie) (m : Nat) (q : Int) : Decimal :=
  let k := magnitude m q
  let found := (List.range 17).findSome? fun n => pointOnGrid? tie m q (k - (n + 1 : Nat))
  stripZeros (found.getD (exactDecimal m q))

end Number

end Letterpress
