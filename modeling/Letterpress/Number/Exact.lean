import Letterpress.Number.Power

/-!
# Exact Values of Floats

A finite binary float is a natural number times a power of two, with a sign. Everything that
prints, compares or converts a number here works on that exact value, in natural-number
arithmetic, where nothing is ever rounded unasked. Both directions go through the bits of the
float, which say all there is to say about it.

## Main definitions

* `Exact`: A float as sign, mantissa and exponent, or one of the special values.
* `exact`: The exact value of a float.
* `Exact.integer?`: The integer that a float is equal to, if it is one.
* `Exact.truncated`: The integer part of a finite float.
* `integerBits`: The bits of an integer that fits into a mantissa.
* `ofInt`: The float nearest to an integer.
-/

namespace Letterpress

namespace Number

/-- What a float stands for. A finite value is `mantissa * 2 ^ exponent` below its sign; the
    two zeros differ in the sign only. -/
inductive Exact where
  | nan
  | infinite (negative : Bool)
  | finite (negative : Bool) (mantissa : Nat) (exponent : Int)
  deriving DecidableEq, Repr

/-- The width of the stored part of a mantissa. -/
def fractionBits : Nat := 52

/-- The exact value behind 64 bits: a sign bit, eleven bits of exponent, and the mantissa
    without its leading one. Exponent bits that are all zero mean that there is no leading
    one, and exponent bits that are all one mean a special value. -/
def Exact.ofBits (bits : Nat) : Exact :=
  let negative := bits / twoTo 63 % 2 == 1
  let biased : Nat := bits / twoTo 52 % twoTo 11
  let fraction : Nat := bits % twoTo 52
  if biased = 2047 then
    if fraction = 0 then .infinite negative else .nan
  else if biased = 0 then .finite negative fraction (-1074)
  else .finite negative (twoTo 52 + fraction) (biased - 1075)

/-- The exact value of a float. -/
def exact (x : Float) : Exact :=
  .ofBits x.toBits.toNat

namespace Exact

/-- Neither an infinity nor undefined. -/
def isFinite : Exact → Bool
  | .finite .. => true
  | _ => false

/-- The value is one of the two zeros. -/
def isZero : Exact → Bool
  | .finite _ m _ => m == 0
  | _ => false

/-- The value lies below zero. Neither the negative zero nor an undefined value does. -/
def isBelowZero : Exact → Bool
  | .nan => false
  | .infinite negative => negative
  | .finite negative m _ => negative && m != 0

/-- The value without its sign. -/
def size : Exact → Exact
  | .nan => .nan
  | .infinite _ => .infinite false
  | .finite _ m q => .finite false m q

/-- The integer part of `m * 2 ^ q`. -/
def wholePart (m : Nat) (q : Int) : Nat :=
  if 0 ≤ q then m * twoTo q.toNat else m / twoTo (-q).toNat

/-- The product `m * 2 ^ q` is a whole number. -/
def isWhole (m : Nat) (q : Int) : Bool :=
  0 ≤ q || m % twoTo (-q).toNat == 0

/-- The integer that the value is equal to. -/
def integer? : Exact → Option Int
  | .finite negative m q =>
    if isWhole m q then
      some (if negative then -(wholePart m q : Int) else wholePart m q)
    else none
  | _ => none

/-- The finite value without its fraction. -/
def truncated : Exact → Option Int
  | .finite negative m q => some (if negative then -(wholePart m q : Int) else wholePart m q)
  | _ => none

end Exact

/-- The bits of an integer below two to the fifty-third in size. The mantissa is shifted up
    until its leading one stands where the format expects it; what remains without that one is
    the stored part. Zero has neither sign nor leading one. -/
def integerBits (negative : Bool) (n : Nat) : Nat :=
  if n = 0 then 0
  else
    let shift := fractionBits - n.log2
    (if negative then twoTo 63 else 0) + (1075 - shift) * twoTo 52 + (n * twoTo shift - twoTo 52)

/-- The float nearest to an integer. Integers that fit into a mantissa are met exactly. -/
def ofInt (i : Int) : Float :=
  let n := i.natAbs
  if n < twoTo 53 then Float.ofBits (UInt64.ofNat (integerBits (i < 0) n))
  else if i < 0 then -Float.ofNat n
  else Float.ofNat n

end Number

end Letterpress
