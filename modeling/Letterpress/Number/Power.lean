/-!
# Powers of Two and Ten

Floats are scaled by powers of two and decimals by powers of ten, so the two meet wherever
numbers are read or written. Both are natural numbers here, and the exponents too; a negative
exponent always shows as a division.

## Main definitions

* `twoTo`, `tenTo`: The powers.

## Theorems

* `twoTo_succ`, `tenTo_succ`: The next power.
* `twoTo_pos`, `tenTo_pos`: A power is never zero, so that it can be divided by.
-/

namespace Letterpress

namespace Number

/-- A power of two. -/
def twoTo (n : Nat) : Nat := Nat.pow 2 n

/-- A power of ten. -/
def tenTo (n : Nat) : Nat := Nat.pow 10 n

@[simp]
theorem twoTo_zero : twoTo 0 = 1 := rfl

theorem twoTo_succ (n : Nat) : twoTo (n + 1) = twoTo n * 2 := rfl

theorem twoTo_pos (n : Nat) : 0 < twoTo n := Nat.pow_pos (by decide)

@[simp]
theorem tenTo_zero : tenTo 0 = 1 := rfl

theorem tenTo_succ (n : Nat) : tenTo (n + 1) = tenTo n * 10 := rfl

theorem tenTo_pos (n : Nat) : 0 < tenTo n := Nat.pow_pos (by decide)

end Number

end Letterpress
