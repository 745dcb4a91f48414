import Letterpress.Number.Reading
import Mathlib

/-!
# Undefined Numbers

Which operations lead to an undefined number. A number that is read from a text can be undefined
for two reasons, and they must not be confused: the text stands for no number, or the arithmetic
that makes a float of its digits has come to nothing. The second never happens. Digits are scaled
by a power of ten, and neither a product with a number that is finite and not zero nor a quotient
by one is undefined, however much is lost in rounding and whether or not it overflows.

Floats are words of 64 bits. The operations take the words apart, compute, round, and pack the
result into a word, so what has to be seen once is that packing does not make an undefined number
of anything else: a result that is too large becomes an infinity, and a finite one leaves the
exponent below the mark of the special values.

## Theorems

* `isNaN_unpack_iff`, `isNaN_unpack_pack`: Undefined words, and how they come about.
* `isNaN_neg`: A sign does not matter.
* `isNaN_mul`, `isNaN_div`: Nor does a factor or a divisor that is finite and not zero.
* `isNaN_ofScientific`: A decimal always has a float.
* `eq_of_isNaN`: There is only one undefined number.
* `exact_eq_nan_iff`: Undefined numbers are those without an exact value.
-/

namespace Letterpress

namespace Number

open Float.Model (Format UnpackedFloat)
open Float.Model.UnpackedFloat

/-- A word is undefined if its exponent is all ones and its mantissa is not zero. -/
theorem isNaN_unpack_iff {b : BitVec Format.binary64.numBits} :
    (unpack .binary64 b).isNaN = true ↔ unpackExponent b = -1#_ ∧ unpackMantissa b ≠ 0#_ := by
  unfold unpack
  dsimp only
  split
  · next hexponent =>
      split
      · next hmantissa => simp [UnpackedFloat.isNaN, hmantissa]
      · next hmantissa => simp [UnpackedFloat.isNaN, hexponent, hmantissa]
  · next hexponent =>
      have hnot : ¬ (unpackExponent b = -1#_ ∧ unpackMantissa b ≠ 0#_) := fun h => hexponent h.1
      split
      · split <;> exact iff_of_false Bool.false_ne_true hnot
      · exact iff_of_false Bool.false_ne_true hnot

/-- Packing makes nothing undefined. -/
theorem isNaN_unpack_pack (f : UnpackedFloat) :
    (unpack .binary64 (pack .binary64 f)).isNaN = f.isNaN := by
  cases f with
  | notANumber => rfl
  | infinity s => cases s <;> rfl
  | zero s => cases s <;> rfl
  | finite s m e hm =>
      rw [show (UnpackedFloat.finite s m e hm).isNaN = false from rfl, Bool.eq_false_iff]
      intro hnan
      rw [isNaN_unpack_iff, pack] at hnan
      dsimp only at hnan
      split at hnan
      · cases s <;> exact hnan.2 (by decide)
      · next hfits =>
          split at hnan
          · -- An exponent that fits is less than all ones, and none of it is cut off.
            rw [unpackExponent_packComponents] at hnan
            have hones := congrArg BitVec.toNat hnan.1
            rw [BitVec.toNat_ofNat, Nat.mod_eq_of_lt (by omega)] at hones
            have hmark : (-1 : BitVec 11).toNat = 2047 := by decide
            refine hfits (Nat.le_of_eq ?_)
            rw [show 2 ^ Format.binary64.exponentBits = 2047 + 1 by decide]
            exact congrArg (· + 1) (hones.trans hmark).symm
          · rw [unpackExponent_packComponents] at hnan
            exact absurd hnan.1 (by decide)

theorem isNaN_roundWithAccuracy (spec : Format) (s : Sign) (m : Nat) (e : Int) (acc : Accuracy) :
    (roundWithAccuracy spec s m e acc).isNaN = false := by
  unfold roundWithAccuracy
  dsimp only
  split <;> rfl

theorem isNaN_ofNat (spec : Format) (n : Nat) : (UnpackedFloat.ofNat spec n).isNaN = false := by
  unfold UnpackedFloat.ofNat UnpackedFloat.ofInt UnpackedFloat.normalize UnpackedFloat.round
  dsimp only
  split
  · exact isNaN_roundWithAccuracy ..
  · rfl
  · exact isNaN_roundWithAccuracy ..

/-- A factor that is finite and not zero makes nothing undefined. -/
theorem isNaN_mul (spec : Format) (f : UnpackedFloat) {s : Sign} {m : Nat} {e : Int} {hm : 0 < m} :
    (UnpackedFloat.mul spec f (.finite s m e hm)).isNaN = f.isNaN := by
  cases f with
  | notANumber => rfl
  | infinity => rfl
  | zero => rfl
  | finite => exact isNaN_roundWithAccuracy ..

/-- A divisor that is finite and not zero makes nothing undefined. -/
theorem isNaN_div (spec : Format) (f : UnpackedFloat) {s : Sign} {m : Nat} {e : Int} {hm : 0 < m} :
    (UnpackedFloat.div spec f (.finite s m e hm)).isNaN = f.isNaN := by
  cases f with
  | notANumber => rfl
  | infinity => rfl
  | zero => rfl
  | finite => exact isNaN_roundWithAccuracy ..

theorem isNaN_neg_unpacked (f : UnpackedFloat) : f.neg.isNaN = f.isNaN := by
  cases f <;> rfl

/-- A float made from the result of a computation is undefined only if the result was. -/
theorem isNaN_ofModel_pack (f : UnpackedFloat) :
    (Float.ofModel (Float.Model.pack f)).isNaN = f.isNaN :=
  isNaN_unpack_pack f

theorem isNaN_neg (x : Float) : (-x).isNaN = x.isNaN :=
  (isNaN_ofModel_pack _).trans (isNaN_neg_unpacked _)

/-- The powers of ten in the table are finite and not zero. -/
theorem exists_unpack_power {e : Nat} (he : e < Float.exactlyRepresentablePowersOfTen.size) :
    ∃ s m q hm, Float.exactlyRepresentablePowersOfTen[e].toModel.unpack = .finite s m q hm := by
  have hall : ∀ x ∈ Float.exactlyRepresentablePowersOfTen.toList,
      (x.toModel.unpack matches .finite ..) = true := by
    decide
  have hpower := hall _ (Array.getElem_mem_toList he)
  cases hunpack : Float.exactlyRepresentablePowersOfTen[e].toModel.unpack with
  | finite s m q hm => exact ⟨s, m, q, hm, rfl⟩
  | notANumber => rw [hunpack] at hpower; cases hpower
  | infinity => rw [hunpack] at hpower; cases hpower
  | zero => rw [hunpack] at hpower; cases hpower

theorem isNaN_ofScientific_unpacked (spec : Format) (m : Nat) (e : Int) :
    (UnpackedFloat.ofScientific spec m e).isNaN = false := by
  unfold UnpackedFloat.ofScientific
  split
  · rfl
  split
  · rfl
  split
  · rfl
  split
  · exact isNaN_mul ..
  · exact isNaN_div ..

/-- The float nearest to a decimal is never undefined. -/
theorem isNaN_ofScientific (m : Nat) (negative : Bool) (e : Nat) :
    (Float.ofScientific m negative e).isNaN = false := by
  unfold Float.ofScientific
  split
  · next h =>
      rcases exists_unpack_power (e := e) (by simp [Float.exactlyRepresentablePowersOfTen]; omega)
        with ⟨s, p, q, hp, hpower⟩
      have hdigits : m.toUInt64.toFloat.toModel.unpack.isNaN = false :=
        (isNaN_unpack_pack _).trans (isNaN_ofNat _ _)
      dsimp only
      split
      · refine (isNaN_ofModel_pack _).trans ?_
        rw [hpower, isNaN_div, hdigits]
      · refine (isNaN_ofModel_pack _).trans ?_
        rw [hpower, isNaN_mul, hdigits]
  · exact (isNaN_ofModel_pack _).trans (isNaN_ofScientific_unpacked _ _ _)

theorem isNaN_toFloat (l : Literal) : l.toFloat.isNaN = false := by
  unfold Literal.toFloat
  dsimp only
  split
  · decide
  split
  · decide
  · exact isNaN_ofScientific ..

/-- There is only one undefined number. -/
theorem eq_of_isNaN {x y : Float} (hx : x.isNaN = true) (hy : y.isNaN = true) : x = y := by
  have hword : ∀ {z : Float}, z.isNaN = true → z.toModel.toBits.toBitVec = packedNaN .binary64 := by
    intro z hz
    rcases isNaN_unpack_iff.mp hz with ⟨hexponent, hmantissa⟩
    exact z.toModel.valid.eq_packedNaN hexponent hmantissa
  rcases x with ⟨⟨bits, valid⟩⟩
  rcases y with ⟨⟨bits', valid'⟩⟩
  obtain rfl : bits = bits' := UInt64.toBitVec_inj.mp ((hword hx).trans (hword hy).symm)
  rfl

/-- Undefined numbers are those that have no exact value. -/
theorem exact_eq_nan_iff {x : Float} : exact x = .nan ↔ x.isNaN = true := by
  have hexponent : (@unpackExponent .binary64 x.toBits.toBitVec).toNat =
      x.toBits.toNat / twoTo 52 % twoTo 11 := by
    rw [unpackExponent, BitVec.toNat_cast, BitVec.extractLsb_toNat, Nat.shiftRight_eq_div_pow]
    rfl
  have hmantissa : (@unpackMantissa .binary64 x.toBits.toBitVec).toNat =
      x.toBits.toNat % twoTo 52 := by
    rw [unpackMantissa, BitVec.toNat_cast, BitVec.extractLsb_toNat, Nat.shiftRight_zero]
    rfl
  have hones : (-1#_ : BitVec Format.binary64.exponentBits).toNat = 2047 := by decide
  have hnan : x.isNaN = true ↔
      x.toBits.toNat / twoTo 52 % twoTo 11 = 2047 ∧ x.toBits.toNat % twoTo 52 ≠ 0 := by
    rw [← hexponent, ← hmantissa, ← hones, BitVec.toNat_inj, ← BitVec.toNat_zero, Ne,
      BitVec.toNat_inj]
    exact isNaN_unpack_iff
  rw [hnan]
  unfold exact Exact.ofBits
  dsimp only
  split
  · next hspecial => split <;> simp_all
  · next hspecial => split <;> simp_all

end Number

end Letterpress
