import Letterpress.Proofs.Undefined

/-!
# Integers among Floats

Which floats are integers, and that an integer of a moderate size is met exactly when it is made a
float again. Below two to the fifty-third there is room for all digits of an integer in the
mantissa, so there is one word for each of them: the mantissa is shifted up until its leading one
stands where the format expects it, and the exponent tells how far. A float with the value of the
integer cannot but have this word. Only zero has two words, and they are equal as numbers.

Floats are compared by what their words stand for, and a float is made of a word by taking the word
apart and putting it together again. Both would be in the way if they changed anything, so it comes
first that they do not.

## Theorems

* `pack_unpack`, `ofBits_toBits`: Words are left as they are.
* `mantissa_shift`: What an integer has to do with its mantissa.
* `integerBits_eq`, `eq_of_ofBits_zero`: The words of an integer.
* `ofInt_eq`: An integer other than zero is made into the float that it comes from.
* `beq_ofInt`: Any integer is made into a float that is equal to the one it comes from.
* `beq_self`: A number is equal to itself unless it is undefined.
-/

namespace Letterpress

namespace Number

open Float.Model (Format UnpackedFloat)
open Float.Model.UnpackedFloat

theorem toBitVec_ofBitVec (b : BitVec 1) : (Sign.ofBitVec b).toBitVec = b := by
  revert b
  decide

/-- A word is made of its sign, its exponent and its mantissa. -/
theorem packComponents_unpack (b : BitVec Format.binary64.numBits) :
    packComponents .binary64 (Sign.ofBitVec (unpackSign b)) (unpackExponent b) (unpackMantissa b) =
      b := by
  rw [packComponents, toBitVec_ofBitVec]
  refine BitVec.eq_of_getLsbD_eq fun i hi => ?_
  have hi : i < 64 := hi
  simp only [unpackSign, unpackExponent, unpackMantissa, BitVec.getLsbD_append, BitVec.getLsbD_cast,
    BitVec.getLsbD_extractLsb]
  grind

/-- The leading one that is not part of the word. -/
theorem toNat_implicit_append (m : BitVec 52) : (1#1 ++ m).toNat = 2 ^ 52 + m.toNat := by
  rw [BitVec.toNat_append, ← Nat.shiftLeft_add_eq_or_of_lt m.isLt]
  rfl

theorem log2_leading {m : Nat} (hlow : 2 ^ 52 ≤ m) (hhigh : m < 2 ^ 53) : m.log2 = 52 :=
  (Nat.log2_eq_iff (by omega)).mpr ⟨hlow, hhigh⟩

theorem log2_implicit_append (m : BitVec 52) : (1#1 ++ m).toNat.log2 = 52 := by
  have hm := m.isLt
  rw [toNat_implicit_append]
  exact log2_leading (by omega) (by omega)

/-- A number with a leading one. -/
theorem pack_normal {s : Sign} {e : BitVec 11} {m : BitVec 52} {q : Int} {hm : 0 < (1#1 ++ m).toNat}
    (he : e ≠ -1#11) (hq : q = e.toNat - 1075) :
    pack .binary64 (.finite s (1#1 ++ m).toNat q hm) = packComponents .binary64 s e m := by
  have hbiased : (q + Format.binary64.exponentBias + (52 : Nat)).toNat = e.toNat := by
    have hbias : Format.binary64.exponentBias = 1023 := rfl
    omega
  have hlast : ¬ 2 ^ Format.binary64.exponentBits ≤ e.toNat + 1 := by
    have hones : e.toNat ≠ 2047 := fun hnat => he (BitVec.eq_of_toNat_eq hnat)
    have hcapacity : 2 ^ Format.binary64.exponentBits = 2048 := rfl
    have hword := e.isLt
    omega
  have hmantissa : BitVec.ofNat 52 (1#1 ++ m).toNat = m := by
    rw [toNat_implicit_append, BitVec.ofNat_add, BitVec.ofNat_toNat, BitVec.setWidth_eq]
    exact BitVec.zero_add m
  have hleading : 52 + 1 = Format.binary64.mantissaBits := rfl
  rw [pack, log2_implicit_append]
  dsimp only
  rw [hbiased, if_neg hlast, if_pos hleading, hmantissa, BitVec.ofNat_toNat, BitVec.setWidth_eq]

/-- A number that is too small for a leading one. -/
theorem pack_subnormal {s : Sign} {m : BitVec 52} {hm : 0 < m.toNat} :
    pack .binary64 (.finite s m.toNat (-1074) hm) = packComponents .binary64 s 0#11 m := by
  have hlog : m.toNat.log2 < 52 := (Nat.log2_lt hm.ne').mpr m.isLt
  have hleading : ¬ m.toNat.log2 + 1 = Format.binary64.mantissaBits := by
    have hbits : Format.binary64.mantissaBits = 53 := rfl
    omega
  rw [pack]
  dsimp only
  rw [if_neg (by decide), if_neg hleading, BitVec.ofNat_toNat, BitVec.setWidth_eq]

theorem packComponents_eq_self {b : BitVec Format.binary64.numBits} {e : BitVec 11} {m : BitVec 52}
    (he : unpackExponent b = e) (hm : unpackMantissa b = m) :
    packComponents .binary64 (Sign.ofBitVec (unpackSign b)) e m = b := by
  rw [← he, ← hm, packComponents_unpack]

/-- A word is left as it is when it is taken apart and put together again. -/
theorem pack_unpack {b : BitVec Format.binary64.numBits} (h : Format.binary64.Valid b) :
    pack .binary64 (unpack .binary64 b) = b := by
  unfold unpack
  dsimp only
  split
  · next hones =>
      split
      · next hzero => exact packComponents_eq_self hones hzero
      -- Nothing is left of an undefined word, but only one of them is valid.
      · next hzero => exact (h.eq_packedNaN hones hzero).symm
  · next hones =>
      split
      · next hnone =>
          split
          · next hzero => exact packComponents_eq_self hnone hzero
          · next hzero =>
              rw [hnone]
              exact pack_subnormal.trans (packComponents_eq_self hnone rfl)
      · next hnone => exact (pack_normal hones rfl).trans (packComponents_eq_self rfl rfl)

/-- A float is known by its word. -/
theorem ofBits_toBits (x : Float) : Float.ofBits x.toBits = x := by
  rcases x with ⟨⟨bits, valid⟩⟩
  rw [Float.ofBits, Float.ofModel.injEq, Float.Model.ofBits, Float.Model.pack, Float.Model.mk.injEq]
  exact UInt64.toBitVec_inj.mp (pack_unpack valid)

theorem twoTo_le {k l : Nat} (h : k ≤ l) : twoTo k ≤ twoTo l :=
  Nat.pow_le_pow_right (by omega) h

/-- An integer is its mantissa, shifted by its exponent. -/
theorem mantissa_shift {m : Nat} {q : Int} (hwhole : Exact.isWhole m q = true) :
    m * twoTo q.toNat = Exact.wholePart m q * twoTo (-q).toNat := by
  unfold Exact.wholePart
  by_cases hq : 0 ≤ q
  · rw [if_pos hq, show (-q).toNat = 0 by omega, twoTo_zero, Nat.mul_one]
  · have hmod : m % twoTo (-q).toNat = 0 := by
      simpa [Exact.isWhole, hq] using hwhole
    rw [if_neg hq, show q.toNat = 0 by omega, twoTo_zero, Nat.mul_one,
      Nat.div_mul_cancel (Nat.dvd_of_mod_eq_zero hmod)]

/-- An integer of a moderate size has no positive exponent if there is a leading one. -/
theorem exists_shift {m : Nat} {q : Int} (hleading : twoTo 52 ≤ m)
    (hwhole : Exact.isWhole m q = true) (hsize : Exact.wholePart m q < twoTo 53) :
    ∃ k : Nat, q = -k ∧ m = Exact.wholePart m q * twoTo k := by
  have hshift := mantissa_shift hwhole
  by_cases hq : 0 < q
  · -- Twice a mantissa with a leading one is too large already.
    rw [show (-q).toNat = 0 by omega, twoTo_zero, Nat.mul_one] at hshift
    have hdouble : twoTo 52 * twoTo 1 ≤ m * twoTo q.toNat :=
      Nat.mul_le_mul hleading (twoTo_le (by omega))
    exact absurd (hshift ▸ hsize) (Nat.not_lt.mpr hdouble)
  · rw [show q.toNat = 0 by omega, twoTo_zero, Nat.mul_one] at hshift
    exact ⟨(-q).toNat, by omega, hshift⟩

theorem log2_mul_twoTo {n : Nat} (hn : n ≠ 0) (k : Nat) : (n * twoTo k).log2 = n.log2 + k := by
  rw [Nat.log2_eq_iff (Nat.mul_pos (Nat.pos_of_ne_zero hn) (twoTo_pos k)).ne', Nat.pow_add,
    Nat.add_right_comm, Nat.pow_add]
  exact ⟨Nat.mul_le_mul_right _ (Nat.log2_self_le hn),
    Nat.mul_lt_mul_of_pos_right Nat.lt_log2_self (twoTo_pos k)⟩

/-- A number without a leading one has no whole part. -/
theorem wholePart_subnormal {m : Nat} (hm : m < twoTo 52) : Exact.wholePart m (-1074) = 0 := by
  rw [Exact.wholePart, if_neg (by decide)]
  exact Nat.div_eq_of_lt (Nat.lt_of_lt_of_le hm (twoTo_le (by decide)))

/-- The word of a finite number has a leading one unless its exponent bits are zero. -/
theorem fields_of_ofBits {bits m : Nat} {q : Int} {negative : Bool}
    (h : Exact.ofBits bits = .finite negative m q) :
    (bits / twoTo 63 % 2 == 1) = negative ∧
      (bits / twoTo 52 % twoTo 11 = 0 ∧ bits % twoTo 52 = m ∧ q = -1074 ∨
        twoTo 52 + bits % twoTo 52 = m ∧ q = (bits / twoTo 52 % twoTo 11 : Nat) - 1075) := by
  unfold Exact.ofBits at h
  dsimp only at h
  split at h
  · split at h <;> cases h
  split at h
  · next hnone =>
      rw [Exact.finite.injEq] at h
      rcases h with ⟨hsign, hm, hq⟩
      exact ⟨hsign, .inl ⟨hnone, hm, hq.symm⟩⟩
  · rw [Exact.finite.injEq] at h
    rcases h with ⟨hsign, hm, hq⟩
    exact ⟨hsign, .inr ⟨hm, hq.symm⟩⟩

/-- An integer below two to the fifty-third has no other word than the one that it is given. -/
theorem integerBits_eq {bits m n : Nat} {q : Int} {negative : Bool} (hword : bits < twoTo 64)
    (hbits : Exact.ofBits bits = .finite negative m q) (hwhole : Exact.isWhole m q = true)
    (hn : Exact.wholePart m q = n) (hne : n ≠ 0) (hsize : n < twoTo 53) :
    integerBits negative n = bits := by
  have hfraction : bits % twoTo 52 < twoTo 52 := Nat.mod_lt bits (twoTo_pos 52)
  rcases fields_of_ofBits hbits with ⟨hsign, ⟨-, hm, rfl⟩ | ⟨hm, hq⟩⟩
  · rw [← hm, wholePart_subnormal hfraction] at hn
    exact absurd hn.symm hne
  · rcases exists_shift (by omega) hwhole (hn ▸ hsize) with ⟨k, hk, hshift⟩
    rw [hn] at hshift
    -- The leading one of the mantissa is fixed, so the shift can be read off the integer.
    have hlog : n.log2 + k = 52 := by
      rw [← log2_mul_twoTo hne, ← hshift, ← hm]
      exact log2_leading (Nat.le_add_right _ _) (Nat.add_lt_add_left hfraction _)
    have hcount : fractionBits - n.log2 = k := by
      unfold fractionBits
      omega
    unfold integerBits
    rw [if_neg hne]
    dsimp only
    rw [hcount, ← hshift, ← hsign]
    -- The fields are digits of the word to the bases 2 ^ 52 and 2 ^ 63.
    simp only [twoTo, Nat.pow_eq, Nat.reducePow, beq_iff_eq] at *
    split <;> omega

/-- Zero has two words, and no other one. -/
theorem eq_of_ofBits_zero {bits : Nat} {q : Int} {negative : Bool} (hword : bits < twoTo 64)
    (hbits : Exact.ofBits bits = .finite negative 0 q) : bits = 0 ∨ bits = twoTo 63 := by
  have hleading := twoTo_pos 52
  rcases fields_of_ofBits hbits with ⟨-, ⟨hnone, hm, -⟩ | ⟨hm, -⟩⟩
  · simp only [twoTo, Nat.pow_eq, Nat.reducePow] at *
    omega
  · omega

/-- A number with an integer value has the size of the integer, and its sign unless it is zero. -/
theorem exists_finite_of_integer {e : Exact} {i : Int} (hi : e.integer? = some i) :
    ∃ negative m q, e = .finite negative m q ∧ Exact.isWhole m q = true ∧
      Exact.wholePart m q = i.natAbs ∧ (i ≠ 0 → decide (i < 0) = negative) := by
  cases e with
  | nan => cases hi
  | infinite => cases hi
  | finite negative m q =>
      rw [Exact.integer?] at hi
      split at hi
      · next hwhole =>
          refine ⟨negative, m, q, rfl, hwhole, ?_⟩
          cases negative <;> simp at hi ⊢ <;> omega
      · cases hi

theorem ofInt_eq {x : Float} {i : Int} (hi : (exact x).integer? = some i) (hne : i ≠ 0)
    (hsize : i.natAbs < twoTo 53) : ofInt i = x := by
  rcases exists_finite_of_integer hi with ⟨negative, m, q, hexact, hwhole, hnat, hsign⟩
  have hword := integerBits_eq (UInt64.toNat_lt _) hexact hwhole hnat (by omega) hsize
  rw [ofInt, if_pos hsize, hsign hne, hword, UInt64.ofNat_toNat, ofBits_toBits]

theorem toBits_of_zero {x : Float} (hi : (exact x).integer? = some 0) :
    x.toBits = 0 ∨ x.toBits = UInt64.ofNat (twoTo 63) := by
  rcases exists_finite_of_integer hi with ⟨negative, m, q, hexact, hwhole, hnat, -⟩
  have hshift := mantissa_shift hwhole
  rw [hnat, Int.natAbs_zero, Nat.zero_mul] at hshift
  obtain rfl : m = 0 := (Nat.mul_eq_zero.mp hshift).resolve_right (twoTo_pos _).ne'
  rw [← UInt64.ofNat_toNat (x := x.toBits)]
  rcases eq_of_ofBits_zero (UInt64.toNat_lt _) hexact with hzero | hzero
  · exact .inl (by rw [hzero]; rfl)
  · exact .inr (by rw [hzero])

theorem beq_self {x : Float} (hx : exact x ≠ .nan) : (x == x) = true := by
  have hnan : x.toModel.unpack.isNaN ≠ true := fun h => hx (exact_eq_nan_iff.mpr h)
  change (x.toModel.unpack.compare x.toModel.unpack == some .eq) = true
  cases hunpack : x.toModel.unpack with
  | notANumber =>
      rw [hunpack] at hnan
      exact absurd rfl hnan
  | infinity s => cases s <;> rfl
  | zero s => rfl
  | finite s m e hm => cases s <;> simp [UnpackedFloat.compare]

theorem beq_ofInt_zero {x : Float} (hi : (exact x).integer? = some 0) : (ofInt 0 == x) = true := by
  rw [← ofBits_toBits x]
  rcases toBits_of_zero hi with hzero | hzero <;> rw [hzero] <;> decide

/-- An integer of a moderate size is made into a float that is equal to the one it comes from. -/
theorem beq_ofInt {x : Float} {i : Int} (hi : (exact x).integer? = some i)
    (hsize : i.natAbs < twoTo 53) : (ofInt i == x) = true := by
  by_cases hzero : i = 0
  · -- A negative zero is not made again, so the floats are equal but need not be the same.
    rw [hzero] at hi ⊢
    exact beq_ofInt_zero hi
  · rw [ofInt_eq hi hzero hsize]
    refine beq_self fun hnan => ?_
    rw [hnan] at hi
    cases hi

end Number

end Letterpress
