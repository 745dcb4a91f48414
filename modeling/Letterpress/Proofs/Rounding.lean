import Letterpress.Number.Fixed
import Letterpress.Number.Reading
import Mathlib

/-!
# Rounding

What the digits of a number with a given count of places are, said without the way they are found.
The number is scaled until the last place stands before the point, and the digits are those of the
whole number that is closest to it; if it lies halfway between two, they are those of the even one.
There is always a digit before the point, and no more zeros in front than that takes, so that this
says which digits they are and leaves no choice.

The scaling and the rounding are done on natural numbers, with a division wherever an exponent is
negative. Here they are compared with the rational number that is meant, where the sign of an
exponent makes no difference.

A rounded number has a text without any locale. If no places were asked for, that text is cut
short: zeros at its end go, and then a point if nothing is left behind it. The text is cut where the
digits are, so it has to be seen that the cut stops at the point and never takes zeros of a whole
number.

## Main definitions

* `IsRounding`: The digits are those of a number, rounded.
* `FixedDecimal.plain`: Digits as they are written without any locale.
* `withoutZeros`: A text cut short.

## Theorems

* `digitsValue_toDigits`: The digits of a number have its value.
* `roundedQuotient_nearest`: A rounded quotient is the closest whole number.
* `isRounding_fixed`: The digits with given places are the number rounded.
* `withoutZeros_plain`: Cutting the text short is cutting the places short.
* `isZero_eq_false_iff`: A rounded number is zero if its text shows no other digit.
-/

namespace Letterpress

namespace Number

/-- The digits are those of `m * 2 ^ q`, rounded to `n` places. -/
structure IsRounding (n m : Nat) (q : Int) (d : FixedDecimal) : Prop where
  isDigit : ∀ c ∈ d.whole ++ d.places, c.isDigit = true
  whole_ne_nil : d.whole ≠ []
  unpadded : d.whole.length = 1 ∨ d.whole.head? ≠ some '0'
  length_places : d.places.length = n
  nearest : |(digitsValue (d.whole ++ d.places) : ℚ) - m * 2 ^ q * 10 ^ n| ≤ 1 / 2
  even_of_tie : |(digitsValue (d.whole ++ d.places) : ℚ) - m * 2 ^ q * 10 ^ n| = 1 / 2 →
    Even (digitsValue (d.whole ++ d.places))

/-- The digits with a point in front of the places, if there are any. -/
def FixedDecimal.plain (d : FixedDecimal) : List Char :=
  if d.places.isEmpty then d.whole else d.whole ++ '.' :: d.places

/-- A text without the zeros at its end, and without a point that they leave bare. -/
def withoutZeros (cs : List Char) : List Char :=
  (cs.rdropWhile (· == '0')).rdropWhile (· == '.')

theorem digitsValue_toDigits (n : Nat) : digitsValue (Nat.toDigits 10 n) = n := by
  rw [digitsValue, ← Nat.ofDigitChars_eq_foldl, Nat.ofDigitChars_ten_toDigits]

theorem isDigit_of_mem_toDigits {n : Nat} {c : Char} (h : c ∈ Nat.toDigits 10 n) :
    c.isDigit = true :=
  Nat.isDigit_of_mem_toDigits (by decide) (by decide) h

/-- A positive number does not begin with a zero. -/
theorem head?_toDigits_ne {n : Nat} (hn : 0 < n) : (Nat.toDigits 10 n).head? ≠ some '0' := by
  induction n using Nat.strong_induction_on with
  | _ n ih =>
      by_cases hsmall : n < 10
      · rw [Nat.toDigits_of_lt_base hsmall, List.head?_cons, ne_eq, Option.some.injEq,
          Nat.digitChar_eq_zero]
        exact hn.ne'
      · -- The first digit stays when the last one is taken away.
        rw [Nat.toDigits_of_base_le (by decide) (Nat.le_of_not_lt hsmall),
          List.head?_append_of_ne_nil _ Nat.toDigits_ne_nil]
        exact ih (n / 10) (by omega) (by omega)

theorem length_paddedDigits (width n : Nat) :
    (paddedDigits width n).length = max width (Nat.toDigits 10 n).length := by
  simp only [paddedDigits, List.length_append, List.length_replicate]
  omega

theorem isDigit_of_mem_paddedDigits {width n : Nat} {c : Char} (h : c ∈ paddedDigits width n) :
    c.isDigit = true := by
  rw [paddedDigits, List.mem_append] at h
  rcases h with h | h
  · rw [List.eq_of_mem_replicate h]
    rfl
  · exact isDigit_of_mem_toDigits h

theorem digitsValue_paddedDigits (width n : Nat) : digitsValue (paddedDigits width n) = n := by
  rw [paddedDigits, digitsValue, ← Nat.ofDigitChars_eq_foldl, Nat.ofDigitChars_append,
    Nat.ofDigitChars_replicate_zero, Nat.mul_zero, Nat.ofDigitChars_ten_toDigits]

/-- A quotient lies above its integer part by the remainder. -/
theorem cast_div_eq {num den : Nat} (hden : 0 < den) :
    (num : ℚ) / den = (num / den : Nat) + ((num % den : Nat) : ℚ) / den := by
  have hne : (den : ℚ) ≠ 0 := by exact_mod_cast hden.ne'
  rw [div_eq_iff hne, add_mul, div_mul_cancel₀ _ hne]
  exact_mod_cast (Nat.div_add_mod' num den).symm

theorem roundedQuotient_nearest {num den : Nat} (hden : 0 < den) :
    |(roundedQuotient .toEven num den : ℚ) - num / den| ≤ 1 / 2 ∧
      (|(roundedQuotient .toEven num den : ℚ) - num / den| = 1 / 2 →
        Even (roundedQuotient .toEven num den)) := by
  have hpos : (0 : ℚ) < den := by exact_mod_cast hden
  have hle : (0 : ℚ) ≤ ((num % den : Nat) : ℚ) / den := by positivity
  have hlt : ((num % den : Nat) : ℚ) / den < 1 := by
    rw [div_lt_one hpos]
    exact_mod_cast Nat.mod_lt num hden
  rw [cast_div_eq hden]
  unfold roundedQuotient
  dsimp only
  -- What decides is on which side of one half the remainder lies.
  split
  · next hcompare =>
      have hhalf : ((num % den : Nat) : ℚ) / den < 1 / 2 := by
        rw [div_lt_div_iff₀ hpos two_pos, one_mul, mul_comm]
        exact_mod_cast Nat.compare_eq_lt.mp hcompare
      rw [sub_add_cancel_left, abs_neg, abs_of_nonneg hle]
      exact ⟨hhalf.le, fun h => absurd h hhalf.ne⟩
  · next hcompare =>
      have hhalf : 1 / 2 < ((num % den : Nat) : ℚ) / den := by
        rw [div_lt_div_iff₀ two_pos hpos, one_mul, mul_comm]
        exact_mod_cast Nat.compare_eq_gt.mp hcompare
      rw [Nat.cast_add_one, add_sub_add_left_eq_sub, abs_of_pos (sub_pos.mpr hlt)]
      constructor
      · linarith
      · intro h
        linarith
  · next hcompare =>
      have hhalf : ((num % den : Nat) : ℚ) / den = 1 / 2 := by
        rw [div_eq_div_iff hpos.ne' two_ne_zero, one_mul, mul_comm]
        exact_mod_cast Nat.compare_eq_eq.mp hcompare
      rw [hhalf]
      split
      · next heven =>
          refine ⟨?_, fun _ => Nat.even_iff.mpr heven⟩
          rw [sub_add_cancel_left, abs_neg, abs_of_pos (by norm_num)]
      · next hodd =>
          refine ⟨?_, fun _ => ?_⟩
          · rw [Nat.cast_add_one, add_sub_add_left_eq_sub, abs_of_pos (by norm_num)]
            norm_num
          · exact (Nat.not_even_iff_odd.mp fun h => hodd (Nat.even_iff.mp h)).add_one

/-- The quotient that is rounded is the scaled number, whatever the sign of its exponent. -/
theorem scaled_eq (n m : Nat) (q : Int) :
    ((m * twoTo q.toNat * tenTo n : Nat) : ℚ) / (twoTo (-q).toNat : Nat) = m * 2 ^ q * 10 ^ n := by
  have hten : (tenTo n : ℚ) = 10 ^ n := by
    rw [tenTo]
    exact_mod_cast rfl
  have htwo : ∀ k, (twoTo k : ℚ) = 2 ^ k := by
    intro k
    rw [twoTo]
    exact_mod_cast rfl
  push_cast
  rw [hten, htwo, htwo]
  rcases Int.le_total 0 q with hq | hq
  · obtain ⟨k, rfl⟩ := Int.eq_ofNat_of_zero_le hq
    simp
  · obtain ⟨k, hk⟩ := Int.eq_ofNat_of_zero_le (Int.neg_nonneg.mpr hq)
    obtain rfl : q = -(k : Int) := by omega
    simp
    ring

/-- The digits of a number with given places are the number rounded to so many places. -/
theorem isRounding_fixed (n m : Nat) (q : Int) : IsRounding n m q (fixed n m q) := by
  have hnearest := @roundedQuotient_nearest (m * twoTo q.toNat * tenTo n) _ (twoTo_pos (-q).toNat)
  rw [scaled_eq] at hnearest
  revert hnearest
  unfold fixed
  dsimp only
  generalize roundedQuotient .toEven (m * twoTo q.toNat * tenTo n) (twoTo (-q).toNat) = scaled
  intro hnearest
  have hlen := length_paddedDigits (n + 1) scaled
  have hjoin : (paddedDigits (n + 1) scaled).take ((paddedDigits (n + 1) scaled).length - n) ++
      (paddedDigits (n + 1) scaled).drop ((paddedDigits (n + 1) scaled).length - n) =
        paddedDigits (n + 1) scaled := List.take_append_drop _ _
  constructor
  case isDigit =>
    rw [hjoin]
    exact fun _ => isDigit_of_mem_paddedDigits
  case whole_ne_nil =>
    dsimp only
    rw [← List.length_pos_iff, List.length_take]
    omega
  case unpadded =>
    -- Zeros in front are put there only to have one digit before the point.
    dsimp only
    by_cases hshort : (Nat.toDigits 10 scaled).length ≤ n + 1
    · left
      rw [List.length_take]
      omega
    · right
      have hunpadded : paddedDigits (n + 1) scaled = Nat.toDigits 10 scaled := by
        rw [paddedDigits, Nat.sub_eq_zero_of_le (Nat.le_of_not_le hshort)]
        rfl
      have hpos : 0 < scaled := by
        by_contra hzero
        rw [Nat.eq_zero_of_not_pos hzero, Nat.toDigits_zero, List.length_singleton] at hshort
        omega
      rw [List.head?_take, if_neg (by omega), hunpadded]
      exact head?_toDigits_ne hpos
  case length_places =>
    dsimp only
    rw [List.length_drop]
    omega
  case nearest =>
    rw [hjoin, digitsValue_paddedDigits]
    exact hnearest.1
  case even_of_tie =>
    rw [hjoin, digitsValue_paddedDigits]
    exact hnearest.2

theorem rdropWhile_append {α : Type} (p : α → Bool) (xs ys : List α) :
    (xs ++ ys).rdropWhile p =
      if ys.rdropWhile p = [] then xs.rdropWhile p else xs ++ ys.rdropWhile p := by
  simp only [List.rdropWhile, List.reverse_append, List.dropWhile_append, List.isEmpty_iff,
    List.reverse_eq_nil_iff]
  split
  · rfl
  · rw [List.reverse_append, List.reverse_reverse]

/-- There is no point behind digits that could be taken away. -/
theorem rdropWhile_of_isDigit {ds : List Char} (hds : ∀ c ∈ ds, c.isDigit = true) :
    ds.rdropWhile (· == '.') = ds := by
  refine List.rdropWhile_eq_self_iff.mpr fun hne hpoint => ?_
  have hdigit := hds _ (List.getLast_mem hne)
  rw [beq_iff_eq.mp hpoint] at hdigit
  cases hdigit

/-- Zeros are taken away up to the point, and not beyond it. -/
theorem rdropWhile_append_point (whole ds : List Char) :
    (whole ++ '.' :: ds).rdropWhile (· == '0') = whole ++ '.' :: ds.rdropWhile (· == '0') := by
  have hsplit := rdropWhile_append (· == '0') (whole ++ ['.']) ds
  rw [List.rdropWhile_concat_neg _ _ _ (by decide), List.append_assoc,
    List.singleton_append] at hsplit
  rw [hsplit]
  split
  · next hnone => rw [hnone]
  · rw [List.append_assoc, List.singleton_append]

theorem withoutZeros_plain {d : FixedDecimal}
    (hdigits : ∀ c ∈ d.whole ++ d.places, c.isDigit = true) (hplaces : d.places ≠ []) :
    withoutZeros d.plain = d.shorten.plain := by
  rcases List.forall_mem_append.mp hdigits with ⟨hwhole, hbehind⟩
  have hshort : d.shorten.places = d.places.rdropWhile (· == '0') := rfl
  have hkept : ∀ c ∈ d.shorten.places, c.isDigit = true :=
    fun c hc => hbehind c ((List.rdropWhile_prefix _ _).subset hc)
  have hplain : d.plain = d.whole ++ '.' :: d.places := if_neg (mt List.isEmpty_iff.mp hplaces)
  rw [withoutZeros, hplain, rdropWhile_append_point, ← hshort, FixedDecimal.plain]
  split
  · next hnone =>
      rw [List.isEmpty_iff.mp hnone, List.rdropWhile_concat_pos _ _ _ rfl,
        rdropWhile_of_isDigit hwhole]
      rfl
  · next hsome =>
      have hkeep := rdropWhile_append (· == '.') (d.whole ++ ['.']) d.shorten.places
      rw [rdropWhile_of_isDigit hkept, if_neg (mt List.isEmpty_iff.mpr hsome), List.append_assoc]
        at hkeep
      exact hkeep

theorem isZero_eq_false_iff {d : FixedDecimal}
    (hdigits : ∀ c ∈ d.whole ++ d.places, c.isDigit = true) :
    d.isZero = false ↔ ∃ c ∈ d.plain, c.isDigit = true ∧ c ≠ '0' := by
  have hmem : ∀ c, c.isDigit = true → (c ∈ d.plain ↔ c ∈ d.whole ++ d.places) := by
    intro c hc
    unfold FixedDecimal.plain
    split
    · next hnone => rw [List.isEmpty_iff.mp hnone, List.append_nil]
    · -- Only the point is in the text and not among the digits.
      have hpoint : c ≠ '.' := by
        rintro rfl
        cases hc
      rw [List.mem_append, List.mem_append, List.mem_cons, or_iff_right hpoint]
  rw [FixedDecimal.isZero, ← List.all_append, List.all_eq_false]
  constructor
  · rintro ⟨c, hc, hzero⟩
    exact ⟨c, (hmem c (hdigits c hc)).mpr hc, hdigits c hc, fun h => hzero (beq_iff_eq.mpr h)⟩
  · rintro ⟨c, hc, hdigit, hzero⟩
    exact ⟨c, (hmem c hdigit).mp hc, fun h => hzero (beq_iff_eq.mp h)⟩

end Number

end Letterpress
