import Letterpress.Proofs.Marks
import Mathlib

/-!
# Signs of Amounts

When an amount of money begins with a minus sign. A number loses its sign if it is rounded to zero,
and an amount is meant to do the same. It is written the other way round, though: the number is
written without its sign, and the sign is put in front of the amount at the end. At that point only
the number is looked at and not what was made of it, so an amount that is rounded to zero keeps the
sign of the number it was made from. A loss of a tenth of a cent is shown as minus zero.

Apart from that the two agree. The places of the currency make no difference, as the number is
compared with the same places, and no number in between is rounded. There is one more way to begin
with a minus sign, which has nothing to do with the number: a code that has no symbol is shown as it
is given, and in front of the amount in some languages.

What a text begins with is decided by the first of its parts, unless that part is empty. So most of
the parts need not be looked at: it is enough that none that may follow begins with a minus sign.

## Main definitions

* `HasSign`: The text begins with a minus sign.
* `amountPlaces`: The places that an amount is written with.

## Theorems

* `hasSign_number_iff`: A number has a sign if it is negative and not rounded to zero.
* `isZero_digitsOf_zero`: Zero is rounded to zero.
* `hasSign_symbol_iff`: A currency is shown with a sign only if its code has one.
* `hasSign_currency_iff`: When an amount begins with a minus sign.
-/

namespace Letterpress

open Number (Exact fixed signed)

/-- The text begins with a minus sign. -/
def HasSign (s : String) : Prop :=
  s.toList.head? = some '-'

instance (s : String) : Decidable (HasSign s) :=
  inferInstanceAs (Decidable (_ = _))

theorem hasSign_append_iff {s t : String} (ht : ¬ HasSign t) : HasSign (s ++ t) ↔ HasSign s := by
  unfold HasSign at ht ⊢
  rw [String.toList_append, List.head?_append]
  cases s.toList with
  | nil => exact iff_of_false ht (by simp)
  | cons c cs => rfl

theorem hasSign_signed_iff {negative : Bool} {s : String} :
    HasSign (signed negative s) ↔ negative = true ∨ HasSign s := by
  cases negative with
  | false => simp [signed]
  | true =>
      refine iff_of_true ?_ (.inl rfl)
      rw [HasSign, signed, if_pos rfl, String.toList_append]
      rfl

namespace Locale

/-- A mark is put behind a digit and never in front of the first one. -/
theorem head?_grouped (mark : Char) (ds : List Char) : (grouped mark ds).head? = ds.head? := by
  cases ds with
  | nil => rfl
  | cons d ds =>
      unfold grouped
      split <;> rfl

theorem head?_marked_ne (l : Locale) (m : Nat) (q : Int) (places : Option Nat) :
    (l.marked (digitsOf m q places)).head? ≠ some '-' := by
  have hdigits := isDigit_digitsOf m q places
  have hne : (digitsOf m q places).whole ≠ [] := by
    rw [whole_digitsOf]
    exact (Number.isRounding_fixed _ m q).whole_ne_nil
  rcases List.exists_cons_of_ne_nil hne with ⟨d, ds, hwhole⟩
  have hhead : (l.marked (digitsOf m q places)).head? = some d := by
    have hgrouped := head?_grouped l.groupMark (digitsOf m q places).whole
    rw [hwhole, List.head?_cons] at hgrouped
    unfold marked
    dsimp only
    rw [hwhole]
    split
    · exact hgrouped
    · rw [List.head?_append, hgrouped]
      rfl
  have hdigit : d.isDigit = true := by
    refine hdigits d (List.mem_append_left _ ?_)
    rw [hwhole]
    exact List.mem_cons_self
  rw [hhead]
  rintro ⟨⟩
  cases hdigit

theorem hasSign_number_iff {l : Locale} {negative : Bool} {m : Nat} {q : Int}
    {places : Option Nat} : HasSign (l.number (.finite negative m q) places) ↔
      negative = true ∧ (digitsOf m q places).isZero = false := by
  have hbody := head?_marked_ne l m q places
  rw [HasSign, toList_number]
  split
  · next hsign => exact iff_of_true rfl (by simpa using hsign)
  · next hsign => exact iff_of_false hbody (by simpa using hsign)

/-- Zero is rounded to zero. -/
theorem isZero_digitsOf_zero (q : Int) (n : Nat) : (digitsOf 0 q (some n)).isZero = true := by
  have hzero : Number.roundedQuotient .toEven 0 (Number.twoTo (-q).toNat) = 0 := by
    unfold Number.roundedQuotient
    rw [Nat.zero_div, Nat.zero_mod, Nat.mul_zero, Nat.compare_eq_lt.mpr (Number.twoTo_pos _)]
  have hpadded : ∀ c ∈ Number.paddedDigits (n + 1) 0, c = '0' := by
    intro c hc
    rw [Number.paddedDigits, Nat.toDigits_zero, List.mem_append] at hc
    exact hc.elim List.eq_of_mem_replicate List.eq_of_mem_singleton
  unfold digitsOf Number.fixed Number.FixedDecimal.isZero
  dsimp only
  rw [Nat.zero_mul, Nat.zero_mul, hzero, ← List.all_append, List.take_append_drop,
    List.all_eq_true]
  exact fun c hc => beq_iff_eq.mpr (hpadded c hc)

/-- The places that an amount is written with: those that are asked for, or the usual ones. -/
def amountPlaces (code : String) (places : Option Nat) : Nat :=
  places.getD (currencySymbol (Text.asciiUpper (Text.trim code))).2

/-- A letter in upper case is no minus sign. -/
theorem toUpper_eq_minus_iff {c : Char} : c.toUpper = '-' ↔ c = '-' := by
  unfold Char.toUpper
  split
  · next hlower =>
      refine iff_of_false (fun h => ?_) ?_
      · -- The code of the letter goes down by 32, and a minus sign lies further below.
        rw [Char.ext_iff, ← UInt32.toNat_inj, UInt32.toNat_add] at h
        have hlow : 97 ≤ c.val.toNat := hlower.1
        have hhigh : c.val.toNat ≤ 122 := hlower.2
        have hdown : ('A'.val - 'a'.val).toNat = 2 ^ 32 - 32 := rfl
        have hminus : '-'.val.toNat = 45 := rfl
        rw [hdown, hminus] at h
        omega
      · rintro rfl
        exact absurd hlower (by decide)
  · rfl

/-- A currency is shown with a minus sign in front only if its code begins with one. -/
theorem hasSign_symbol_iff {code : String} :
    HasSign (currencySymbol (Text.asciiUpper (Text.trim code))).1 ↔ HasSign (Text.trim code) := by
  have hupper : HasSign (Text.asciiUpper (Text.trim code)) ↔ HasSign (Text.trim code) := by
    unfold HasSign Text.asciiUpper
    rw [String.toList_ofList, List.head?_map, Option.map_eq_some_iff]
    constructor
    · rintro ⟨c, hc, hminus⟩
      rw [hc, toUpper_eq_minus_iff.mp hminus]
    · exact fun h => ⟨'-', h, rfl⟩
  rw [← hupper]
  generalize Text.asciiUpper (Text.trim code) = shown
  unfold currencySymbol
  split
  all_goals first | exact Iff.rfl | decide

/-- Only the number itself and the code decide whether an amount begins with a minus sign. -/
theorem hasSign_currency_iff_isBelowZero {l : Locale} {negative : Bool} {m : Nat} {q : Int}
    {code : String} {places : Option Nat} :
    HasSign (l.currency (.finite negative m q) code places) ↔
      (negative = true ∧ m ≠ 0) ∨ (l.currencyBehind = false ∧ HasSign (Text.trim code)) := by
  have hbelow : (Exact.finite negative m q).isBelowZero = true ↔ negative = true ∧ m ≠ 0 := by
    simp [Exact.isBelowZero]
  have hamount : ¬ HasSign (l.number (Exact.finite negative m q).size
      (some (amountPlaces code places))) := by
    rw [Exact.size, hasSign_number_iff]
    simp
  have hspace : ∀ s, ¬ HasSign (fixedSpace ++ s) := by
    intro s
    have hhead : (fixedSpace ++ s).toList.head? = some '\u00a0' := by
      rw [String.toList_append]
      rfl
    rw [HasSign, hhead]
    decide
  unfold currency
  dsimp only
  rw [hasSign_signed_iff, hbelow]
  refine or_congr Iff.rfl ?_
  rw [amountPlaces] at hamount
  cases l.currencyBehind with
  | true =>
      rw [if_pos rfl, String.append_assoc, hasSign_append_iff (hspace _)]
      simp [hamount]
  | false =>
      rw [if_neg Bool.false_ne_true, ← hasSign_symbol_iff]
      -- Between the symbol and the amount there may be a space, and neither begins with a sign.
      split
      · rw [String.append_assoc, hasSign_append_iff (hspace _)]
        simp
      · rw [hasSign_append_iff hamount]
        simp

end Locale

/-- An amount begins with a minus sign when the number with the same places does, and else only if
    it is below zero and rounded to zero, or if the code of its currency stands in front of it and
    begins with a minus sign. -/
theorem hasSign_currency_iff (tag : String) (negative : Bool) (m : Nat) (q : Int) (code : String)
    (places : Option Nat) :
    (HasSign ((Locale.ofTag tag).currency (.finite negative m q) code places) ↔
      HasSign ((Locale.ofTag tag).number (.finite negative m q)
        (some (Locale.amountPlaces code places))) ∨
      ((negative = true ∧ m ≠ 0) ∧
        ∀ c ∈ Locale.plainText m q (some (Locale.amountPlaces code places)),
          c.isDigit = true → c = '0') ∨
      ((Locale.ofTag tag).currencyBehind = false ∧ HasSign (Text.trim code))) ∧
    (HasSign ((Locale.ofTag tag).number (.finite negative m q)
        (some (Locale.amountPlaces code places))) ↔
      (negative = true ∧ m ≠ 0) ∧
        ∃ c ∈ Locale.plainText m q (some (Locale.amountPlaces code places)),
          c.isDigit = true ∧ c ≠ '0') := by
  generalize Locale.amountPlaces code places = n
  have hnumber : HasSign ((Locale.ofTag tag).number (.finite negative m q) (some n)) ↔
      (negative = true ∧ m ≠ 0) ∧
        ∃ c ∈ Locale.plainText m q (some n), c.isDigit = true ∧ c ≠ '0' := by
    rw [Locale.hasSign_number_iff, ← Locale.isZero_digitsOf_eq_false_iff]
    refine ⟨fun h => ⟨⟨h.1, ?_⟩, h.2⟩, fun h => ⟨h.1.1, h.2⟩⟩
    rintro rfl
    rw [Locale.isZero_digitsOf_zero] at h
    cases h.2
  refine ⟨?_, hnumber⟩
  rw [Locale.hasSign_currency_iff_isBelowZero, hnumber, ← or_assoc, ← and_or_left]
  -- Either a digit other than zero is shown or there is none.
  have hdigits : (∃ c ∈ Locale.plainText m q (some n), c.isDigit = true ∧ c ≠ '0') ∨
      ∀ c ∈ Locale.plainText m q (some n), c.isDigit = true → c = '0' := by
    by_cases h : ∃ c ∈ Locale.plainText m q (some n), c.isDigit = true ∧ c ≠ '0'
    · exact .inl h
    · refine .inr fun c hc hdigit => ?_
      by_contra hzero
      exact h ⟨c, hc, hdigit, hzero⟩
  rw [and_iff_left hdigits]

/-- An amount of less than half a cent below zero is shown as minus zero. -/
theorem zero_amount_signed :
    (Locale.ofTag "en-US").currency (Number.exact (-0.001)) "USD" none = "-$0.00" ∧
      (Locale.ofTag "en-US").number (Number.exact (-0.001)) (some 2) = "0.00" ∧
      ¬ (HasSign ((Locale.ofTag "en-US").currency (Number.exact (-0.001)) "USD" none) ↔
        HasSign ((Locale.ofTag "en-US").number (Number.exact (-0.001)) (some 2))) := by
  decide

end Letterpress
