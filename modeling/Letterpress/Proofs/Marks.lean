import Letterpress.Locale
import Letterpress.Proofs.Rounding
import Mathlib

/-!
# Marks in Numbers

A locale writes a number with its own marks: one between groups of three digits, and one in the
place of the point. Nothing else may change, so the text has to be that of the rounded number again
once the marks are taken back, and the marks have to stand where a reader expects them.

Both rest on the marks being clear. They are no digits, so a mark is never taken for a part of the
number, and they differ from each other, so the two can be taken back in one go although some
locales use for the one what others use for the other. All locales have clear marks; what follows is
then true of each, and no proof looks at a single language again.

Groups are counted from the right, but the digits are gone through from the left. So the induction
is on the digits that are still to come: they are in groups already, and the first of these groups
is either full, and a new one begins in front of it, or takes one digit more.

The sign is decided last, when the number is rounded already. A negative number that is rounded to
zero has none.

## Main definitions

* `IsClear`: The marks of a locale cannot be mistaken.
* `IsMarked`: A plain text with marks in the right places.
* `plainText`: The text of a number without any locale.

## Theorems

* `isClear_ofTag`: All locales have clear marks.
* `exists_groups`: Digits are put into groups of three from the right.
* `isMarked_marked`: Marks are put where they belong, and change nothing else.
* `number_adds_marks`: A number is its plain text with marks, and perhaps a sign.
-/

namespace Letterpress

namespace Locale

open Number (FixedDecimal IsRounding fixed)

/-- Neither mark can be taken for a digit, or for the other. -/
structure IsClear (l : Locale) : Prop where
  apart : l.groupMark ≠ l.decimalMark
  group : l.groupMark.isDigit = false
  decimal : l.decimalMark.isDigit = false

/-- The text becomes the plain one again when its marks are taken back. In front of the places its
    digits are in groups of three with a mark between any two, and only the first may be smaller. -/
structure IsMarked (l : Locale) (plain body : List Char) : Prop where
  restored : (body.filter (· != l.groupMark)).map
    (fun c => if c = l.decimalMark then '.' else c) = plain
  grouped : ∃ first rest behind, body = [l.groupMark].intercalate (first :: rest) ++ behind ∧
    1 ≤ first.length ∧ first.length ≤ 3 ∧ (∀ g ∈ rest, g.length = 3) ∧
    (∀ c ∈ first ++ rest.flatten, c.isDigit = true) ∧
    (behind = [] ∨ ∃ ds, behind = l.decimalMark :: ds ∧ ∀ c ∈ ds, c.isDigit = true)

/-- The text of `m * 2 ^ q` without any locale and without a sign. If no places are asked for, it
    is rounded to three and cut short. -/
def plainText (m : Nat) (q : Int) (places : Option Nat) : List Char :=
  match places with
  | some n => (fixed n m q).plain
  | none => Number.withoutZeros (fixed 3 m q).plain

theorem isClear_ofTag (tag : String) : (ofTag tag).IsClear := by
  unfold ofTag
  split <;> exact ⟨by decide, by decide, by decide⟩

theorem exists_groups (mark : Char) {ds : List Char} (hds : ds ≠ []) :
    ∃ first rest, grouped mark ds = [mark].intercalate (first :: rest) ∧
      first ++ rest.flatten = ds ∧ 1 ≤ first.length ∧ first.length ≤ 3 ∧
      ∀ g ∈ rest, g.length = 3 := by
  induction ds with
  | nil => exact absurd rfl hds
  | cons d ds ih =>
      rcases eq_or_ne ds [] with rfl | hne
      · exact ⟨[d], [], rfl, rfl, by simp, by simp, by simp⟩
      · rcases ih hne with ⟨first, rest, htext, hjoin, hlow, hhigh, hthree⟩
        have hlen : ds.length = first.length + rest.length * 3 := by
          rw [← hjoin, List.length_append, List.length_flatten,
            List.map_eq_replicate_iff.mpr hthree, List.sum_replicate, smul_eq_mul]
        by_cases hfull : first.length = 3
        · -- The first group is full, so this digit stands alone in a group of its own.
          refine ⟨[d], first :: rest, ?_, ?_, by simp, by simp, ?_⟩
          · rw [grouped, if_pos ⟨by omega, hne⟩, htext, List.intercalate_cons_cons]
            rfl
          · rw [List.flatten_cons, hjoin, List.singleton_append]
          · exact List.forall_mem_cons.mpr ⟨hfull, hthree⟩
        · refine ⟨d :: first, rest, ?_, ?_, by simp, ?_, hthree⟩
          · rw [grouped, if_neg (by omega), htext]
            cases rest <;> rfl
          · rw [List.cons_append, hjoin]
          · rw [List.length_cons]
            omega

theorem filter_grouped {mark : Char} {ds : List Char} (hds : ∀ d ∈ ds, d ≠ mark) :
    (grouped mark ds).filter (· != mark) = ds := by
  induction ds with
  | nil => rfl
  | cons d ds ih =>
      rcases List.forall_mem_cons.mp hds with ⟨hd, hrest⟩
      have hkeep : (d != mark) = true := bne_iff_ne.mpr hd
      unfold grouped
      split
      · rw [List.filter_cons, if_pos hkeep, List.filter_cons, if_neg (by simp), ih hrest]
      · rw [List.filter_cons, if_pos hkeep, ih hrest]

theorem ne_of_isDigit {c mark : Char} (hmark : mark.isDigit = false) (hc : c.isDigit = true) :
    c ≠ mark := by
  rintro rfl
  rw [hmark] at hc
  cases hc

theorem filter_of_isDigit {mark : Char} {ds : List Char} (hmark : mark.isDigit = false)
    (hds : ∀ d ∈ ds, d.isDigit = true) : ds.filter (· != mark) = ds :=
  List.filter_eq_self.mpr fun d hd => bne_iff_ne.mpr (ne_of_isDigit hmark (hds d hd))

theorem map_of_isDigit {mark : Char} {ds : List Char} (hmark : mark.isDigit = false)
    (hds : ∀ d ∈ ds, d.isDigit = true) :
    ds.map (fun c => if c = mark then '.' else c) = ds := by
  conv_rhs => rw [← List.map_id ds]
  exact List.map_congr_left fun d hd => if_neg (ne_of_isDigit hmark (hds d hd))

theorem isMarked_marked {l : Locale} (hl : l.IsClear) {d : FixedDecimal}
    (hdigits : ∀ c ∈ d.whole ++ d.places, c.isDigit = true) (hne : d.whole ≠ []) :
    l.IsMarked d.plain (l.marked d) := by
  rcases List.forall_mem_append.mp hdigits with ⟨hwhole, hplaces⟩
  have hgroup : (grouped l.groupMark d.whole).filter (· != l.groupMark) = d.whole :=
    filter_grouped fun c hc => ne_of_isDigit hl.group (hwhole c hc)
  rcases exists_groups l.groupMark hne with ⟨first, rest, htext, hjoin, hlow, hhigh, hthree⟩
  unfold marked FixedDecimal.plain
  dsimp only
  split
  · refine ⟨?_, first, rest, [], ?_, hlow, hhigh, hthree, hjoin ▸ hwhole, .inl rfl⟩
    · rw [hgroup, map_of_isDigit hl.decimal hwhole]
    · rw [htext, List.append_nil]
  · refine ⟨?_, first, rest, l.decimalMark :: d.places, ?_, hlow, hhigh, hthree, hjoin ▸ hwhole,
      .inr ⟨d.places, rfl, hplaces⟩⟩
    · -- The mark of the places is kept, as it is not the mark of the groups.
      rw [List.filter_append, hgroup, List.filter_cons, if_pos (bne_iff_ne.mpr hl.apart.symm),
        filter_of_isDigit hl.group hplaces, List.map_append, List.map_cons, if_pos rfl,
        map_of_isDigit hl.decimal hwhole, map_of_isDigit hl.decimal hplaces]
    · rw [htext]

theorem whole_digitsOf (m : Nat) (q : Int) (places : Option Nat) :
    (digitsOf m q places).whole = (fixed (places.getD 3) m q).whole := by
  cases places <;> rfl

theorem isDigit_digitsOf (m : Nat) (q : Int) (places : Option Nat) :
    ∀ c ∈ (digitsOf m q places).whole ++ (digitsOf m q places).places, c.isDigit = true := by
  cases places with
  | some n => exact (Number.isRounding_fixed n m q).isDigit
  | none =>
      -- Cutting the places short leaves some of their digits.
      intro c hc
      refine (Number.isRounding_fixed 3 m q).isDigit c (List.mem_append.mpr ?_)
      exact (List.mem_append.mp hc).imp_right fun h => (List.rdropWhile_prefix _ _).subset h

theorem plain_digitsOf (m : Nat) (q : Int) (places : Option Nat) :
    (digitsOf m q places).plain = plainText m q places := by
  cases places with
  | some n => rfl
  | none =>
      have hround := Number.isRounding_fixed 3 m q
      refine (Number.withoutZeros_plain hround.isDigit fun hnone => ?_).symm
      have hlen := hround.length_places
      rw [hnone] at hlen
      cases hlen

theorem isZero_digitsOf_eq_false_iff (m : Nat) (q : Int) (places : Option Nat) :
    (digitsOf m q places).isZero = false ↔
      ∃ c ∈ plainText m q places, c.isDigit = true ∧ c ≠ '0' := by
  rw [← plain_digitsOf]
  exact Number.isZero_eq_false_iff (isDigit_digitsOf m q places)

/-- Zeros of a whole number are never taken away. -/
theorem whole_prefix_plainText (m : Nat) (q : Int) (places : Option Nat) :
    (fixed (places.getD 3) m q).whole <+: plainText m q places := by
  rw [← plain_digitsOf, ← whole_digitsOf]
  unfold FixedDecimal.plain
  split
  · exact List.prefix_rfl
  · exact List.prefix_append _ _

theorem toList_number (l : Locale) (negative : Bool) (m : Nat) (q : Int) (places : Option Nat) :
    (l.number (.finite negative m q) places).toList =
      (if negative && !(digitsOf m q places).isZero then ['-'] else []) ++
        l.marked (digitsOf m q places) := by
  unfold number Number.signed
  dsimp only
  split
  · rw [String.toList_append, String.toList_ofList, String.toList_ofList]
  · exact String.toList_ofList

end Locale

/-- A number is written in a locale as it is without any, but for the marks. It has a sign if it is
    negative and a digit other than zero is shown. -/
theorem number_adds_marks (tag : String) (negative : Bool) (m : Nat) (q : Int)
    (places : Option Nat) :
    Number.IsRounding (places.getD 3) m q (Number.fixed (places.getD 3) m q) ∧
      (Number.fixed (places.getD 3) m q).whole <+: Locale.plainText m q places ∧
      (Locale.ofTag tag).IsClear ∧
      ∃ sign body,
        ((Locale.ofTag tag).number (.finite negative m q) places).toList = sign ++ body ∧
        (Locale.ofTag tag).IsMarked (Locale.plainText m q places) body ∧
        (sign = [] ∨ sign = ['-']) ∧
        (sign = ['-'] ↔ negative = true ∧
          ∃ c ∈ Locale.plainText m q places, c.isDigit = true ∧ c ≠ '0') := by
  have hclear := Locale.isClear_ofTag tag
  have hround := Number.isRounding_fixed (places.getD 3) m q
  -- Marks can be set since there is a digit in front of the point.
  have hne : (Locale.digitsOf m q places).whole ≠ [] := by
    rw [Locale.whole_digitsOf]
    exact hround.whole_ne_nil
  have hmarked := Locale.isMarked_marked hclear (Locale.isDigit_digitsOf m q places) hne
  rw [Locale.plain_digitsOf] at hmarked
  refine ⟨hround, Locale.whole_prefix_plainText m q places, hclear, _, _,
    Locale.toList_number _ negative m q places, hmarked, ?_, ?_⟩
  · split
    · exact .inr rfl
    · exact .inl rfl
  · rw [← Locale.isZero_digitsOf_eq_false_iff]
    split
    · next hsign => simpa using hsign
    · next hsign => simpa using hsign

end Letterpress
