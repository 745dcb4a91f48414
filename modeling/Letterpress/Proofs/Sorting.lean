import Mathlib.Data.List.Basic

/-!
# Stable Sorting

What a stable sort leaves as it was. Sorting moves items past each other only if the order asks for
it, so what is in order already stays in its order, however many other items stand in between, and
items that the order does not tell apart stay in theirs.

The second is what makes an order out of two: items that come one after the other in time and are
sorted by rank are in the order of their ranks, and of time where the ranks are equal.

## Theorems

* `filter_mergeSort`: Sorting leaves in their order what is sorted already.
* `pairwise_mergeSort_of_ties`: Sorting leaves in their order what is equal.
-/

namespace Letterpress

variable {α : Type} {le : α → α → Bool} {xs : List α}

/-- Sorting leaves in their order what is sorted already, wherever it stands among the others. -/
theorem filter_mergeSort {p : α → Bool}
    (htrans : ∀ a b c, le a b = true → le b c = true → le a c = true)
    (htotal : ∀ a b, (le a b || le b a) = true) (hsorted : (xs.filter p).Pairwise (le · ·)) :
    (xs.mergeSort le).filter p = xs.filter p := by
  have hsub : (xs.filter p).Sublist (xs.mergeSort le) :=
    List.sublist_mergeSort htrans htotal hsorted List.filter_sublist
  have hsub' := hsub.filter p
  rw [List.filter_filter] at hsub'
  simp only [Bool.and_self] at hsub'
  have hlength := ((List.mergeSort_perm xs le).filter p).length_eq
  exact (hsub'.eq_of_length hlength.symm).symm

/-- A relation that holds between any two items in this order holds after sorting, if it held
    before between any two items that are equal for the order, and follows where they are not. -/
theorem pairwise_mergeSort_of_ties {r : α → α → Prop}
    (htrans : ∀ a b c, le a b = true → le b c = true → le a c = true)
    (htotal : ∀ a b, (le a b || le b a) = true)
    (hless : ∀ a b, le a b = true → le b a = false → r a b)
    (hties : xs.Pairwise fun a b => le a b = true → le b a = true → r a b) :
    (xs.mergeSort le).Pairwise r := by
  rw [List.pairwise_iff_forall_sublist]
  intro a b hab
  have hle : le a b = true :=
    List.pairwise_iff_forall_sublist.mp (List.pairwise_mergeSort htrans htotal xs) hab
  cases hback : le b a with
  | false => exact hless a b hle hback
  | true =>
      -- The items that are equal to the first one stand in the same order before sorting.
      have hself : le a a = true := htrans a b a hle hback
      have hequal : ((xs.mergeSort le).filter fun c => le a c && le c a) =
          xs.filter fun c => le a c && le c a := by
        refine filter_mergeSort htrans htotal (List.pairwise_of_forall_mem_list ?_)
        intro c hc d hd
        have hca := (Bool.and_eq_true_iff.mp (List.mem_filter.mp hc).2).2
        have had := (Bool.and_eq_true_iff.mp (List.mem_filter.mp hd).2).1
        exact htrans c a d hca had
      have hpair := hab.filter fun c => le a c && le c a
      rw [hequal] at hpair
      simp only [List.filter_cons, hself, hle, hback, Bool.and_self, if_true, List.filter_nil]
        at hpair
      exact List.pairwise_iff_forall_sublist.mp hties (hpair.trans List.filter_sublist) hle hback

end Letterpress
