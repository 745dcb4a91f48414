import Letterpress.Filter.Text
import Letterpress.Proofs.Composites

/-!
# Joining Lists

A list has a text of its own, with commas between its items, and a filter joins its items with
whatever separator is wanted. The two go through the list in different ways. The text is written
item by item, each of them behind a comma unless it is the first, while the filter collects the
texts of all items and puts the separator between them. For a comma they are meant to be the same,
and what could keep them apart are the items that are blank: a null, an empty text or an empty list
adds nothing, but the commas around it have to be there.

Only the outermost list is joined. An item that is itself a list is shown by its own text, whatever
the separator is, so the agreement is not carried from the inside of a value to the outside, and
no induction on the value is needed. How deep it is nested does not matter.

That a list may be joined in two parts needs an item in both of them. An empty list has an empty
text, but no separator next to it.

## Theorems

* `intercalate_shown_append`: Two lists of items, each with at least one, joined in one go.
* `join_agrees_and_splits`: Joining with a comma gives the text of a list, and joining with any
  separator can be done in two parts.
-/

namespace Letterpress

namespace TextFilter

/-- Between the items of two lists there is one separator more. -/
theorem intercalate_shown_append (separator : String) {xs ys : List Value} (hx : xs ≠ [])
    (hy : ys ≠ []) :
    separator.intercalate ((xs ++ ys).map Value.shown) =
      separator.intercalate (xs.map Value.shown) ++ separator ++
        separator.intercalate (ys.map Value.shown) := by
  have hx' : xs.map Value.shown ≠ [] := by simpa using hx
  have hy' : ys.map Value.shown ≠ [] := by simpa using hy
  rw [List.map_append, String.intercalate_append_of_ne_nil hx' hy']

end TextFilter

/-- Joining a list without an argument, or with a comma, gives the text of the list. With any
    separator the joined text of two lists that are not empty, one behind the other, is that of the
    first, the separator, and that of the second. -/
theorem join_agrees_and_splits :
    (∀ (items : List Value) (args : List String), args = [] ∨ args.head? = some "," →
      TextFilter.join (.list items) args = .ok (.text (Value.list items).display)) ∧
    ∀ (separator : String) (more : List String) (xs ys : List Value), xs ≠ [] → ys ≠ [] →
      ∃ s t, TextFilter.join (.list xs) (separator :: more) = .ok (.text s) ∧
        TextFilter.join (.list ys) (separator :: more) = .ok (.text t) ∧
        TextFilter.join (.list (xs ++ ys)) (separator :: more) =
          .ok (.text (s ++ separator ++ t)) := by
  refine ⟨?_, ?_⟩
  · intro items args hargs
    have hcomma : args.headD "," = "," := by
      rcases hargs with rfl | hhead
      · rfl
      · rw [List.headD_eq_head?_getD, hhead]
        rfl
    rw [TextFilter.join, hcomma, Value.display_list]
  · intro separator more xs ys hx hy
    refine ⟨separator.intercalate (xs.map Value.shown), separator.intercalate (ys.map Value.shown),
      rfl, rfl, ?_⟩
    rw [← TextFilter.intercalate_shown_append separator hx hy]
    rfl

/-- A list with nulls at both ends and a list in between is joined around them, in one go and in two
    parts. -/
theorem join_agrees_and_splits_blanks :
    (TextFilter.join (.list [.null, .list [.text "a", .null, .list []], .null]) [] =
        .ok (.text (Value.list [.null, .list [.text "a", .null, .list []], .null]).display) ∧
      (Value.list [.null, .list [.text "a", .null, .list []], .null]).display = ",a,,,") ∧
    ∃ s t, TextFilter.join (.list [.null]) ["; "] = .ok (.text s) ∧
      TextFilter.join (.list [.list [.text "a", .null, .list []], .null]) ["; "] = .ok (.text t) ∧
      TextFilter.join (.list ([.null] ++ [.list [.text "a", .null, .list []], .null])) ["; "] =
        .ok (.text (s ++ "; " ++ t)) := by
  refine ⟨⟨join_agrees_and_splits.1 _ [] (Or.inl rfl), by decide⟩, ?_⟩
  exact join_agrees_and_splits.2 "; " [] [.null] _ (List.cons_ne_nil _ _) (List.cons_ne_nil _ _)

end Letterpress
