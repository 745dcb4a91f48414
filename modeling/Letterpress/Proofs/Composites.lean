import Letterpress.Proofs.Numerals

/-!
# Numbers of Composite Values

A list or a record has no number of its own. It is meant to count as its text does, which is how a
script would count it, but the two are written apart: the text goes down through all the items and
leaves null items blank, while the number looks at how many items there are and reads the text of
the item only if it is alone. What has to be seen is that the short way leads to the same number.

It does so because of the comma. A list of two or more has one in its text, no numeral has one, and
it is no blank that would be trimmed, so the text of such a list is undefined whatever its items
are. No induction on the items is needed: how deep they are nested does not matter to the comma
between the first two.

A list of one item is where the two ways part. The item is shown by its own text, and a null has the
text of its name, but inside of a list it is blank. So a list with nothing but a null in it counts
as undefined, and its text as zero. Every other composite counts as its text.

## Main definitions

* `Value.isComposite`: Lists and records.

## Theorems

* `mem_trim_iff`: Trimming only takes blanks.
* `IsNumeral.comma_not_mem`: There is no comma in a numeral.
* `comma_mem_display`: There is one in the text of a list of two or more.
* `composite_counts_as_text`: When a composite counts as its text.
-/

namespace Letterpress

namespace Text

theorem mem_trimLeft_iff {cs : List Char} {c : Char} (hc : isBlank c = false) :
    c ∈ trimLeft cs ↔ c ∈ cs := by
  unfold trimLeft
  constructor
  · exact fun h => (List.dropWhile_sublist isBlank).mem h
  · intro h
    rw [← @List.takeWhile_append_dropWhile _ isBlank cs, List.mem_append] at h
    -- What is dropped is all blank, and this character is not.
    refine h.resolve_left fun htaken => ?_
    rw [List.mem_takeWhile_imp htaken] at hc
    cases hc

theorem mem_trimRight_iff {cs : List Char} {c : Char} (hc : isBlank c = false) :
    c ∈ trimRight cs ↔ c ∈ cs := by
  rw [trimRight, List.mem_reverse]
  exact (mem_trimLeft_iff hc).trans List.mem_reverse

/-- Only blanks are trimmed. -/
theorem mem_trim_iff {s : String} {c : Char} (hc : isBlank c = false) :
    c ∈ (trim s).toList ↔ c ∈ s.toList := by
  rw [trim, String.toList_ofList, mem_trimRight_iff hc, mem_trimLeft_iff hc]

end Text

namespace Number

theorem IsInfinity.comma_not_mem {cs : List Char} (h : IsInfinity cs) : ',' ∉ cs := by
  intro hc
  have hlower : ',' ∈ cs.map Char.toLower := List.mem_map_of_mem hc
  rcases h with h | h <;>
    · rw [h] at hlower
      revert hlower
      decide

/-- There is no comma in a numeral, be it for decimals or for thousands. -/
theorem IsNumeral.comma_not_mem {cs : List Char} (h : IsNumeral cs) : ',' ∉ cs := by
  rcases h with ⟨sign, body, rfl, hsign, hbody⟩
  rw [List.mem_append, not_or]
  refine ⟨?_, ?_⟩
  · cases hsign <;> decide
  · rcases hbody with hdecimal | hword
    · intro hc
      have hpart := hdecimal.isPart ',' hc
      revert hpart
      decide
    · exact hword.comma_not_mem

/-- A text with a comma is no number. -/
theorem isNaN_numberOfText_of_comma {s : String} (h : ',' ∈ s.toList) :
    (Value.numberOfText s).isNaN = true := by
  have htrim : ',' ∈ (Text.trim s).toList := (Text.mem_trim_iff (by decide)).mpr h
  refine isNaN_numberOfText_iff.mpr ⟨?_, fun hnumeral => hnumeral.comma_not_mem htrim⟩
  intro hblank
  rw [hblank] at htrim
  cases htrim

end Number

namespace Value

/-- The value has items or fields. -/
def isComposite : Value → Bool
  | .list _ => true
  | .record _ => true
  | _ => false

theorem shown_eq_display {v : Value} (hv : v ≠ .null) : v.shown = v.display := by
  cases v with
  | null => exact absurd rfl hv
  | _ => rfl

theorem displayItems_cons (isFirst : Bool) (v : Value) (rest : List Value) :
    displayItems isFirst (v :: rest) =
      (if isFirst then "" else ",") ++ v.shown ++ displayItems false rest := by
  cases v <;> simp [displayItems, isNull, shown]

/-- Items that are not the first ones come with a comma in front of all of them. -/
theorem displayItems_false {items : List Value} (h : items ≠ []) :
    displayItems false items = "," ++ ",".intercalate (items.map shown) := by
  induction items with
  | nil => exact absurd rfl h
  | cons v rest ih =>
      rw [displayItems_cons]
      by_cases hlast : rest = []
      · simp [hlast, displayItems]
      · rw [ih hlast, List.map_cons, String.intercalate_cons_of_ne_nil (by simpa using hlast)]
        simp [String.append_assoc]

theorem display_list (items : List Value) :
    (Value.list items).display = ",".intercalate (items.map shown) := by
  rw [display]
  cases items with
  | nil => rfl
  | cons v rest =>
      rw [displayItems_cons]
      by_cases hlast : rest = []
      · simp [hlast, displayItems]
      · rw [displayItems_false hlast, List.map_cons,
          String.intercalate_cons_of_ne_nil (by simpa using hlast)]
        simp [String.append_assoc]

/-- A list of two or more has a comma in its text, whatever its items are. -/
theorem comma_mem_display (v w : Value) (rest : List Value) :
    ',' ∈ (Value.list (v :: w :: rest)).display.toList := by
  rw [display_list, List.map_cons, List.map_cons, String.intercalate_cons_cons,
    String.toList_append, String.toList_append]
  exact List.mem_append_left _ (List.mem_append_right _ List.mem_cons_self)

theorem numberOfText_display_pair (v w : Value) (rest : List Value) :
    numberOfText (Value.list (v :: w :: rest)).display = 0 / 0 :=
  Number.eq_of_isNaN (Number.isNaN_numberOfText_of_comma (comma_mem_display v w rest)) (by decide)

theorem numberOfText_display_record (fields : List (String × Value)) :
    numberOfText (Value.record fields).display = 0 / 0 := by
  have htext : (numberOfText "[object Object]").isNaN = true := by decide
  rw [display]
  exact Number.eq_of_isNaN htext (by decide)

/-- An item that is alone counts as its list does, unless it is null. -/
theorem numberOfText_display_singleton {v : Value} :
    numberOfText (Value.list [v]).display = numberOfText v.display ↔ v ≠ .null := by
  rw [display_list, List.map_singleton, String.intercalate_singleton]
  -- Alone, an item stands in the list as it is shown, and only null is shown in another way.
  constructor
  · rintro h rfl
    have hnull := congrArg Float.isNaN h
    revert hnull
    decide
  · intro hv
    rw [shown_eq_display hv]

end Value

/-- A list or a record counts as its text does, unless it is a list with nothing but a null. -/
theorem composite_counts_as_text {v : Value} (hv : v.isComposite = true) :
    v.asNumber = (Value.text v.display).asNumber ↔ v ≠ .list [.null] := by
  cases v with
  | record fields =>
      exact iff_of_true (Value.numberOfText_display_record fields).symm (by rintro ⟨⟩)
  | list items =>
      -- The number asks how many items there are, so the text has to be looked at in the same way.
      rcases items with _ | ⟨item, _ | ⟨next, rest⟩⟩
      · exact iff_of_true (by decide) (by rintro ⟨⟩)
      · rw [Value.asNumber, Value.asNumber, eq_comm, Value.numberOfText_display_singleton, ne_eq,
          ne_eq, Value.list.injEq, List.cons.injEq, and_iff_left rfl]
      · exact iff_of_true (Value.numberOfText_display_pair item next rest).symm (by rintro ⟨⟩)
  | null => cases hv
  | bool => cases hv
  | number => cases hv
  | text => cases hv
  | date => cases hv

/-- A null that is nested once more is blank in both ways. -/
theorem composite_counts_as_text_nested :
    (Value.list [.list [.null]]).isComposite = true ∧
      (Value.list [.list [.null]]).asNumber =
        (Value.text (Value.list [.list [.null]]).display).asNumber := by
  refine ⟨rfl, (composite_counts_as_text rfl).mpr fun h => ?_⟩
  cases h

/-- A list with nothing but a null counts as undefined, and its text as zero. -/
theorem blank_item_undefined :
    (Value.list [.null]).isComposite = true ∧ (Value.list [.null]).asNumber.isNaN = true ∧
      (Value.text (Value.list [.null]).display).asNumber = 0 := by
  decide

end Letterpress
