import Letterpress.Proofs.Cuts

/-!
# Texts of a Limited Width

What is left of a text that may only be so wide. If it is too long, it is cut off at the limit, and
a mark is put behind it to show that there was more. The mark does not count, so that what comes out
may be wider than the limit, and is then too long itself.

Cutting it once more still changes nothing. What stands in front of the mark is exactly as wide as
the limit, so it is this that is left, and the same mark is put behind it again. It does not matter
how long the mark is, nor whether there is one. A text that is not too long is never changed to
begin with.

The cut is made apart from that of a slice, on a limit that is a word without a sign, but it leaves
the same characters, as long as a slice can ask for the limit at all.

## Main definitions

* `IsShortened`: What is left of a text at a limit.
* `shortened`: A text cut off at a limit, with a mark.

## Theorems

* `isShortened_shortened`: A text is cut off only if it is too long, and then at the limit.
* `IsShortened.shortened_eq`: Cutting a second time changes nothing.
* `truncate_eq`: What truncation does to a value.
* `slice_front`: The characters in front of a limit are a slice.
* `truncate_bounds`: What truncation leaves of a value.
-/

namespace Letterpress

namespace TextFilter

/-- What is left of a text at a limit: all of it if it is not too long, and otherwise as many
    characters as the limit says, with the mark behind them. -/
inductive IsShortened (limit : Nat) (mark : String) : String → String → Prop where
  | whole {s : String} (hshort : s.length ≤ limit) : IsShortened limit mark s s
  | cut {front back : String} (hfront : front.length = limit) (hback : back ≠ "") :
      IsShortened limit mark (front ++ back) (front ++ mark)

/-- The text without what is beyond the limit. -/
def shortened (limit : Nat) (mark s : String) : String :=
  if s.length ≤ limit then s else String.ofList (s.toList.take limit) ++ mark

theorem isShortened_shortened (limit : Nat) (mark s : String) :
    IsShortened limit mark s (shortened limit mark s) := by
  unfold shortened
  split
  · next hshort => exact .whole hshort
  · next hlong =>
      rw [← String.length_toList] at hlong
      have hsplit :
          String.ofList (s.toList.take limit) ++ String.ofList (s.toList.drop limit) = s := by
        rw [← String.ofList_append, List.take_append_drop, String.ofList_toList]
      have hfront : (String.ofList (s.toList.take limit)).length = limit := by
        rw [String.length_ofList, List.length_take]
        omega
      have hback : String.ofList (s.toList.drop limit) ≠ "" := by
        intro hnone
        have hlen := congrArg String.length hnone
        rw [String.length_ofList, List.length_drop, String.length_empty] at hlen
        omega
      conv => arg 3; rw [← hsplit]
      exact .cut hfront hback

/-- What is left is left as it is by a second cut, however long the mark behind it is. -/
theorem IsShortened.shortened_eq {limit : Nat} {mark s t : String}
    (h : IsShortened limit mark s t) : shortened limit mark t = t := by
  cases h with
  | whole hshort => exact if_pos hshort
  | @cut front back hfront hback =>
      unfold shortened
      split
      · rfl
      · -- In front of the mark there are as many characters as are taken.
        rw [String.toList_append, ← hfront, ← String.length_toList, List.take_left,
          String.ofList_toList]

theorem IsShortened.length_le {limit : Nat} {mark s t : String} (h : IsShortened limit mark s t) :
    t.length ≤ limit + mark.length := by
  cases h with
  | whole hshort => exact Nat.le_add_right_of_le hshort
  | cut hfront hback => rw [String.length_append, hfront]

theorem truncate_eq {args : List String} {length : Option Nat}
    (h : naturalArgument "truncate length" args 0 = .ok length) (v : Value) :
    truncate v args =
      .ok (.text (shortened (length.getD 160) ((args[1]?).getD "…") v.display)) := by
  unfold truncate shortened
  rw [h]
  change (if _ then _ else _) = _
  split <;> rfl

/-- The characters in front of a limit are a slice. -/
theorem slice_front {s : String} {limit : Nat} (hfits : limit < 2 ^ 63) (hlong : limit ≤ s.length) :
    slice (.text s) ["0", toString limit] = .ok (.text (String.ofList (s.toList.take limit))) := by
  have hasks : Asks ["0", toString limit] (some 0) (some limit) :=
    ⟨rfl, integerArgument_toString _ rfl (by omega) (by omega)⟩
  have hlimit : spot s.toList.length limit = limit := by
    rw [String.length_toList]
    unfold spot
    omega
  have hzero : spot s.toList.length 0 = 0 := by
    unfold spot
    omega
  rw [slice_text hasks (by rintro items ⟨⟩), Value.display, cut, cutBounds_eq]
  dsimp only [Option.getD_some, Option.map_some]
  rw [hzero, hlimit, Nat.zero_max, List.drop_zero]

end TextFilter

/-- Truncation leaves a text that is not too long as it is, and otherwise the slice in front of the
    limit with the mark behind it. Truncating what is left changes nothing. -/
theorem truncate_bounds (v : Value) {args : List String} {length : Option Nat}
    (h : naturalArgument "truncate length" args 0 = .ok length) :
    ∃ s, TextFilter.truncate v args = .ok (.text s) ∧
      TextFilter.IsShortened (length.getD 160) ((args[1]?).getD "…") v.display s ∧
      s.length ≤ length.getD 160 + ((args[1]?).getD "…").length ∧
      (length.getD 160 < v.display.length → length.getD 160 < 2 ^ 63 →
        ∃ front, TextFilter.slice (.text v.display) ["0", toString (length.getD 160)] =
          .ok (.text front) ∧ s = front ++ (args[1]?).getD "…") ∧
      TextFilter.truncate (.text s) args = .ok (.text s) := by
  have hleft := TextFilter.isShortened_shortened (length.getD 160) ((args[1]?).getD "…") v.display
  refine ⟨_, TextFilter.truncate_eq h v, hleft, hleft.length_le, fun hlong hfits => ?_, ?_⟩
  · exact ⟨_, TextFilter.slice_front hfits hlong.le, if_neg (Nat.not_le.mpr hlong)⟩
  · rw [TextFilter.truncate_eq h, Value.display, hleft.shortened_eq]

/-- A mark that is wider than the limit. -/
theorem truncate_bounds_wideMark :
    naturalArgument "truncate length" ["3", "[more]"] 0 = .ok (some 3) ∧
      ∃ s, TextFilter.truncate (.text "abcdefgh") ["3", "[more]"] = .ok (.text s) ∧
        TextFilter.IsShortened 3 "[more]" "abcdefgh" s ∧ s.length ≤ 3 + 6 ∧
        (3 < ("abcdefgh").length → 3 < 2 ^ 63 →
          ∃ front, TextFilter.slice (.text "abcdefgh") ["0", "3"] = .ok (.text front) ∧
            s = front ++ "[more]") ∧
        TextFilter.truncate (.text s) ["3", "[more]"] = .ok (.text s) := by
  have hlength : naturalArgument "truncate length" ["3", "[more]"] 0 = .ok (some 3) := rfl
  exact ⟨hlength, truncate_bounds (.text "abcdefgh") hlength⟩

end Letterpress
