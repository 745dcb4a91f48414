import Letterpress.Filter.Text
import Letterpress.Proofs.Rounding
import Mathlib

/-!
# Cuts

The part of a sequence between two positions. A position may be counted from either end, and may lie
beyond both, so the rule is said once for all of them: what is negative is counted from the end, and
then everything is moved into the sequence. Where a part begins and ends is then known, and which
items it has, one by one, without regard to how it is taken out.

Two cuts at one place give the whole. It is the same position that the one part ends at and the
other begins at, wherever it was moved to, so nothing has to be known about the cut.

Positions are integers here and do not end anywhere, while a machine works them out in words of 64
bits, and goes from words with a sign to words without one and back. So the same steps are written
down in words once more, with a sum that is refused if it does not fit. No sum is ever refused: a
length that is a word with a sign is not negative, a position is added to it only if it is negative,
and the sum of two words of opposite signs always fits. Nothing is lost in the conversions either,
as a sum is not negative when it becomes a length.

The bounds come from texts. Each word can be asked for by its decimal text.

## Main definitions

* `spot`: Where a position points in a sequence.
* `IsPart`, `IsSlice`: A part of a sequence, and of a value.
* `MakeUp`: Two parts are the value that they were taken from.
* `Asks`, `written`: Arguments that ask for a part.
* `addWords?`, `clampWord?`, `wordBounds?`: Bounds in words of 64 bits.

## Theorems

* `isPart_cut`: A cut has the items that it should have.
* `cut_append_cut`: Two cuts at one place give the whole.
* `exists_wordBounds`: The bounds can be worked out in words.
* `integerArgument_toString`: An integer is read back from its text.
* `slice_between`: What a slice is, and that it can always be taken.
-/

namespace Letterpress

namespace TextFilter

/-- Where a position points in a sequence: a negative one is counted from the end, and one that
    lies beyond an end points to that end. -/
def spot (length : Nat) (i : Int) : Nat :=
  (max 0 (min (length : Int) (if i < 0 then length + i else i))).toNat

/-- The items of a sequence from one position up to another, or up to the end. There are none if
    the second comes before the first. -/
def IsPart {α : Type} (start : Int) (stop : Option Int) (items part : List α) : Prop :=
  ∀ k, part[k]? =
    if spot items.length start + k <
        max (spot items.length start) ((stop.map (spot items.length)).getD items.length) then
      items[spot items.length start + k]?
    else none

/-- A part of a value: of its items if it is a list, and of the characters of its text otherwise. -/
inductive IsSlice (start : Int) (stop : Option Int) : Value → Value → Prop where
  | items {items part : List Value} (hpart : IsPart start stop items part) :
      IsSlice start stop (.list items) (.list part)
  | characters {v : Value} {part : List Char} (hv : ∀ items, v ≠ .list items)
      (hpart : IsPart start stop v.display.toList part) :
      IsSlice start stop v (.text (String.ofList part))

/-- Two parts are the whole value when they are put one behind the other. -/
inductive MakeUp : Value → Value → Value → Prop where
  | items {front back : List Value} : MakeUp (.list (front ++ back)) (.list front) (.list back)
  | characters {v : Value} {front back : String} (hv : ∀ items, v ≠ .list items)
      (hdisplay : v.display = front ++ back) : MakeUp v (.text front) (.text back)

/-- The arguments ask for the part between two positions. Each of them may be left out. -/
structure Asks (args : List String) (start stop : Option Int) : Prop where
  start : integerArgument "slice start" args 0 = .ok start
  stop : integerArgument "slice end" args 1 = .ok stop

/-- The arguments that ask for the part between two words. -/
def written (start : Int64) (stop : Option Int64) : List String :=
  toString start.toInt :: (stop.map fun i => toString i.toInt).toList

/-- The sum of two words with a sign, if it is one again. -/
def addWords? (a b : Int64) : Option Int64 :=
  if a.toBitVec.saddOverflow b.toBitVec then none else some (a + b)

/-- Moves a position into a sequence in words. -/
def clampWord? (length : UInt64) (i : Int64) : Option UInt64 :=
  if i < 0 then (addWords? length.toInt64 i).map fun sum => (max sum 0).toUInt64
  else some (min i.toUInt64 length)

/-- The bounds of a cut in words. -/
def wordBounds? (length : UInt64) (start : Int64) (stop : Option Int64) :
    Option (UInt64 × UInt64) := do
  let first ← clampWord? length start
  let last ← (stop.map (clampWord? length)).getD (some length)
  return (first, max first last)

theorem clampIndex_eq_spot (length : Nat) (i : Int) : clampIndex length i = spot length i := by
  unfold clampIndex spot
  split <;> omega

theorem spot_le (length : Nat) (i : Int) : spot length i ≤ length := by
  unfold spot
  omega

theorem cutBounds_eq (length : Nat) (start : Int) (stop : Option Int) :
    cutBounds length start stop =
      (spot length start, max (spot length start) ((stop.map (spot length)).getD length)) := by
  have hclamp : clampIndex length = spot length := funext (clampIndex_eq_spot length)
  rw [cutBounds, hclamp]

/-- The bounds never leave the sequence, and the second is not in front of the first. -/
theorem cutBounds_ordered (length : Nat) (start : Int) (stop : Option Int) :
    (cutBounds length start stop).1 ≤ (cutBounds length start stop).2 ∧
      (cutBounds length start stop).2 ≤ length := by
  rw [cutBounds_eq]
  refine ⟨Nat.le_max_left _ _, Nat.max_le.mpr ⟨spot_le length start, ?_⟩⟩
  cases stop with
  | none => exact Nat.le_refl length
  | some i => exact spot_le length i

theorem isPart_cut {α : Type} (start : Int) (stop : Option Int) (items : List α) :
    IsPart start stop items (cut start stop items) := by
  intro k
  rw [cut, cutBounds_eq]
  dsimp only
  rw [List.getElem?_drop, List.getElem?_take]

theorem cut_append_cut {α : Type} (k : Int) (items : List α) :
    cut 0 (some k) items ++ cut k none items = items := by
  have hzero : spot items.length 0 = 0 := by
    unfold spot
    omega
  have hle := spot_le items.length k
  unfold cut
  rw [cutBounds_eq, cutBounds_eq]
  dsimp only [Option.map_some, Option.map_none, Option.getD_some, Option.getD_none]
  rw [hzero, Nat.zero_max, List.drop_zero, Nat.max_eq_right hle, List.take_length,
    List.take_append_drop]

theorem toInt_toInt64 {length : UInt64} (h : length.toNat < 2 ^ 63) :
    length.toInt64.toInt = length.toNat := by
  change length.toBitVec.toInt = _
  rw [BitVec.toInt_eq_toNat_of_lt (by change 2 * length.toNat < 2 ^ 64; omega)]
  rfl

theorem toNat_min (a b : UInt64) : (min a b).toNat = min a.toNat b.toNat := by
  change (if a ≤ b then a else b).toNat = _
  split
  · next h => exact (Nat.min_eq_left (UInt64.le_iff_toNat_le.mp h)).symm
  · next h => exact (Nat.min_eq_right (Nat.le_of_not_le (mt UInt64.le_iff_toNat_le.mpr h))).symm

theorem toNat_max (a b : UInt64) : (max a b).toNat = max a.toNat b.toNat := by
  change (if a ≤ b then b else a).toNat = _
  split
  · next h => exact (Nat.max_eq_right (UInt64.le_iff_toNat_le.mp h)).symm
  · next h => exact (Nat.max_eq_left (Nat.le_of_not_le (mt UInt64.le_iff_toNat_le.mpr h))).symm

theorem toNat_max_zero (a : Int64) : (max a 0).toUInt64.toNat = a.toInt.toNat := by
  have hzero : (0 : Int64).toInt = 0 := rfl
  change (if a ≤ 0 then 0 else a).toUInt64.toNat = _
  split
  · next h =>
      rw [Int64.le_iff_toInt_le, hzero] at h
      exact (Int.toNat_of_nonpos h).symm
  · next h =>
      have hpos : 0 ≤ a := by
        rw [Int64.le_iff_toInt_le, hzero] at h ⊢
        omega
      exact Int64.toNat_toUInt64_of_le hpos

theorem exists_addWords {a b : Int64} (hlow : -2 ^ 63 ≤ a.toInt + b.toInt)
    (hhigh : a.toInt + b.toInt < 2 ^ 63) :
    ∃ sum, addWords? a b = some sum ∧ sum.toInt = a.toInt + b.toInt := by
  have hfits : ¬ a.toBitVec.saddOverflow b.toBitVec = true := by
    rw [BitVec.saddOverflow, Bool.or_eq_true, decide_eq_true_eq, decide_eq_true_eq]
    change ¬ (a.toInt + b.toInt ≥ 2 ^ 63 ∨ a.toInt + b.toInt < -2 ^ 63)
    omega
  exact ⟨a + b, if_neg hfits, BitVec.toInt_add_of_not_saddOverflow hfits⟩

theorem exists_clampWord {length : UInt64} (h : length.toNat < 2 ^ 63) (i : Int64) :
    ∃ w, clampWord? length i = some w ∧ w.toNat = clampIndex length.toNat i.toInt := by
  have hlow := i.le_toInt
  have hlen := toInt_toInt64 h
  have hneg : i < 0 ↔ i.toInt < 0 := Int64.lt_iff_toInt_lt
  unfold clampWord? clampIndex
  by_cases hi : i.toInt < 0
  · -- The length is not negative and the position is, so their sum fits.
    rw [if_pos (hneg.mpr hi), if_pos hi]
    obtain ⟨sum, hsum, hvalue⟩ := @exists_addWords length.toInt64 i (by omega) (by omega)
    refine ⟨(max sum 0).toUInt64, by rw [hsum]; rfl, ?_⟩
    rw [toNat_max_zero, hvalue, hlen]
  · rw [if_neg (mt hneg.mp hi), if_neg hi]
    have hle : (0 : Int64) ≤ i := Int64.le_iff_toInt_le.mpr (Int.not_lt.mp hi)
    refine ⟨min i.toUInt64 length, rfl, ?_⟩
    rw [toNat_min, Int64.toNat_toUInt64_of_le hle]
    rfl

theorem exists_wordBounds {length : UInt64} (h : length.toNat < 2 ^ 63) (start : Int64)
    (stop : Option Int64) :
    ∃ first last, wordBounds? length start stop = some (first, last) ∧
      cutBounds length.toNat start.toInt (stop.map Int64.toInt) = (first.toNat, last.toNat) := by
  rcases exists_clampWord h start with ⟨first, hfirst, hstart⟩
  obtain ⟨last, hlast, hstop⟩ : ∃ last,
      (stop.map (clampWord? length)).getD (some length) = some last ∧
      last.toNat = ((stop.map Int64.toInt).map (clampIndex length.toNat)).getD length.toNat := by
    cases stop with
    | none => exact ⟨length, rfl, rfl⟩
    | some i => exact exists_clampWord h i
  refine ⟨first, max first last, ?_, ?_⟩
  · rw [wordBounds?, hfirst, hlast]
    rfl
  · rw [cutBounds, toNat_max, hstart, hstop]

theorem isBlank_of_isDigit {c : Char} (h : c.isDigit = true) : Text.isBlank c = false := by
  have hrange : 48 ≤ c.toNat ∧ c.toNat ≤ 57 := by
    simp only [Char.isDigit, Bool.and_eq_true, decide_eq_true_eq] at h
    exact h
  simp only [Text.isBlank, Bool.or_eq_false_iff, Bool.and_eq_false_iff, decide_eq_false_iff_not,
    beq_eq_false_iff_ne]
  omega

/-- Nothing is trimmed from a text without blanks. -/
theorem trim_eq_self {s : String} (h : ∀ c ∈ s.toList, Text.isBlank c = false) :
    Text.trim s = s := by
  have hnone : ∀ cs : List Char, (∀ c ∈ cs, Text.isBlank c = false) →
      cs.dropWhile Text.isBlank = cs := by
    intro cs hcs
    cases cs with
    | nil => rfl
    | cons c cs => exact List.dropWhile_cons_of_neg (by simp [hcs c List.mem_cons_self])
  rw [Text.trim, Text.trimLeft, hnone _ h, Text.trimRight,
    hnone _ fun c hc => h c (List.mem_reverse.mp hc), List.reverse_reverse, String.ofList_toList]

theorem argument?_eq_some {args : List String} {index : Nat} {s : String}
    (hget : args[index]? = some s) (hne : s ≠ "") (hs : ∀ c ∈ s.toList, Text.isBlank c = false) :
    argument? args index = some s := by
  have hempty : ¬ s.isEmpty = true := by rwa [String.isEmpty_iff]
  rw [argument?, hget]
  dsimp only
  rw [trim_eq_self hs, if_neg hempty]

/-- The decimal text of an integer: its digits, with a sign if it is negative. -/
theorem toList_toString (i : Int) :
    (toString i).toList = (if i < 0 then ['-'] else []) ++ Nat.toDigits 10 i.natAbs := by
  rw [Int.toString_eq_repr, Int.repr_eq_if]
  split
  · next hi =>
      rw [if_neg (Int.not_lt.mpr hi), Nat.toList_repr, List.nil_append]
      congr 1
      omega
  · next hi =>
      rw [if_pos (Int.not_le.mp hi), String.toList_append, Nat.toList_repr]
      congr 2
      omega

theorem splitSign_toString (i : Int) :
    Number.splitSign (toString i).toList = (decide (i < 0), Nat.toDigits 10 i.natAbs) := by
  rw [toList_toString]
  by_cases hi : i < 0
  · rw [if_pos hi, decide_eq_true hi]
    rfl
  · rw [if_neg hi, decide_eq_false hi, List.nil_append]
    -- The first character is a digit, and so it is no sign.
    have hfirst : ∀ c rest, Nat.toDigits 10 i.natAbs = c :: rest → c.isDigit = true := by
      intro c rest hds
      refine Number.isDigit_of_mem_toDigits (n := i.natAbs) ?_
      rw [hds]
      exact List.mem_cons_self
    unfold Number.splitSign
    split
    · next rest hds => exact absurd (hfirst '-' rest hds) (by decide)
    · next rest hds => exact absurd (hfirst '+' rest hds) (by decide)
    · rfl

theorem integer?_toString {i : Int} (hlow : -2 ^ 63 ≤ i) (hhigh : i < 2 ^ 63) :
    Number.integer? 64 (toString i) = some i := by
  have htwo : (Number.twoTo (64 - 1) : Int) = 2 ^ 63 := rfl
  have hdigits : ((Nat.toDigits 10 i.natAbs).isEmpty ||
      !(Nat.toDigits 10 i.natAbs).all Char.isDigit) = false := by
    rw [Bool.or_eq_false_iff, List.isEmpty_eq_false_iff, Bool.not_eq_false', List.all_eq_true]
    exact ⟨Nat.toDigits_ne_nil, fun _ => Number.isDigit_of_mem_toDigits⟩
  have hvalue : (if decide (i < 0) = true then -(i.natAbs : Int) else i.natAbs) = i := by
    split
    · next hneg =>
        have hi := of_decide_eq_true hneg
        omega
    · next hpos =>
        have hi := of_decide_eq_false (Bool.eq_false_iff.mpr hpos)
        omega
  unfold Number.integer?
  rw [splitSign_toString]
  dsimp only
  rw [Number.digitsValue_toDigits, hvalue, hdigits, if_neg Bool.false_ne_true, htwo, if_pos]
  rw [Bool.and_eq_true, decide_eq_true_eq, decide_eq_true_eq]
  exact ⟨hlow, hhigh⟩

theorem integerArgument_toString {args : List String} {index : Nat} {i : Int} (what : String)
    (hget : args[index]? = some (toString i)) (hlow : -2 ^ 63 ≤ i) (hhigh : i < 2 ^ 63) :
    integerArgument what args index = .ok (some i) := by
  have hblank : ∀ c ∈ (toString i).toList, Text.isBlank c = false := by
    intro c hc
    rw [toList_toString, List.mem_append] at hc
    rcases hc with hc | hc
    · split at hc
      · rw [List.mem_singleton.mp hc]
        decide
      · cases hc
    · exact isBlank_of_isDigit (Number.isDigit_of_mem_toDigits hc)
  have hne : toString i ≠ "" := by
    intro hempty
    have hchars := toList_toString i
    rw [hempty] at hchars
    exact Nat.toDigits_ne_nil (List.append_eq_nil_iff.mp hchars.symm).2
  rw [integerArgument, argument?_eq_some hget hne hblank]
  dsimp only
  rw [integer?_toString hlow hhigh]

theorem asks_written (start : Int64) (stop : Option Int64) :
    Asks (written start stop) (some start.toInt) (stop.map Int64.toInt) := by
  refine ⟨integerArgument_toString _ rfl start.le_toInt start.toInt_lt, ?_⟩
  cases stop with
  | none => rfl
  | some i => exact integerArgument_toString _ rfl i.le_toInt i.toInt_lt

theorem slice_list {args : List String} {start stop : Option Int} (h : Asks args start stop)
    (items : List Value) :
    slice (.list items) args = .ok (.list (cut (start.getD 0) stop items)) := by
  rw [slice, h.start, h.stop]
  rfl

theorem slice_text {args : List String} {start stop : Option Int} (h : Asks args start stop)
    {v : Value} (hv : ∀ items, v ≠ .list items) :
    slice v args =
      .ok (.text (String.ofList (cut (start.getD 0) stop v.display.toList))) := by
  rw [slice, h.start, h.stop]
  cases v with
  | list items => exact absurd rfl (hv items)
  | _ => rfl

/-- A value is cut as a list, or as the text that it is shown as. -/
theorem exists_items_or (v : Value) :
    (∃ items, v = .list items) ∨ ∀ items, v ≠ .list items := by
  cases v with
  | list items => exact .inl ⟨items, rfl⟩
  | _ => exact .inr fun items h => by cases h

theorem exists_slice {args : List String} {start stop : Option Int} (h : Asks args start stop)
    (v : Value) : ∃ w, slice v args = .ok w ∧ IsSlice (start.getD 0) stop v w := by
  rcases exists_items_or v with ⟨items, rfl⟩ | hv
  · exact ⟨_, slice_list h items, .items (isPart_cut _ _ _)⟩
  · exact ⟨_, slice_text h hv, .characters hv (isPart_cut _ _ _)⟩

theorem exists_makeUp {args args' : List String} {k : Int} (h : Asks args (some 0) (some k))
    (h' : Asks args' (some k) none) (v : Value) :
    ∃ front back, slice v args = .ok front ∧ slice v args' = .ok back ∧ MakeUp v front back := by
  rcases exists_items_or v with ⟨items, rfl⟩ | hv
  · refine ⟨_, _, slice_list h items, slice_list h' items, ?_⟩
    have hjoin := cut_append_cut k items
    conv => arg 1; rw [← hjoin]
    exact .items
  · refine ⟨_, _, slice_text h hv, slice_text h' hv, .characters hv ?_⟩
    dsimp only [Option.getD_some]
    rw [← String.ofList_append, cut_append_cut, String.ofList_toList]

end TextFilter

/-- A slice has the items or the characters between two positions, wherever these lie, and two
    slices at one position are the whole. All words can be asked for, and as long as the length is
    a word with a sign, the bounds can be worked out in words and lie within it. -/
theorem slice_between (v : Value) :
    (∀ args start stop, TextFilter.Asks args start stop →
      ∃ w, TextFilter.slice v args = .ok w ∧ TextFilter.IsSlice (start.getD 0) stop v w) ∧
    (∀ args args' k, TextFilter.Asks args (some 0) (some k) → TextFilter.Asks args' (some k) none →
      ∃ front back, TextFilter.slice v args = .ok front ∧ TextFilter.slice v args' = .ok back ∧
        TextFilter.MakeUp v front back) ∧
    (∀ start stop, TextFilter.Asks (TextFilter.written start stop) (some start.toInt)
      (stop.map Int64.toInt)) ∧
    ∀ (length : UInt64) (start : Int64) (stop : Option Int64), length.toNat < 2 ^ 63 →
      ∃ first last, TextFilter.wordBounds? length start stop = some (first, last) ∧
        TextFilter.cutBounds length.toNat start.toInt (stop.map Int64.toInt) =
          (first.toNat, last.toNat) ∧
        first ≤ last ∧ last ≤ length := by
  refine ⟨fun args start stop h => TextFilter.exists_slice h v,
    fun args args' k h h' => TextFilter.exists_makeUp h h' v, TextFilter.asks_written, ?_⟩
  intro length start stop hlength
  rcases TextFilter.exists_wordBounds hlength start stop with ⟨first, last, hwords, hbounds⟩
  have hordered := TextFilter.cutBounds_ordered length.toNat start.toInt (stop.map Int64.toInt)
  rw [hbounds] at hordered
  exact ⟨first, last, hwords, hbounds, UInt64.le_iff_toNat_le.mpr hordered.1,
    UInt64.le_iff_toNat_le.mpr hordered.2⟩

/-- A slice between two positions from the end, a cut in front of all characters, and the bounds
    that the least word asks for in eight characters. -/
theorem slice_between_template :
    (TextFilter.Asks ["2", "-3"] (some 2) (some (-3)) ∧
      ∃ w, TextFilter.slice (.text "template") ["2", "-3"] = .ok w ∧
        TextFilter.IsSlice 2 (some (-3)) (.text "template") w) ∧
    ((TextFilter.Asks ["0", "-20"] (some 0) (some (-20)) ∧
        TextFilter.Asks ["-20"] (some (-20)) none) ∧
      ∃ front back, TextFilter.slice (.text "template") ["0", "-20"] = .ok front ∧
        TextFilter.slice (.text "template") ["-20"] = .ok back ∧
        TextFilter.MakeUp (.text "template") front back) ∧
    ((8 : UInt64).toNat < 2 ^ 63 ∧
      ∃ first last, TextFilter.wordBounds? 8 Int64.minValue none = some (first, last) ∧
        TextFilter.cutBounds 8 Int64.minValue.toInt none = (first.toNat, last.toNat) ∧
        first ≤ last ∧ last ≤ 8) := by
  have hasks : TextFilter.Asks ["2", "-3"] (some 2) (some (-3)) := ⟨rfl, rfl⟩
  have hfront : TextFilter.Asks ["0", "-20"] (some 0) (some (-20)) := ⟨rfl, rfl⟩
  have hback : TextFilter.Asks ["-20"] (some (-20)) none := ⟨rfl, rfl⟩
  have hlength : (8 : UInt64).toNat < 2 ^ 63 := by decide
  have hslices := slice_between (.text "template")
  exact ⟨⟨hasks, hslices.1 _ _ _ hasks⟩, ⟨⟨hfront, hback⟩, hslices.2.1 _ _ _ hfront hback⟩,
    hlength, hslices.2.2.2 8 Int64.minValue none hlength⟩

end Letterpress
