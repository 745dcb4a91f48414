import Letterpress.Proofs.Cuts

/-!
# Padding

What a text looks like once it is filled up to a width. It has that width, or its own if it is wider
already, and the text itself is left whole at one end. What is put in front of it or behind it
begins a repetition of the fill that could go on forever, and is cut off wherever the width says, be
it in the middle of the fill.

So the repetition is said character by character, and not by how often the fill is written down: at
each place is the character of the fill that comes up when its places are counted round and round.
This needs a fill that is not empty, since otherwise nothing comes up. An empty fill is taken for a
blank, and no other fill can run out.

Filling up a second time changes nothing, on whichever side. All that matters is that the text has
the width then, and not how it came to have it.

## Main definitions

* `FillsWith`, `AsksSide`: What the arguments say about the fill and the side.
* `IsRepetition`: The first characters of an endless repetition.
* `IsPadded`: A text filled up to a width.
* `padded`: Fills a text up.

## Theorems

* `getElem?_repeated`, `length_repeated`: A fill does not run out.
* `padSide_eq_ok_iff`: Which names of sides are known.
* `isPadded_padded`: A text is filled up to the width.
* `IsPadded.padded_eq`: Filling up a second time changes nothing.
* `pad_eq_of_width`, `pad_eq`: What padding does to a value.
* `pad_reaches_width`: What padding makes of a value.
-/

namespace Letterpress

namespace TextFilter

/-- The text that is repeated: a blank, unless there is something else to repeat. -/
inductive FillsWith : Option String → String → Prop where
  | unsaid : FillsWith none " "
  | empty : FillsWith (some "") " "
  | given {fill : String} (hfill : fill ≠ "") : FillsWith (some fill) fill

/-- The names of a side. -/
def PadSide.names : PadSide → List String
  | .left => ["", "left", "start"]
  | .right => ["right", "end"]

/-- The side that is filled up. Neither blanks around its name nor the case of letters matters, and
    without a name it is the left side. -/
inductive AsksSide : Option String → PadSide → Prop where
  | unsaid : AsksSide none .left
  | named {name : String} {side : PadSide}
      (hname : Text.asciiLower (Text.trim name) ∈ side.names) : AsksSide (some name) side

/-- The characters are the first ones of the endless repetition of a fill. -/
def IsRepetition (fill cs : List Char) : Prop :=
  ∀ k < cs.length, cs[k]? = fill[k % fill.length]?

/-- The text is filled up to a width on one side, and left whole on the other. -/
structure IsPadded (width : Nat) (fill : String) (side : PadSide) (s t : String) : Prop where
  length_eq : t.length = max width s.length
  exists_padding : ∃ padding : String, IsRepetition fill.toList padding.toList ∧
    t = match side with
      | .left => padding ++ s
      | .right => s ++ padding

/-- The text with as much of the repeated fill as it takes to get to a width. -/
def padded (width : Nat) (fill : String) (side : PadSide) (s : String) : String :=
  if width ≤ s.length then s
  else
    let padding := String.ofList (repeated fill.toList (width - s.length))
    match side with
    | .left => padding ++ s
    | .right => s ++ padding

theorem getElem?_flatten_replicate {fill : List Char} {n k : Nat} (h : k < n * fill.length) :
    (List.replicate n fill).flatten[k]? = fill[k % fill.length]? := by
  induction n generalizing k with
  | zero => omega
  | succ n ih =>
      rw [List.replicate_succ, List.flatten_cons]
      by_cases hfirst : k < fill.length
      · rw [List.getElem?_append_left hfirst, Nat.mod_eq_of_lt hfirst]
      · -- Behind the first copy of the fill the places are counted anew.
        have hle : fill.length ≤ k := Nat.le_of_not_lt hfirst
        have hrest : k - fill.length < n * fill.length := by
          rw [Nat.succ_mul] at h
          omega
        rw [List.getElem?_append_right hle, ih hrest, ← Nat.mod_eq_sub_mod hle]

/-- There are enough copies of the fill. -/
theorem lt_copies {fill : List Char} (hfill : fill ≠ []) (count : Nat) :
    count < (count / fill.length + 1) * fill.length := by
  rw [Nat.mul_comm]
  exact Nat.lt_mul_div_succ count (List.length_pos_of_ne_nil hfill)

theorem length_repeated {fill : List Char} (hfill : fill ≠ []) (count : Nat) :
    (repeated fill count).length = count := by
  have henough := lt_copies hfill count
  rw [repeated, List.length_take, List.length_flatten, List.map_replicate, List.sum_replicate_nat]
  exact Nat.min_eq_left henough.le

theorem getElem?_repeated {fill : List Char} (hfill : fill ≠ []) {count k : Nat} (hk : k < count) :
    (repeated fill count)[k]? = fill[k % fill.length]? := by
  rw [repeated, List.getElem?_take, if_pos hk]
  exact getElem?_flatten_replicate (hk.trans (lt_copies hfill count))

theorem isRepetition_repeated {fill : List Char} (hfill : fill ≠ []) (count : Nat) :
    IsRepetition fill (repeated fill count) := by
  intro k hk
  rw [length_repeated hfill] at hk
  exact getElem?_repeated hfill hk

theorem isPadded_padded {fill : String} (hfill : fill ≠ "") (width : Nat) (side : PadSide)
    (s : String) : IsPadded width fill side s (padded width fill side s) := by
  have hne : fill.toList ≠ [] := fun h => hfill (String.toList_eq_nil_iff.mp h)
  unfold padded
  -- A text that is wide enough has nothing added, which is a repetition of anything.
  split
  · next hwide =>
      refine ⟨(Nat.max_eq_right hwide).symm, "", fun k hk => absurd hk (Nat.not_lt_zero k), ?_⟩
      cases side with
      | left => exact (String.empty_append).symm
      | right => exact (String.append_empty).symm
  · next hnarrow =>
      have hlen : (String.ofList (repeated fill.toList (width - s.length))).length =
          width - s.length := by
        rw [String.length_ofList, length_repeated hne]
      refine ⟨?_, _, ?_, rfl⟩
      · cases side with
        | left =>
            rw [String.length_append, hlen]
            omega
        | right =>
            rw [String.length_append, hlen]
            omega
      · rw [String.toList_ofList]
        exact isRepetition_repeated hne _

theorem IsPadded.width_le {width : Nat} {fill : String} {side : PadSide} {s t : String}
    (h : IsPadded width fill side s t) : width ≤ t.length := by
  rw [h.length_eq]
  exact Nat.le_max_left _ _

/-- A text that has the width is not filled up any more, with whatever and on whichever side. -/
theorem IsPadded.padded_eq {width : Nat} {fill : String} {side : PadSide} {s t : String}
    (h : IsPadded width fill side s t) : padded width fill side t = t :=
  if_pos h.width_le

theorem FillsWith.ne_empty {given : Option String} {fill : String} (h : FillsWith given fill) :
    fill ≠ "" := by
  cases h with
  | unsaid => decide
  | empty => decide
  | given hfill => exact hfill

theorem FillsWith.fill_eq {given : Option String} {fill : String} (h : FillsWith given fill) :
    (if (given.getD "").isEmpty then " " else given.getD "") = fill := by
  cases h with
  | unsaid => rfl
  | empty => rfl
  | given hfill => exact if_neg (mt String.isEmpty_iff.mp hfill)

theorem padSide_some_iff {name : String} {side : PadSide} :
    padSide (some name) = .ok side ↔ Text.asciiLower (Text.trim name) ∈ side.names := by
  unfold padSide
  dsimp only [Option.map_some, Option.getD_some]
  -- No name is that of both sides, so it does not matter which one is asked about first.
  split
  · next hleft => cases side <;> grind [PadSide.names]
  · next hother =>
      split
      · next hright => cases side <;> grind [PadSide.names]
      · next hunknown => cases side <;> grind [PadSide.names]

theorem padSide_eq_ok_iff {given : Option String} {side : PadSide} :
    padSide given = .ok side ↔ AsksSide given side := by
  cases given with
  | none =>
      have hleft : padSide none = .ok .left := by simp [padSide]
      rw [hleft]
      constructor
      · intro h
        rw [← Except.ok.inj h]
        exact .unsaid
      · rintro ⟨⟩
        rfl
  | some name =>
      rw [padSide_some_iff]
      constructor
      · exact .named
      · rintro ⟨⟩
        assumption

/-- A natural number is read back from its decimal text, as long as it is a word. -/
theorem natural?_toString {n : Nat} (hn : n < 2 ^ 64) : Number.natural? (toString n) = some n := by
  have htext : (toString n).toList = Nat.toDigits 10 n := Nat.toList_repr
  have hword : n < Number.twoTo 64 := hn
  have hdigits :
      ((Nat.toDigits 10 n).isEmpty || !(Nat.toDigits 10 n).all Char.isDigit) = false := by
    rw [Bool.or_eq_false_iff, List.isEmpty_eq_false_iff, Bool.not_eq_false', List.all_eq_true]
    exact ⟨Nat.toDigits_ne_nil, fun _ => Number.isDigit_of_mem_toDigits⟩
  unfold Number.natural?
  rw [htext]
  dsimp only
  split
  · next rest hds =>
      -- The first character is a digit, and so it is no sign.
      have hplus : '+' ∈ Nat.toDigits 10 n := hds ▸ List.mem_cons_self
      exact absurd (Number.isDigit_of_mem_toDigits hplus) (by decide)
  · rw [hdigits, if_neg Bool.false_ne_true, Number.digitsValue_toDigits, if_pos hword]

/-- Each word can be asked for by its decimal text. -/
theorem naturalArgument_toString {n : Nat} (hn : n < 2 ^ 64) (what : String) (args : List String) :
    naturalArgument what (toString n :: args) 0 = .ok (some n) := by
  have htext : (toString n).toList = Nat.toDigits 10 n := Nat.toList_repr
  have hne : toString n ≠ "" := by
    intro hempty
    rw [hempty] at htext
    exact Nat.toDigits_ne_nil htext.symm
  have hblank : ∀ c ∈ (toString n).toList, Text.isBlank c = false := by
    intro c hc
    rw [htext] at hc
    exact isBlank_of_isDigit (Number.isDigit_of_mem_toDigits hc)
  rw [naturalArgument, argument?_eq_some rfl hne hblank]
  dsimp only
  rw [natural?_toString hn]

theorem boundedArgument_eq_ok_iff {what : String} {limit index : Nat} {args : List String}
    {n : Option Nat} :
    boundedArgument what limit args index = .ok n ↔
      naturalArgument what args index = .ok n ∧ n.getD 0 ≤ limit := by
  unfold boundedArgument
  cases naturalArgument what args index with
  | error e => exact iff_of_false (by rintro ⟨⟩) (by rintro ⟨⟨⟩, _⟩)
  | ok given =>
      -- An argument that is absent counts as zero, which is never above the limit.
      cases given with
      | none =>
          constructor
          · rintro ⟨⟩
            exact ⟨rfl, Nat.zero_le limit⟩
          · exact And.left
      | some given =>
          change (if given ≤ limit then _ else _) = _ ↔ _
          split
          · next hle =>
              constructor
              · rintro ⟨⟩
                exact ⟨rfl, hle⟩
              · exact And.left
          · next hlarge =>
              refine iff_of_false (by rintro ⟨⟩) ?_
              rintro ⟨⟨⟩, hle⟩
              exact hlarge hle

/-- The width is checked before the value is looked at, and the side afterwards. -/
theorem pad_eq_of_width {args : List String} {width : Option Nat} {fill : String}
    (hwidth : naturalArgument "pad width" args 0 = .ok width) (hlimit : width.getD 0 ≤ padLimit)
    (hfill : FillsWith args[1]? fill) (v : Value) :
    pad v args =
      if width.getD 0 ≤ v.display.length then .ok (.text v.display)
      else (padSide args[2]?).map fun side =>
        .text (padded (width.getD 0) fill side v.display) := by
  unfold pad padded
  rw [boundedArgument_eq_ok_iff.mpr ⟨hwidth, hlimit⟩]
  change (if _ then _ else _) = _
  rw [hfill.fill_eq]
  split
  · rfl
  · cases padSide args[2]? with
    | error e => rfl
    | ok side => cases side <;> rfl

theorem pad_eq {args : List String} {width : Option Nat} {fill : String} {side : PadSide}
    (hwidth : naturalArgument "pad width" args 0 = .ok width) (hlimit : width.getD 0 ≤ padLimit)
    (hfill : FillsWith args[1]? fill) (hside : AsksSide args[2]? side) (v : Value) :
    pad v args = .ok (.text (padded (width.getD 0) fill side v.display)) := by
  rw [pad_eq_of_width hwidth hlimit hfill, padSide_eq_ok_iff.mpr hside]
  split
  · next hwide => rw [padded, if_pos hwide]
  · rfl

end TextFilter

/-- Padding gets every value exactly to a width, or leaves it as wide as it is. The text of the
    value stands whole at one end, what is added is as much of the repeated fill as it takes, and
    padding what comes out changes nothing. All widths up to the limit can be asked for. -/
theorem pad_reaches_width (v : Value) :
    (∀ n ≤ TextFilter.padLimit, ∀ args,
      naturalArgument "pad width" (toString n :: args) 0 = .ok (some n)) ∧
    ∀ args width fill side, naturalArgument "pad width" args 0 = .ok width →
      width.getD 0 ≤ TextFilter.padLimit → TextFilter.FillsWith args[1]? fill →
      TextFilter.AsksSide args[2]? side →
      ∃ t, TextFilter.pad v args = .ok (.text t) ∧
        TextFilter.IsPadded (width.getD 0) fill side v.display t ∧
        TextFilter.pad (.text t) args = .ok (.text t) := by
  refine ⟨fun n hn args => ?_, fun args width fill side hwidth hlimit hfill hside => ?_⟩
  · have hword : TextFilter.padLimit < 2 ^ 64 := by decide
    exact TextFilter.naturalArgument_toString (hn.trans_lt hword) _ args
  · have hpad := TextFilter.pad_eq hwidth hlimit hfill hside
    have hpadded := TextFilter.isPadded_padded hfill.ne_empty (width.getD 0) side v.display
    refine ⟨_, hpad v, hpadded, ?_⟩
    rw [hpad, Value.display, hpadded.padded_eq]

/-- A fill of two characters that is cut off in the middle. -/
theorem pad_reaches_width_cutFill :
    (5 ≤ TextFilter.padLimit ∧
      naturalArgument "pad width" [toString 5, "-=", " Right"] 0 = .ok (some 5)) ∧
    (naturalArgument "pad width" ["5", "-=", " Right"] 0 = .ok (some 5) ∧
      TextFilter.FillsWith (some "-=") "-=" ∧ TextFilter.AsksSide (some " Right") .right) ∧
    ∃ t, TextFilter.pad (.text "ab") ["5", "-=", " Right"] = .ok (.text t) ∧
      TextFilter.IsPadded 5 "-=" .right "ab" t ∧
      TextFilter.pad (.text t) ["5", "-=", " Right"] = .ok (.text t) := by
  have hlimit : 5 ≤ TextFilter.padLimit := by decide
  have hwidth : naturalArgument "pad width" ["5", "-=", " Right"] 0 = .ok (some 5) := rfl
  have hfill : TextFilter.FillsWith (some "-=") "-=" := .given (by decide)
  have hside : TextFilter.AsksSide (some " Right") .right := .named (by decide)
  have hpads := pad_reaches_width (.text "ab")
  exact ⟨⟨hlimit, hpads.1 5 hlimit _⟩, ⟨hwidth, hfill, hside⟩,
    hpads.2 _ _ _ _ hwidth hlimit hfill hside⟩

end Letterpress
