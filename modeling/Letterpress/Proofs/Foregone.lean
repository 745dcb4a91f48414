import Letterpress.Proofs.Padding

/-!
# Outcomes Known Beforehand

Whether a filter can be trusted with the arguments that a template gives it. It can if they are
looked at before the value is: what is wrong with them then shows on the first value, and a template
that was filled in once is not refused later because of something that was wrong all the time.

The check has to come in front of every way out that depends on the value, so it pays to see a
filter as a check and what follows it. The outcome is foregone if the check fails, whatever would
have followed, and otherwise if it is foregone in what follows. Filters check one argument after the
other, so this settles one argument at a time.

Padding has a way out that comes too early. A value that is wide enough is left as it is before the
side is looked at, so that a side with an unknown name is refused with narrow values only. This is
the only way in which an outcome is open: if the width is refused, or is zero, or if the name of the
side is known, then nothing depends on the value.

## Main definitions

* `IsForegone`: Whether a filter fails does not depend on the value.
* `AsksUnknownSide`: Arguments to padding with an unknown name of a side.

## Theorems

* `isForegone_bind`: A check in front of what follows.
* `AsksUnknownSide.exists_pad_iff`: Which values an unknown side is refused with.
* `isForegone_pad_iff`: When the outcome of padding is foregone.
* `foregone_unless_side_unknown`: When the outcome of a filter on texts is foregone.
-/

namespace Letterpress

namespace TextFilter

/-- Either all values can be filtered or none. -/
def IsForegone (run : Value → FilterResult) : Prop :=
  (∀ v, ∃ w, run v = .ok w) ∨ ∀ v, ∃ e, run v = .error e

/-- The arguments ask for a width that is given and not too large, and for a side that has no such
    name. -/
structure AsksUnknownSide (args : List String) (n : Nat) : Prop where
  width : naturalArgument "pad width" args 0 = .ok (some n)
  width_le : n ≤ padLimit
  unknown : ∀ side, ¬ AsksSide args[2]? side

/-- A check in front leaves the outcome as it is, or makes it a failure for all values. -/
theorem isForegone_bind {α : Type} {check : Except FilterError α}
    {run : α → Value → FilterResult} (h : ∀ a, check = .ok a → IsForegone (run a)) :
    IsForegone fun v => check >>= fun a => run a v := by
  cases check with
  | error e => exact .inr fun v => ⟨e, rfl⟩
  | ok a => exact h a rfl

/-- A failure and a success leave the outcome open. -/
theorem not_isForegone {run : Value → FilterResult} (v v' : Value) (h : ∃ w, run v = .ok w)
    (h' : ∃ e, run v' = .error e) : ¬ IsForegone run := by
  rintro (hall | hnone)
  · rcases hall v' with ⟨w, hw⟩
    rcases h' with ⟨e, he⟩
    cases hw.symm.trans he
  · rcases hnone v with ⟨e, he⟩
    rcases h with ⟨w, hw⟩
    cases hw.symm.trans he

theorem isForegone_slice (args : List String) : IsForegone fun v => slice v args := by
  refine isForegone_bind fun start _ => isForegone_bind fun stop _ => Or.inl fun v => ?_
  cases v <;> exact ⟨_, rfl⟩

theorem isForegone_truncate (args : List String) : IsForegone fun v => truncate v args := by
  refine isForegone_bind fun length _ => Or.inl fun v => ?_
  dsimp only
  split <;> exact ⟨_, rfl⟩

theorem isForegone_replace (args : List String) : IsForegone fun v => replace v args := by
  unfold replace
  split
  · exact .inl fun v => ⟨_, rfl⟩
  · exact .inr fun v => ⟨_, rfl⟩

/-- Whatever is given as a fill, there is something to repeat. -/
theorem exists_fillsWith (given : Option String) : ∃ fill, FillsWith given fill := by
  cases given with
  | none => exact ⟨_, .unsaid⟩
  | some fill =>
      by_cases hfill : fill = ""
      · exact ⟨" ", hfill ▸ FillsWith.empty⟩
      · exact ⟨_, .given hfill⟩

/-- A side with an unknown name is refused with the values that are not wide enough. -/
theorem AsksUnknownSide.exists_pad_iff {args : List String} {n : Nat}
    (h : AsksUnknownSide args n) (v : Value) :
    (∃ w, pad v args = .ok w) ↔ n ≤ v.display.length := by
  rcases exists_fillsWith args[1]? with ⟨fill, hfill⟩
  rw [pad_eq_of_width h.width h.width_le hfill, Option.getD_some]
  split
  · next hwide => exact iff_of_true ⟨_, rfl⟩ hwide
  · next hnarrow =>
      refine iff_of_false ?_ hnarrow
      rintro ⟨w, hw⟩
      cases hside : padSide args[2]? with
      | ok side => exact h.unknown side (padSide_eq_ok_iff.mp hside)
      | error e =>
          rw [hside] at hw
          cases hw

theorem AsksUnknownSide.not_isForegone {args : List String} {n : Nat}
    (h : AsksUnknownSide args n) (hn : 0 < n) : ¬ IsForegone fun v => pad v args := by
  have hwide : n ≤ (Value.text (String.ofList (List.replicate n ' '))).display.length := by
    rw [Value.display, String.length_ofList, List.length_replicate]
  have hnarrow : ¬ n ≤ (Value.text "").display.length := Nat.not_le.mpr hn
  refine TextFilter.not_isForegone _ (.text "") ((h.exists_pad_iff _).mpr hwide) ?_
  cases hpad : pad (.text "") args with
  | error e => exact ⟨e, rfl⟩
  | ok w => exact absurd ((h.exists_pad_iff _).mp ⟨w, hpad⟩) hnarrow

/-- Arguments whose width is accepted are accepted with all values, unless they ask for an unknown
    side and for a width that some text does not have. -/
theorem exists_pad {args : List String} {width : Option Nat}
    (hwidth : naturalArgument "pad width" args 0 = .ok width) (hlimit : width.getD 0 ≤ padLimit)
    (hknown : ∀ n, 0 < n → ¬ AsksUnknownSide args n) (v : Value) : ∃ w, pad v args = .ok w := by
  rcases exists_fillsWith args[1]? with ⟨fill, hfill⟩
  by_cases hside : ∃ side, AsksSide args[2]? side
  · rcases hside with ⟨side, hside⟩
    exact ⟨_, pad_eq hwidth hlimit hfill hside v⟩
  · -- The side is unknown, so that no width is left but zero, which every text has.
    have hzero : width.getD 0 = 0 := by
      cases width with
      | none => rfl
      | some n =>
          by_contra hn
          exact hknown n (Nat.pos_of_ne_zero hn) ⟨hwidth, hlimit, not_exists.mp hside⟩
    rw [pad_eq_of_width hwidth hlimit hfill, if_pos (hzero.trans_le (Nat.zero_le _))]
    exact ⟨_, rfl⟩

/-- The side is the only argument that is looked at too late, and only if there is a width. -/
theorem isForegone_pad_iff (args : List String) :
    (IsForegone fun v => pad v args) ↔ ∀ n, 0 < n → ¬ AsksUnknownSide args n := by
  constructor
  · exact fun hforegone n hn h => h.not_isForegone hn hforegone
  · intro hknown
    cases hbounded : boundedArgument "pad width" padLimit args 0 with
    | ok width =>
        rcases boundedArgument_eq_ok_iff.mp hbounded with ⟨hwidth, hlimit⟩
        exact .inl (exists_pad hwidth hlimit hknown)
    | error e =>
        refine .inr fun v => ⟨e, ?_⟩
        change pad v args = _
        unfold pad
        rw [hbounded]
        rfl

end TextFilter

/-- Whether a filter on texts accepts its arguments does not depend on the value, except for padding
    that asks for an unknown side and for a width that is not zero. This is accepted with exactly
    those values that have the width already. -/
theorem foregone_unless_side_unknown (args : List String) :
    (TextFilter.IsForegone fun v => TextFilter.slice v args) ∧
    (TextFilter.IsForegone fun v => TextFilter.truncate v args) ∧
    (TextFilter.IsForegone fun v => TextFilter.replace v args) ∧
    ((TextFilter.IsForegone fun v => TextFilter.pad v args) ↔
      ∀ n, 0 < n → ¬ TextFilter.AsksUnknownSide args n) ∧
    ∀ n, TextFilter.AsksUnknownSide args n →
      ∀ v, (∃ w, TextFilter.pad v args = .ok w) ↔ n ≤ v.display.length :=
  ⟨TextFilter.isForegone_slice args, TextFilter.isForegone_truncate args,
    TextFilter.isForegone_replace args, TextFilter.isForegone_pad_iff args,
    fun _ h v => h.exists_pad_iff v⟩

/-- A side in the middle is accepted with six characters. -/
theorem foregone_unless_side_unknown_middle :
    TextFilter.AsksUnknownSide ["3", "x", "middle"] 3 ∧
      ((∃ w, TextFilter.pad (.text "abcdef") ["3", "x", "middle"] = .ok w) ↔
        3 ≤ (Value.text "abcdef").display.length) := by
  have hunknown : TextFilter.AsksUnknownSide ["3", "x", "middle"] 3 := by
    refine ⟨rfl, by decide, fun side hside => ?_⟩
    have hside := TextFilter.padSide_eq_ok_iff.mpr hside
    cases hside
  exact ⟨hunknown, (foregone_unless_side_unknown _).2.2.2.2 3 hunknown _⟩

/-- A side in the middle is accepted with six characters and refused with one, so that its outcome
    is not foregone. -/
theorem middle_side_open :
    (∃ w, TextFilter.pad (.text "abcdef") ["3", "x", "middle"] = .ok w) ∧
      (∃ e, TextFilter.pad (.text "a") ["3", "x", "middle"] = .error e) ∧
      ¬ TextFilter.IsForegone fun v => TextFilter.pad v ["3", "x", "middle"] := by
  have hwide : ∃ w, TextFilter.pad (.text "abcdef") ["3", "x", "middle"] = .ok w := ⟨_, rfl⟩
  have hnarrow : ∃ e, TextFilter.pad (.text "a") ["3", "x", "middle"] = .error e := ⟨_, rfl⟩
  exact ⟨hwide, hnarrow, TextFilter.not_isForegone _ _ hwide hnarrow⟩

end Letterpress
