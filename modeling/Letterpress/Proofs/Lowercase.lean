import Letterpress.Text.Case
import Mathlib

/-!
# Lower Case Once and for All

A text in lower case stays as it is when it is put into lower case again. This is a fact about the
tables and not about how they are used: what a letter is sent to must not be sent on. The tables
move letters in runs, so it is runs that have to be compared. The images of a run are a run as well,
and it must have no code point in common with any run of the table, or with a letter that becomes
several.

Two runs with nothing in common need not lie apart. Capital and small letters alternate in many
blocks, and there the images of a run interleave with the run itself. They keep clear of it since
they have another remainder modulo the distance between two of its letters. Which of the two it is
can be decided from the ends of the runs, without going through the letters in them.

One letter becomes lower case in two ways, depending on where it stands. It is not its own lower
case, so it does not occur any more in a text that is in lower case, and what is around a letter
does not matter there.

## Main definitions

* `CaseRun.image`: Where a run is moved to.
* `CaseRun.clears`: Two runs have no code point in common.
* `IsLowered`: A character that is its own lower case.

## Theorems

* `CaseRun.covers_image`, `CaseRun.covers_eq_false`: What being moved and keeping clear mean.
* `isLowered_of_mem_lowerOf`: What a character is sent to is not sent on.
* `isLowered_of_mem_toLower`: A text in lower case has no other characters.
* `toLower_eq_self`: A text of such characters stays as it is.
-/

namespace Letterpress

namespace Text

namespace CaseRun

/-- How far the code points of a run are from each other. A run of one code point has no others. -/
def step (run : CaseRun) : Nat :=
  if run.first = run.last then 0 else run.stride

/-- The run that a run is moved to. -/
def image (run : CaseRun) : CaseRun :=
  ⟨(run.first + run.distance).toNat, (run.last + run.distance).toNat, run.stride, 0⟩

/-- No code point belongs to both runs: one ends before the other begins, or the code points of the
    one are never those of the other modulo what both steps have in common. -/
def clears (run other : CaseRun) : Bool :=
  Nat.blt run.last other.first || Nat.blt other.last run.first ||
    run.first % run.step.gcd other.step != other.first % run.step.gcd other.step

theorem covers_iff {run : CaseRun} {n : Nat} :
    run.covers n = true ↔ run.first ≤ n ∧ n ≤ run.last ∧ (n - run.first) % run.stride = 0 := by
  simp [covers, and_assoc]

/-- All code points of a run are the first one modulo its step. -/
theorem modEq_of_covers {run : CaseRun} {n : Nat} (h : run.covers n = true) :
    n ≡ run.first [MOD run.step] := by
  rcases covers_iff.mp h with ⟨hfirst, hlast, hstride⟩
  unfold step
  split
  · next hsingle =>
      rw [le_antisymm (hsingle ▸ hlast) hfirst]
  · exact ((Nat.modEq_iff_dvd' hfirst).mpr (Nat.dvd_of_mod_eq_zero hstride)).symm

/-- The image of a code point belongs to the run that its own is moved to. -/
theorem covers_image {run : CaseRun} {n : Nat} (hrun : 0 ≤ run.first + run.distance)
    (h : run.covers n = true) : run.image.covers (n + run.distance).toNat = true := by
  rcases covers_iff.mp h with ⟨hfirst, hlast, hstride⟩
  have hsame : (n + run.distance).toNat - (run.first + run.distance).toNat = n - run.first := by
    omega
  refine covers_iff.mpr ⟨?_, ?_, ?_⟩
  · change (run.first + run.distance).toNat ≤ _
    omega
  · change _ ≤ (run.last + run.distance).toNat
    omega
  · change ((n + run.distance).toNat - (run.first + run.distance).toNat) % run.stride = 0
    rw [hsame, hstride]

/-- A code point of one run does not belong to a run that it keeps clear of. -/
theorem covers_eq_false {run other : CaseRun} {n : Nat} (hclear : run.clears other = true)
    (h : run.covers n = true) : other.covers n = false := by
  rw [Bool.eq_false_iff]
  intro hother
  rcases covers_iff.mp h with ⟨hfirst, hlast, -⟩
  rcases covers_iff.mp hother with ⟨hfirst', hlast', -⟩
  simp only [clears, Bool.or_eq_true, Nat.blt_eq, bne_iff_ne] at hclear
  rcases hclear with (hbefore | hbehind) | hapart
  · omega
  · omega
  · -- The code point would have the remainders of both first ones.
    have hmod := (modEq_of_covers h).of_dvd (Nat.gcd_dvd_left run.step other.step)
    have hmod' := (modEq_of_covers hother).of_dvd (Nat.gcd_dvd_right run.step other.step)
    exact hapart (hmod.symm.trans hmod')

end CaseRun

/-- The code points that are not their own lower case, in runs. -/
def lowerEntries : List CaseRun :=
  lowerExpansions.map (fun e => ⟨e.1, e.1, 1, 0⟩) ++ lowerRuns

/-- The character is its own lower case. -/
def IsLowered (c : Char) : Prop :=
  lowerOf c = [c]

instance (c : Char) : Decidable (IsLowered c) :=
  inferInstanceAs (Decidable (_ = _))

theorem isUpper_iff {c : Char} : c.isUpper = true ↔ 65 ≤ c.toNat ∧ c.toNat ≤ 90 := by
  simp [Char.isUpper, UInt32.le_iff_toNat_le, ← Char.toNat_val]

theorem toNat_toLower_lt {c : Char} (h : c.toNat < 0x80) : c.toLower.toNat < 0x80 := by
  by_cases hupper : c.isUpper = true
  · rcases isUpper_iff.mp hupper with ⟨-, hlast⟩
    have hvalid : (c.toNat + 32).isValidChar := .inl (by omega)
    rw [Char.toLower_eq_of_isUpper hupper, Char.toNat_ofNat, if_pos hvalid]
    omega
  · rwa [Char.toLower_eq_of_not_isUpper hupper]

/-- A character that no entry is about is its own lower case. -/
theorem isLowered_of_entries {c : Char} (h : ∀ run ∈ lowerEntries, run.covers c.toNat = false) :
    IsLowered c := by
  unfold IsLowered lowerOf
  split
  · have hupper : ¬ c.isUpper = true := by
      intro hupper
      have hrun := h ⟨65, 90, 1, 32⟩ (List.mem_append_right _ List.mem_cons_self)
      rw [CaseRun.covers_iff.mpr ⟨(isUpper_iff.mp hupper).1, (isUpper_iff.mp hupper).2,
        Nat.mod_one _⟩] at hrun
      cases hrun
    rw [Char.toLower_eq_of_not_isUpper hupper]
  · have hexpansion : lowerExpansions.lookup c.toNat = none := by
      rw [List.lookup_eq_none_iff]
      intro e he
      have hentry := h ⟨e.1, e.1, 1, 0⟩ (List.mem_append_left _ (List.mem_map_of_mem he))
      rw [bne_iff_ne]
      intro heq
      rw [heq, CaseRun.covers_iff.mpr ⟨le_rfl, le_rfl, Nat.mod_one _⟩] at hentry
      cases hentry
    have hrun : lowerRuns.find? (·.covers c.toNat) = none := by
      rw [List.find?_eq_none]
      intro run hrun
      rw [h run (List.mem_append_right _ hrun)]
      exact Bool.false_ne_true
    rw [mapCase, hexpansion, hrun]

/-- No entry is about the image of a run. -/
theorem image_clears {run : CaseRun} (hrun : run ∈ lowerRuns) :
    ∀ other ∈ lowerEntries, run.image.clears other = true := by
  have hall : ∀ run ∈ lowerRuns, lowerEntries.all run.image.clears = true := by
    decide +kernel
  exact List.all_eq_true.mp (hall run hrun)

theorem isLowered_apply {run : CaseRun} (hrun : run ∈ lowerRuns) {n : Nat}
    (h : run.covers n = true) : IsLowered (run.apply n) := by
  have hlow : ∀ run ∈ lowerRuns, 0 ≤ run.first + run.distance := by
    decide +kernel
  unfold CaseRun.apply
  by_cases hvalid : (n + run.distance).toNat.isValidChar
  · refine isLowered_of_entries fun other hother => ?_
    rw [Char.toNat_ofNat, if_pos hvalid]
    exact CaseRun.covers_eq_false (image_clears hrun other hother)
      (CaseRun.covers_image (hlow run hrun) h)
  · rw [Char.ofNat, dif_neg hvalid]
    decide

/-- What a character is sent to is not sent on. -/
theorem isLowered_of_mem_lowerOf {c d : Char} (h : d ∈ lowerOf c) : IsLowered d := by
  have hexpansions : ∀ e ∈ lowerExpansions, ∀ m ∈ e.2, IsLowered (Char.ofNat m) := by
    decide +kernel
  -- The character may be mapped as one of ASCII, by an expansion, by a run, or to itself.
  by_cases hascii : c.toNat < 0x80
  · rw [lowerOf, if_pos hascii, List.mem_singleton] at h
    rw [h, IsLowered, lowerOf, if_pos (toNat_toLower_lt hascii), Char.toLower_toLower_eq_toLower]
  · have himage : lowerOf c = mapCase lowerExpansions lowerRuns c := if_neg hascii
    rw [himage, mapCase] at h
    rw [mapCase] at himage
    cases hlookup : lowerExpansions.lookup c.toNat with
    | some ns =>
        rw [hlookup] at h
        rcases List.mem_map.mp h with ⟨m, hm, rfl⟩
        rcases List.lookup_eq_some_iff.mp hlookup with ⟨front, back, hentries, -⟩
        refine hexpansions (c.toNat, ns) ?_ m hm
        rw [hentries]
        exact List.mem_append_right _ List.mem_cons_self
    | none =>
        rw [hlookup] at h himage
        cases hfind : lowerRuns.find? (·.covers c.toNat) with
        | some run =>
            have hcovers := @List.find?_some _ (fun run : CaseRun => run.covers c.toNat) _ _ hfind
            rw [hfind] at h
            rw [List.mem_singleton.mp h]
            exact isLowered_apply (List.mem_of_find?_eq_some hfind) hcovers
        | none =>
            rw [hfind] at h himage
            rw [List.mem_singleton.mp h]
            exact himage

theorem isLowered_of_mem_lowerFrom {before cs : List Char} {d : Char}
    (h : d ∈ lowerFrom before cs) : IsLowered d := by
  induction cs generalizing before with
  | nil => cases h
  | cons c rest ih =>
      rw [lowerFrom, List.mem_append] at h
      rcases h with himage | hrest
      · split at himage
        · split at himage
          · rw [List.mem_singleton.mp himage]
            decide +kernel
          · rw [List.mem_singleton.mp himage]
            decide +kernel
        · exact isLowered_of_mem_lowerOf himage
      · exact ih hrest

theorem isLowered_of_mem_toLower {s : String} {d : Char} (h : d ∈ (toLower s).toList) :
    IsLowered d := by
  rw [toLower, String.toList_ofList] at h
  exact isLowered_of_mem_lowerFrom h

theorem lowerFrom_eq_self {before cs : List Char} (h : ∀ c ∈ cs, IsLowered c) :
    lowerFrom before cs = cs := by
  have hsigma : ¬ IsLowered sigma := by
    decide +kernel
  induction cs generalizing before with
  | nil => rfl
  | cons c rest ih =>
      rcases List.forall_mem_cons.mp h with ⟨hc, hrest⟩
      have hne : (c == sigma) = false := by
        rw [beq_eq_false_iff_ne]
        rintro rfl
        exact hsigma hc
      -- So what is around the letter is not looked at.
      rw [lowerFrom, hne, ih hrest]
      exact congrArg (· ++ rest) hc

/-- A text of characters that are their own lower case stays as it is. -/
theorem toLower_eq_self {s : String} (h : ∀ c ∈ s.toList, IsLowered c) : toLower s = s := by
  rw [toLower, lowerFrom_eq_self h, String.ofList_toList]

end Text

end Letterpress
