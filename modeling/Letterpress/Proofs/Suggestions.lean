import Letterpress.Analysis.Suggestion
import Letterpress.Dictionary
import Mathlib

/-!
# Suggestions

Which names are offered in the place of an unknown one. The candidates are the names of a table,
and a table has no order that a reader of its reports should know of. So it must not matter in
which order the candidates come, nor how often, although they pass through a sort, which depends on
the order, and through a removal of repetitions, which sees only those that are next to each other.

The way to this is not to look at the steps for two different lists at once. A choice is described
by what it is among all candidates: some of those in reach, each before the next one, with nothing
left out that is better than what was taken, and nothing left out at all while there is room. That
is `IsClosest`. It speaks of the candidates only by asking which names are among them, and it leaves
nothing open: two choices of this kind are the same. So it is enough that the steps lead to one.
Nothing of this asks what a distance is, so it holds for any, and for the number of edits.

## Main definitions

* `score`: A name with its distance.
* `Scored.Precedes`: The strict order of candidates, by distance and then by name.
* `IsClosest`: A choice of the best candidates.

## Theorems

* `mem_dropRepeats_iff`, `pairwise_dropRepeats`: Sorted items without repetitions increase strictly.
* `isClosest_closestBy`: The names that are offered are a choice of the best.
* `IsClosest.eq`: There is only one such choice.
* `suggestions_determined`: What is offered depends on which candidates there are, and on nothing
  else.
-/

namespace Letterpress

/-- A name with its distance from the name that is wanted, when case does not count. -/
def score (distance : String → String → Nat) (target name : String) : Scored :=
  ⟨distance (Text.toLower target) (Text.toLower name), name⟩

/-- A candidate comes before another one: it is closer, or it is as close and its name is less. -/
def Scored.Precedes (a b : Scored) : Prop :=
  a.distance < b.distance ∨ a.distance = b.distance ∧ a.name < b.name

/-- A choice of the best candidates for a name, by the distance that is given. -/
structure IsClosest (distance : String → String → Nat) (target : String)
    (candidates chosen : List String) : Prop where
  few : chosen.length ≤ suggestionLimit
  known : chosen ⊆ candidates
  near : ∀ name ∈ chosen, (score distance target name).distance ≤ suggestionReach
  ordered : chosen.Pairwise fun a b =>
    (score distance target a).Precedes (score distance target b)
  distinct : chosen.Nodup
  best : ∀ name ∈ candidates, (score distance target name).distance ≤ suggestionReach →
    name ∉ chosen → chosen.length = suggestionLimit ∧
      ∀ other ∈ chosen, (score distance target other).Precedes (score distance target name)

namespace Scored

theorem Precedes.trans {a b c : Scored} (hab : a.Precedes b) (hbc : b.Precedes c) :
    a.Precedes c := by
  rcases hab with hab | ⟨hab, hname⟩
  · rcases hbc with hbc | ⟨hbc, _⟩
    · exact .inl (Nat.lt_trans hab hbc)
    · exact .inl (hbc ▸ hab)
  · rcases hbc with hbc | ⟨hbc, hname'⟩
    · exact .inl (hab ▸ hbc)
    · exact .inr ⟨hab.trans hbc, String.lt_trans hname hname'⟩

theorem Precedes.asymm {a b : Scored} (hab : a.Precedes b) : ¬ b.Precedes a := by
  rintro (hba | ⟨hba, hname⟩)
  · rcases hab with hab | ⟨hab, _⟩ <;> omega
  · rcases hab with hab | ⟨_, hname'⟩
    · omega
    · exact String.lt_asymm hname hname'

theorem Precedes.ne {a b : Scored} (hab : a.Precedes b) : a ≠ b := by
  rintro rfl
  exact hab.asymm hab

theorem le_iff {a b : Scored} :
    a.le b = true ↔ a.distance < b.distance ∨ a.distance = b.distance ∧ a.name ≤ b.name := by
  simp [le]

theorem precedes_iff {a b : Scored} : a.Precedes b ↔ a.le b = true ∧ a ≠ b := by
  constructor
  · intro hab
    refine ⟨le_iff.mpr ?_, hab.ne⟩
    exact hab.imp_right fun ⟨heq, hname⟩ => ⟨heq, String.not_lt.mp (String.lt_asymm hname)⟩
  · rintro ⟨hle, hne⟩
    rcases le_iff.mp hle with hlt | ⟨heq, hname⟩
    · exact .inl hlt
    · refine .inr ⟨heq, Entries.lt_of_not_lt_of_ne (String.not_lt.mpr hname) fun hsame => hne ?_⟩
      rcases a with ⟨d, name⟩
      rcases b with ⟨d', name'⟩
      simp_all

theorem le_trans (a b c : Scored) (hab : a.le b = true) (hbc : b.le c = true) :
    a.le c = true := by
  rw [le_iff] at hab hbc ⊢
  rcases hab with hab | ⟨hab, hname⟩
  · exact .inl (by omega)
  · rcases hbc with hbc | ⟨hbc, hname'⟩
    · exact .inl (by omega)
    · exact .inr ⟨hab.trans hbc, String.le_trans hname hname'⟩

theorem le_total (a b : Scored) : (a.le b || b.le a) = true := by
  rw [Bool.or_eq_true, le_iff, le_iff]
  rcases Nat.lt_trichotomy a.distance b.distance with hlt | heq | hlt
  · exact .inl (.inl hlt)
  · exact (String.le_total a.name b.name).imp (.inr ⟨heq, ·⟩) (.inr ⟨heq.symm, ·⟩)
  · exact .inr (.inl hlt)

end Scored

theorem mem_dropRepeats_iff {a : Scored} {xs : List Scored} : a ∈ dropRepeats xs ↔ a ∈ xs := by
  induction xs with
  | nil => rfl
  | cons x rest ih =>
      rw [List.mem_cons, ← ih]
      rcases hrest : dropRepeats rest with _ | ⟨b, rest'⟩
      · simp [dropRepeats, hrest]
      · by_cases hxb : x = b <;> simp [dropRepeats, hrest, hxb]

/-- Items that are sorted increase strictly when repetitions are left out, since equal ones are next
    to each other. -/
theorem pairwise_dropRepeats {xs : List Scored} (h : xs.Pairwise fun a b => a.le b = true) :
    (dropRepeats xs).Pairwise Scored.Precedes := by
  induction xs with
  | nil => exact .nil
  | cons x rest ih =>
      rcases List.pairwise_cons.mp h with ⟨hx, hrest⟩
      have hpairwise := ih hrest
      have hmem : ∀ b ∈ dropRepeats rest, x.le b = true :=
        fun b hb => hx b (mem_dropRepeats_iff.mp hb)
      -- It is enough to look at the first of the others: it comes before all that follow it.
      rcases hdropped : dropRepeats rest with _ | ⟨b, rest'⟩
      · simp only [dropRepeats, hdropped]
        exact List.pairwise_singleton _ x
      · rw [hdropped] at hpairwise hmem
        simp only [dropRepeats, hdropped]
        by_cases hxb : x = b
        · rwa [if_pos hxb]
        · rw [if_neg hxb]
          have hfirst : x.Precedes b :=
            Scored.precedes_iff.mpr ⟨hmem b List.mem_cons_self, hxb⟩
          refine List.pairwise_cons.mpr ⟨fun c hc => ?_, hpairwise⟩
          rcases List.mem_cons.mp hc with rfl | hc
          · exact hfirst
          · exact hfirst.trans ((List.pairwise_cons.mp hpairwise).1 c hc)

section

variable {distance : String → String → Nat} {target : String}
  {candidates chosen chosen' : List String}

theorem scored_eq (distance : String → String → Nat) (target : String) (candidates : List String) :
    scored distance target candidates = candidates.filterMap fun name =>
      if (score distance target name).distance ≤ suggestionReach
        then some (score distance target name) else none := by
  unfold scored score
  rfl

theorem mem_scored_iff {s : Scored} :
    s ∈ scored distance target candidates ↔
      s.name ∈ candidates ∧ s = score distance target s.name ∧ s.distance ≤ suggestionReach := by
  simp only [scored_eq, List.mem_filterMap, Option.ite_none_right_eq_some, Option.some.injEq]
  constructor
  · rintro ⟨name, hname, hreach, rfl⟩
    exact ⟨hname, rfl, hreach⟩
  · rintro ⟨hname, hs, hreach⟩
    rw [hs] at hreach
    exact ⟨s.name, hname, hreach, hs.symm⟩

theorem isClosest_closestBy (distance : String → String → Nat) (target : String)
    (candidates : List String) :
    IsClosest distance target candidates (closestBy distance target candidates) := by
  obtain ⟨all, hall⟩ :
      ∃ all, all = dropRepeats ((scored distance target candidates).mergeSort Scored.le) :=
    ⟨_, rfl⟩
  have hmem : ∀ s, s ∈ all ↔
      s.name ∈ candidates ∧ s = score distance target s.name ∧ s.distance ≤ suggestionReach := by
    intro s
    rw [hall, mem_dropRepeats_iff, List.mem_mergeSort, mem_scored_iff]
  have hpairwise : all.Pairwise Scored.Precedes := by
    rw [hall]
    exact pairwise_dropRepeats (List.pairwise_mergeSort Scored.le_trans Scored.le_total _)
  have hchosen : closestBy distance target candidates =
      (all.take suggestionLimit).map (·.name) := by
    rw [hall]
    rfl
  have htaken : ∀ name ∈ closestBy distance target candidates,
      score distance target name ∈ all.take suggestionLimit := by
    intro name hname
    rw [hchosen] at hname
    rcases List.mem_map.mp hname with ⟨s, hs, rfl⟩
    rwa [← ((hmem s).mp (List.mem_of_mem_take hs)).2.1]
  have hordered : (closestBy distance target candidates).Pairwise
      fun a b => (score distance target a).Precedes (score distance target b) := by
    rw [hchosen, List.pairwise_map]
    refine hpairwise.take.imp_of_mem fun {s s'} hs hs' hlt => ?_
    rwa [← ((hmem s).mp (List.mem_of_mem_take hs)).2.1,
      ← ((hmem s').mp (List.mem_of_mem_take hs')).2.1]
  refine ⟨?_, fun name hname => ?_, fun name hname => ?_, hordered, ?_, ?_⟩
  · rw [hchosen, List.length_map]
    exact List.length_take_le _ _
  · exact ((hmem _).mp (List.mem_of_mem_take (htaken name hname))).1
  · exact ((hmem _).mp (List.mem_of_mem_take (htaken name hname))).2.2
  · exact hordered.imp fun hlt heq => hlt.ne (congrArg (score distance target) heq)
  · intro name hname hreach hnot
    -- What is in reach and was not taken is behind all that was.
    have hdropped : score distance target name ∈ all.drop suggestionLimit := by
      have hin : score distance target name ∈ all := (hmem _).mpr ⟨hname, rfl, hreach⟩
      rw [← List.take_append_drop suggestionLimit all, List.mem_append] at hin
      refine hin.resolve_left fun htake => hnot ?_
      rw [hchosen]
      exact List.mem_map.mpr ⟨_, htake, rfl⟩
    constructor
    · have hpos := List.length_pos_of_mem hdropped
      rw [List.length_drop] at hpos
      rw [hchosen, List.length_map, List.length_take]
      omega
    · intro other hother
      rw [← List.take_append_drop suggestionLimit all, List.pairwise_append] at hpairwise
      exact hpairwise.2.2 _ (htaken other hother) _ hdropped

/-- What one choice has, another one has too. If it had not, it would be full, and would have
    something else in its place; but each of the two would then come before the other. -/
theorem IsClosest.subset (h : IsClosest distance target candidates chosen)
    (h' : IsClosest distance target candidates chosen') : chosen ⊆ chosen' := by
  intro name hname
  by_contra hnot
  rcases h'.best name (h.known hname) (h.near name hname) hnot with ⟨hfull, hbefore⟩
  have hother : ∃ other ∈ chosen', other ∉ chosen := by
    by_contra hnone
    simp only [not_exists, not_and, not_not] at hnone
    have hmore : (name :: chosen').length ≤ chosen.length :=
      (List.nodup_cons.mpr ⟨hnot, h'.distinct⟩).length_le_of_subset
        (List.cons_subset.mpr ⟨hname, hnone⟩)
    have hfew := h.few
    rw [List.length_cons] at hmore
    omega
  rcases hother with ⟨other, hin, hout⟩
  have hback := (h.best other (h'.known hin) (h'.near other hin) hout).2 name hname
  exact hback.asymm (hbefore other hin)

/-- There is but one choice of the best. -/
theorem IsClosest.eq (h : IsClosest distance target candidates chosen)
    (h' : IsClosest distance target candidates chosen') : chosen = chosen' := by
  have hsame : ∀ name, name ∈ chosen ↔ name ∈ chosen' :=
    fun name => ⟨fun hname => h.subset h' hname, fun hname => h'.subset h hname⟩
  have hperm := (List.perm_ext_iff_of_nodup h.distinct h'.distinct).mpr hsame
  exact hperm.eq_of_pairwise (fun a b _ _ hab hba => absurd hba hab.asymm) h.ordered h'.ordered

/-- A choice asks only which names are among the candidates. -/
theorem IsClosest.congr {candidates' : List String}
    (h : IsClosest distance target candidates chosen)
    (hsame : ∀ name, name ∈ candidates ↔ name ∈ candidates') :
    IsClosest distance target candidates' chosen where
  few := h.few
  known := fun name hname => (hsame name).mp (h.known hname)
  near := h.near
  ordered := h.ordered
  distinct := h.distinct
  best := fun name hname => h.best name ((hsame name).mpr hname)

end

/-- What is offered in the place of a name depends on which candidates there are, and on nothing
    else. Whatever is taken as the distance, it is the one choice of the best of them: at most three
    different candidates in reach, in the strict order of distances and names, and whatever else is
    in reach comes behind all of them and is left out only because they are three. The order of the
    candidates, and how often they come, do not matter. Reports offer the choice by the number of
    edits. -/
theorem suggestions_determined (target : String) (candidates : List String) :
    (∀ distance chosen, IsClosest distance target candidates chosen ↔
        chosen = closestBy distance target candidates) ∧
      (∀ distance candidates', (∀ name, name ∈ candidates ↔ name ∈ candidates') →
        closestBy distance target candidates = closestBy distance target candidates') ∧
      closestNames target candidates = closestBy Text.distance target candidates := by
  refine ⟨fun distance chosen => ?_, fun distance candidates' hsame => ?_, rfl⟩
  · have hclosest := isClosest_closestBy distance target candidates
    exact ⟨fun h => h.eq hclosest, fun h => h ▸ hclosest⟩
  · have hclosest := isClosest_closestBy distance target candidates
    exact (hclosest.congr hsame).eq (isClosest_closestBy distance target candidates')

/-- Three of the four candidates in reach are as close as each other, and one of them is left out,
    whether it comes first or last. -/
theorem suggestions_determined_pad :
    (∀ name, name ∈ ["pd", "trim", "pads", "Pad", "ad", "pads"] ↔
      name ∈ ["Pad", "pads", "ad", "trim", "pd"]) ∧
      IsClosest Text.distance "PAD" ["pd", "trim", "pads", "Pad", "ad", "pads"]
        ["Pad", "ad", "pads"] ∧
      closestNames "PAD" ["Pad", "pads", "ad", "trim", "pd"] = ["Pad", "ad", "pads"] := by
  have hsame : ∀ name, name ∈ ["pd", "trim", "pads", "Pad", "ad", "pads"] ↔
      name ∈ ["Pad", "pads", "ad", "trim", "pd"] := by
    intro name
    simp only [List.mem_cons, List.not_mem_nil, or_false]
    tauto
  have hchosen : closestNames "PAD" ["pd", "trim", "pads", "Pad", "ad", "pads"] =
      ["Pad", "ad", "pads"] := by
    cbv
  rcases suggestions_determined "PAD" ["pd", "trim", "pads", "Pad", "ad", "pads"] with
    ⟨hclosest, horder, hedits⟩
  have hother := horder Text.distance ["Pad", "pads", "ad", "trim", "pd"] hsame
  rw [← hedits, hchosen] at hother
  rw [hedits] at hchosen
  exact ⟨hsame, (hclosest Text.distance ["Pad", "ad", "pads"]).mpr hchosen.symm, hother.symm⟩

end Letterpress
