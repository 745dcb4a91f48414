import Letterpress.Plugin
import Letterpress.Proofs.Sorting
import Mathlib.Data.List.Induction

/-!
# The Order of Turns

Who is there after plugins were added and removed in any order, and who has a turn before whom. A
plugin is there exactly if it was added at some time and its name was not mentioned again. Turns go
by priority, and by the time of arrival where priorities are equal. Adding a plugin under a known
name is a new arrival: it goes to the end of its priority, even if the former one had been at the
front.

The times are not kept anywhere. What keeps the order is that a new plugin is put at the end before
all are sorted, and that sorting is stable. So the proof carries a list of arrivals along, with
their times, and shows of every change that the plugins are this list with the times left out. The
change at hand is later than all others, and sorting by priority a list that is in the order of
times wherever priorities are equal gives the order of both.

Beside the plugins there is the list of their names, which the hooks see. It is made anew when a
plugin is added and cut down on its own when one is removed, so that it stays in step is a result
as well, and so is that no name occurs twice: only the first plugin of a name is taken out before
another one comes in.

## Main definitions

* `Host.Change`: A plugin is added, or a name is removed.
* `Host.change`, `Host.ofChanges`: The plugins after one change, and after several.
* `Host.Stays`: A plugin was added at some time, and its name was not mentioned again.
* `Host.IsSooner`: The order of priorities, and of times where they are equal.
* `Host.IsOrderly`: The names are those of the plugins, and none of them occurs twice.
* `Host.IsRoll`: The plugins in order, with the times of their arrivals.

## Theorems

* `Host.IsOrderly.add`, `Host.IsOrderly.remove`: Changes keep the names in order.
* `Host.IsOrderly.mem_add_iff`, `Host.mem_remove_iff`: Who is there after a change.
* `Host.IsRoll.add`, `Host.IsRoll.remove`: Changes keep the roll.
* `turns_ordered`: The names and the order of turns after any changes.
-/

namespace Letterpress

namespace Host

/-- Something that changes which plugins there are. -/
inductive Change where
  | add (p : Plugin)
  | remove (name : String)

/-- The name that a change mentions. -/
def Change.name : Change → String
  | .add p => p.name
  | .remove name => name

/-- The plugins after a change. -/
def change (h : Host) : Change → Host
  | .add p => h.add p
  | .remove name => (h.remove name).2

/-- The plugins after some changes, where there were none before. -/
def ofChanges (changes : List Change) : Host := changes.foldl change .empty

/-- The plugin was added by the change at this time, and no later change mentions its name. -/
def Stays (changes : List Change) (time : Nat) (p : Plugin) : Prop :=
  changes[time]? = some (.add p) ∧
    ∀ later c, time < later → changes[later]? = some c → c.name ≠ p.name

/-- Of two plugins with the times of their arrivals, the first has the smaller priority, or the
    same one and arrived earlier. -/
def IsSooner (a b : Nat × Plugin) : Prop :=
  a.2.priority < b.2.priority ∨ a.2.priority = b.2.priority ∧ a.1 < b.1

theorem ofChanges_concat (changes : List Change) (c : Change) :
    ofChanges (changes ++ [c]) = (ofChanges changes).change c :=
  List.foldl_concat ..

/-- One more change adds a plugin, and takes all others of its name away. -/
theorem stays_concat_iff {changes : List Change} {c : Change} {time : Nat} {p : Plugin} :
    Stays (changes ++ [c]) time p ↔
      Stays changes time p ∧ c.name ≠ p.name ∨ time = changes.length ∧ c = .add p := by
  have hlast : (changes ++ [c])[changes.length]? = some c := List.getElem?_concat_length
  constructor
  · rintro ⟨hadded, hlater⟩
    -- An arrival is among the earlier changes or is the last one; there are none behind it.
    rcases Nat.lt_trichotomy time changes.length with hlt | heq | hgt
    · refine Or.inl ⟨⟨?_, fun later d htime hd => ?_⟩, hlater _ c hlt hlast⟩
      · rwa [List.getElem?_append_left hlt] at hadded
      · have hshort : later < changes.length := (List.getElem?_eq_some_iff.mp hd).1
        exact hlater later d htime (by rwa [List.getElem?_append_left hshort])
    · rw [heq, hlast] at hadded
      exact Or.inr ⟨heq, Option.some.inj hadded⟩
    · have hlong := (List.getElem?_eq_some_iff.mp hadded).1
      rw [List.length_append, List.length_singleton] at hlong
      omega
  · rintro (⟨⟨hadded, hlater⟩, hne⟩ | ⟨rfl, rfl⟩)
    · have hlt : time < changes.length := (List.getElem?_eq_some_iff.mp hadded).1
      refine ⟨by rwa [List.getElem?_append_left hlt], fun later d htime hd => ?_⟩
      rcases Nat.lt_or_ge later changes.length with hshort | hend
      · exact hlater later d htime (by rwa [List.getElem?_append_left hshort] at hd)
      · have hlong := (List.getElem?_eq_some_iff.mp hd).1
        rw [List.length_append, List.length_singleton] at hlong
        rw [show later = changes.length by omega, hlast] at hd
        exact Option.some.inj hd ▸ hne
    · refine ⟨hlast, fun later d htime hd => ?_⟩
      have hlong := (List.getElem?_eq_some_iff.mp hd).1
      rw [List.length_append, List.length_singleton] at hlong
      omega

/-- The list of names is that of the plugins, and no name stands in it twice. -/
structure IsOrderly (h : Host) : Prop where
  names_eq : h.names = h.guests.map (·.plugin.name)
  nodup : h.names.Nodup

theorem isOrderly_empty : Host.empty.IsOrderly := ⟨rfl, List.nodup_nil⟩

/-- Where no name occurs twice, taking out the first plugin of a name takes out all of them. -/
theorem IsOrderly.eraseP_eq {h : Host} (horderly : h.IsOrderly) (name : String) :
    h.guests.eraseP (·.plugin.name = name) = h.guests.filter (·.plugin.name ≠ name) := by
  have hnodup := horderly.nodup
  rw [horderly.names_eq] at hnodup
  generalize h.guests = guests at hnodup
  induction guests with
  | nil => rfl
  | cons g rest ih =>
      rw [List.map_cons, List.nodup_cons] at hnodup
      rw [List.eraseP_cons, List.filter_cons]
      by_cases hg : g.plugin.name = name
      · have hothers : ∀ g' ∈ rest, decide (g'.plugin.name ≠ name) = true := by
          intro g' hg'
          refine decide_eq_true fun hname => ?_
          exact hnodup.1 (List.mem_map.mpr ⟨g', hg', hname.trans hg.symm⟩)
        rw [decide_eq_true hg, decide_eq_false (not_not_intro hg), List.filter_eq_self.mpr hothers]
        rfl
      · rw [decide_eq_false hg, decide_eq_true hg, ← ih hnodup.2]
        rfl

/-- The plugins after one was added, but for their order. -/
theorem IsOrderly.perm_add {h : Host} (horderly : h.IsOrderly) (p : Plugin) :
    (h.add p).guests.Perm (h.guests.filter (·.plugin.name ≠ p.name) ++ [⟨p, .empty⟩]) := by
  rw [← horderly.eraseP_eq]
  exact List.mergeSort_perm _ _

theorem IsOrderly.mem_add_iff {h : Host} (horderly : h.IsOrderly) {p : Plugin} {g : Guest} :
    g ∈ (h.add p).guests ↔ g = ⟨p, .empty⟩ ∨ g ∈ h.guests ∧ g.plugin.name ≠ p.name := by
  rw [(horderly.perm_add p).mem_iff, List.mem_append, List.mem_singleton, List.mem_filter,
    decide_eq_true_iff, or_comm]

theorem mem_remove_iff {h : Host} {name : String} {g : Guest} :
    g ∈ (h.remove name).2.guests ↔ g ∈ h.guests ∧ g.plugin.name ≠ name := by
  rw [remove, List.mem_filter, decide_eq_true_iff]

theorem IsOrderly.add {h : Host} (horderly : h.IsOrderly) (p : Plugin) :
    (h.add p).IsOrderly := by
  refine ⟨rfl, ?_⟩
  have hperm := (horderly.perm_add p).map (·.plugin.name)
  have hnodup := horderly.nodup
  rw [horderly.names_eq] at hnodup
  refine hperm.nodup_iff.mpr ?_
  rw [List.map_append, List.nodup_append]
  refine ⟨hnodup.sublist (List.filter_sublist.map _), List.pairwise_singleton _ _, ?_⟩
  rintro name hname other hother rfl
  rcases List.mem_map.mp hname with ⟨g, hg, rfl⟩
  exact of_decide_eq_true (List.mem_filter.mp hg).2 (List.mem_singleton.mp hother)

theorem IsOrderly.remove {h : Host} (horderly : h.IsOrderly) (name : String) :
    (h.remove name).2.IsOrderly := by
  refine ⟨?_, horderly.nodup.sublist List.filter_sublist⟩
  simp only [Host.remove, horderly.names_eq, List.filter_map]
  rfl

theorem IsOrderly.change {h : Host} (horderly : h.IsOrderly) (c : Change) :
    (h.change c).IsOrderly := by
  cases c with
  | add p => exact horderly.add p
  | remove name => exact horderly.remove name

theorem isOrderly_ofChanges (changes : List Change) : (ofChanges changes).IsOrderly := by
  induction changes using List.reverseRecOn with
  | nil => exact isOrderly_empty
  | append_singleton changes c ih =>
      rw [ofChanges_concat]
      exact ih.change c

/-- Removing a name says whether a plugin has it. -/
theorem IsOrderly.remove_fst_iff {h : Host} (horderly : h.IsOrderly) (name : String) :
    (h.remove name).1 = true ↔ name ∈ h.names := by
  rw [horderly.names_eq, Host.remove, bne_iff_ne, List.mem_map]
  constructor
  · intro hlength
    have hlt := Nat.lt_of_le_of_ne (List.length_filter_le _ _) hlength
    rcases List.length_filter_lt_length_iff_exists.mp hlt with ⟨g, hg, hname⟩
    rw [decide_eq_true_iff, not_not] at hname
    exact ⟨g, hg, hname⟩
  · rintro ⟨g, hg, hname⟩ hlength
    have hkept := List.length_filter_eq_length_iff.mp hlength g hg
    exact of_decide_eq_true hkept hname

/-- The plugins in the order of their turns, with the times of their arrivals. -/
structure IsRoll (changes : List Change) (h : Host) (arrivals : List (Nat × Plugin)) : Prop where
  plugins_eq : h.guests.map (·.plugin) = arrivals.map (·.2)
  mem_iff : ∀ time p, (time, p) ∈ arrivals ↔ Stays changes time p
  sooner : arrivals.Pairwise IsSooner

theorem isRoll_nil : IsRoll [] .empty [] := by
  refine ⟨rfl, fun time p => ⟨fun hmem => absurd hmem List.not_mem_nil, ?_⟩, .nil⟩
  rintro ⟨hadded, _⟩
  cases hadded

variable {changes : List Change} {h : Host} {arrivals : List (Nat × Plugin)}

/-- Leaving plugins of one name out leaves them out of the roll. -/
theorem IsRoll.filter_eq (hroll : IsRoll changes h arrivals) (name : String) :
    (h.guests.filter (·.plugin.name ≠ name)).map (·.plugin) =
      (arrivals.filter (·.2.name ≠ name)).map (·.2) := by
  have hfilter := congrArg (List.filter fun p => p.name ≠ name) hroll.plugins_eq
  rwa [List.filter_map, List.filter_map] at hfilter

theorem IsRoll.remove (hroll : IsRoll changes h arrivals) (name : String) :
    IsRoll (changes ++ [.remove name]) (h.remove name).2 (arrivals.filter (·.2.name ≠ name)) := by
  refine ⟨hroll.filter_eq name, fun time p => ?_, hroll.sooner.filter _⟩
  rw [stays_concat_iff, List.mem_filter, decide_eq_true_iff, hroll.mem_iff]
  constructor
  · rintro ⟨hstays, hname⟩
    exact Or.inl ⟨hstays, hname.symm⟩
  · rintro (⟨hstays, hname⟩ | ⟨_, hadd⟩)
    · exact ⟨hstays, hname.symm⟩
    · cases hadd

/-- The order of priorities alone. -/
def mayPrecede (a b : Nat × Plugin) : Bool := a.2.priority ≤ b.2.priority

theorem IsRoll.add (hroll : IsRoll changes h arrivals) (horderly : h.IsOrderly) (p : Plugin) :
    IsRoll (changes ++ [.add p]) (h.add p)
      ((arrivals.filter (·.2.name ≠ p.name) ++ [(changes.length, p)]).mergeSort mayPrecede) := by
  refine ⟨?_, fun time q => ?_, ?_⟩
  · -- Sorting looks at the plugins only, so the times may be left out before or after it.
    have hsorted : ∀ guests : List Guest, (guests.mergeSort Guest.mayPrecede).map (·.plugin) =
        (guests.map (·.plugin)).mergeSort fun q r => q.priority ≤ r.priority :=
      fun guests => List.map_mergeSort fun _ _ _ _ => rfl
    have hsorted' : ∀ pairs : List (Nat × Plugin), (pairs.mergeSort mayPrecede).map (·.2) =
        (pairs.map (·.2)).mergeSort fun q r => q.priority ≤ r.priority :=
      fun pairs => List.map_mergeSort fun _ _ _ _ => rfl
    rw [Host.add, hsorted, hsorted', horderly.eraseP_eq, List.map_append, List.map_append,
      hroll.filter_eq]
    rfl
  · rw [List.mem_mergeSort, List.mem_append, List.mem_filter, decide_eq_true_iff, hroll.mem_iff,
      List.mem_singleton, Prod.mk.injEq, stays_concat_iff, Change.add.injEq]
    exact or_congr (and_congr_right fun _ => ne_comm) (and_congr_right fun _ => eq_comm)
  · refine pairwise_mergeSort_of_ties ?_ ?_ ?_ ?_
    · intro a b c hab hbc
      exact decide_eq_true (Int.le_trans (of_decide_eq_true hab) (of_decide_eq_true hbc))
    · intro a b
      rw [Bool.or_eq_true]
      exact (Int.le_total a.2.priority b.2.priority).imp decide_eq_true decide_eq_true
    · intro a b _ hba
      exact Or.inl (Int.not_le.mp (of_decide_eq_false hba))
    · -- Among equal priorities the former plugins are in the order of their times, and all of
      -- these are before the time of the new one.
      rw [List.pairwise_append]
      refine ⟨?_, List.pairwise_singleton _ _, ?_⟩
      · exact (hroll.sooner.filter _).imp fun hsooner _ _ => hsooner
      · rintro ⟨time, q⟩ hq b hb hle hge
        rw [List.mem_singleton.mp hb] at hle hge ⊢
        have hstays := (hroll.mem_iff time q).mp (List.mem_of_mem_filter hq)
        have htime : time < changes.length := (List.getElem?_eq_some_iff.mp hstays.1).1
        have hequal := Int.le_antisymm (of_decide_eq_true hle) (of_decide_eq_true hge)
        exact Or.inr ⟨hequal, htime⟩

theorem exists_isRoll (changes : List Change) :
    ∃ arrivals, IsRoll changes (ofChanges changes) arrivals := by
  induction changes using List.reverseRecOn with
  | nil => exact ⟨[], isRoll_nil⟩
  | append_singleton changes c ih =>
      rcases ih with ⟨arrivals, hroll⟩
      rw [ofChanges_concat]
      cases c with
      | add p => exact ⟨_, hroll.add (isOrderly_ofChanges changes) p⟩
      | remove name => exact ⟨_, hroll.remove name⟩

end Host

/-- After any changes the list of names is that of the plugins, in the same order, and no name
    occurs twice. The plugins are those that were added at some time and whose names were not
    mentioned again, in the order of their priorities and, where these are equal, of the times at
    which they were added. Removing a name says whether a plugin has it, takes this plugin out and
    leaves all others in their order. -/
theorem turns_ordered (changes : List Host.Change) :
    let h := Host.ofChanges changes
    h.names = h.guests.map (·.plugin.name) ∧ h.names.Nodup ∧
      (∃ arrivals : List (Nat × Plugin), h.guests.map (·.plugin) = arrivals.map (·.2) ∧
        (∀ time p, (time, p) ∈ arrivals ↔ Host.Stays changes time p) ∧
        arrivals.Pairwise Host.IsSooner) ∧
      ∀ name, ((h.remove name).1 = true ↔ name ∈ h.names) ∧
        (h.remove name).2.guests.Sublist h.guests ∧
        (∀ g, g ∈ (h.remove name).2.guests ↔ g ∈ h.guests ∧ g.plugin.name ≠ name) ∧
        (h.remove name).2.names = (h.remove name).2.guests.map (·.plugin.name) := by
  intro h
  have horderly : h.IsOrderly := Host.isOrderly_ofChanges changes
  rcases Host.exists_isRoll changes with ⟨arrivals, hroll⟩
  refine ⟨horderly.names_eq, horderly.nodup,
    ⟨arrivals, hroll.plugins_eq, hroll.mem_iff, hroll.sooner⟩, fun name => ?_⟩
  exact ⟨horderly.remove_fst_iff name, List.filter_sublist, fun _ => Host.mem_remove_iff,
    (horderly.remove name).names_eq⟩

end Letterpress
