import Letterpress.Analysis.Cycle
import Letterpress.Proofs.Inclusion

/-!
# Circles

Circles are looked for twice, in different ways. Expansion walks into every template as often as
it is included and stops at the first name that is active already. The search of the analysis
goes the same way, but never walks into a template again that it has come back from, and where
expansion stops for another reason, it goes on.

Nevertheless they find the same circle. What the search has come back from leads to no circle at
all, however it may be reached, so nothing is lost by passing it over; in particular it leads to
no active name, since the active names lead to everything at hand and a circle would result.
And expansion finds a circle only where it has expanded everything before to the end, which
leads to no circle either, so the search comes back from all of that.

The arguments are about names and what they include. `Scope.LeadsToCircle` says of a name that a
circle can be reached from it. This passes from a name to what it includes and back, and that is
all that is needed of it: a list of names is searched to the end exactly if none of them leads
to a circle.

## Main definitions

* `Scope.LeadsToCircle`: A circle can be reached from a name.
* `Scope.IsBelow`: The active names lead to names at hand.

## Theorems

* `leadsToCircle_iff_includes`: A name leads to a circle if something that it includes does.
* `not_leadsToCircle_of_searchCycle`: What is searched to the end leads to no circle.
* `exists_leadsToCircle_of_searchCycle`: Where the search reports something, there is a circle.
* `cycleFrom?_eq_none_iff`: No circle is found from a name if it leads to none.
* `exists_expand_of_error`: The node at which expansion stops.
* `exists_unknownFilter_of_holeOf`, `enter_error_cases`, `fault_cases_of_expand`: The reasons why
  it stops there.
* `searchCycle_of_expand`: The circle that stops expansion is the one that the search reports.
-/

namespace Letterpress

open Relation

/-- A circle of inclusions can be reached from a name. -/
def Scope.LeadsToCircle (scope : Scope) (name : String) : Prop :=
  ∃ other, ReflTransGen scope.Includes name other ∧ TransGen scope.Includes other other

/-- All active names lead to all of the names at hand. -/
def Scope.IsBelow (scope : Scope) (active names : List String) : Prop :=
  ∀ a ∈ active, ∀ name ∈ names, TransGen scope.Includes a name

/-- A circle is reached through what a name includes, even if the name lies on it. -/
theorem leadsToCircle_iff_includes {scope : Scope} {name : String} :
    scope.LeadsToCircle name ↔ ∃ other, scope.Includes name other ∧ scope.LeadsToCircle other := by
  constructor
  · rintro ⟨last, hpath, hcircle⟩
    rcases hpath.cases_head with rfl | ⟨other, hincludes, hrest⟩
    · -- The name itself lies on the circle, and so does the next name on it.
      rcases TransGen.head'_iff.mp hcircle with ⟨other, hincludes, hback⟩
      exact ⟨other, hincludes, name, hback, hcircle⟩
    · exact ⟨other, hincludes, last, hrest, hcircle⟩
  · rintro ⟨other, hincludes, last, hpath, hcircle⟩
    exact ⟨last, .head hincludes hpath, hcircle⟩

theorem not_leadsToCircle_of_forall {scope : Scope} {name : String} {inner : List String}
    (hinner : ∀ other, scope.Includes name other → other ∈ inner)
    (h : ∀ other ∈ inner, ¬ scope.LeadsToCircle other) : ¬ scope.LeadsToCircle name := by
  intro hname
  rcases leadsToCircle_iff_includes.mp hname with ⟨other, hincludes, hother⟩
  exact h other (hinner other hincludes) hother

theorem Scope.IsBelow.of_cons {scope : Scope} {active names : List String} {name : String}
    (h : scope.IsBelow active (name :: names)) : scope.IsBelow active names :=
  fun a ha other hother => h a ha other (List.mem_cons_of_mem _ hother)

/-- An active name that is met again lies on a circle. -/
theorem Scope.IsBelow.leadsToCircle {scope : Scope} {active names : List String} {name : String}
    (h : scope.IsBelow active (name :: names)) (hactive : name ∈ active) :
    scope.LeadsToCircle name :=
  ⟨name, .refl, h name hactive name List.mem_cons_self⟩

/-- One level further down, where a name has become active. -/
theorem Scope.IsBelow.enter {scope : Scope} {active names inner : List String} {name : String}
    (h : scope.IsBelow active (name :: names))
    (hinner : ∀ other ∈ inner, scope.Includes name other) :
    scope.IsBelow (active ++ [name]) inner := by
  intro a ha other hother
  have hstep : scope.Includes name other := hinner other hother
  rcases List.mem_append.mp ha with ha | ha
  · exact (h a ha name List.mem_cons_self).tail hstep
  · rw [List.mem_singleton.mp ha]
    exact .single hstep

theorem isBelow_nil (scope : Scope) (names : List String) : scope.IsBelow [] names :=
  fun _ ha => absurd ha List.not_mem_nil

theorem registered?_eq_some_iff {scope : Scope} {name : String} {inner : List Node} :
    scope.registered? name = some inner ↔
      ∃ source, scope.templates.get? name = some source ∧ readTemplate source = .ok inner := by
  unfold Scope.registered?
  cases scope.templates.get? name with
  | none => simp
  | some source => cases hread : readTemplate source <;> simp [hread, Except.toOption]

theorem contains_of_registered? {scope : Scope} {name : String} {inner : List Node}
    (h : scope.registered? name = some inner) : scope.templates.contains name = true := by
  rcases registered?_eq_some_iff.mp h with ⟨source, hsource, _⟩
  unfold Dictionary.contains
  rw [hsource]
  rfl

theorem mem_map_name_iff {scope : Scope} {name other : String} {inner : List Node}
    (hinner : scope.registered? name = some inner) :
    other ∈ (inclusions inner).map (·.name) ↔ scope.Includes name other := by
  rw [List.mem_map]
  constructor
  · rintro ⟨i, hi, heq⟩
    exact ⟨inner, hinner, i, hi, heq⟩
  · rintro ⟨inner', hinner', i, hi, heq⟩
    rw [hinner] at hinner'
    cases hinner'
    exact ⟨i, hi, heq⟩

theorem includedNames_of_enter {scope : Scope} {active : List String} {name : String}
    {inner : List Node} (h : scope.enter active name = .ok inner) :
    includedNames scope active name = some ((inclusions inner).map (·.name)) := by
  unfold includedNames
  rw [h]

theorem mem_includedNames_iff {scope : Scope} {active inner : List String} {name other : String}
    (h : includedNames scope active name = some inner) :
    other ∈ inner ↔ scope.Includes name other := by
  cases henter : scope.enter active name with
  | error f =>
      unfold includedNames at h
      rw [henter] at h
      cases h
  | ok ns =>
      rw [includedNames_of_enter henter] at h
      cases h
      exact mem_map_name_iff (registered?_of_enter henter)

/-- A name that is not active and cannot be entered includes nothing. -/
theorem not_includes_of_includedNames {scope : Scope} {active : List String} {name : String}
    (hactive : name ∉ active) (h : includedNames scope active name = none) (other : String) :
    ¬ scope.Includes name other := by
  rintro ⟨inner, hinner, _⟩
  have henter : scope.enter active name = .ok inner := enter_eq_ok_iff.mpr ⟨hactive, hinner⟩
  rw [includedNames_of_enter henter] at h
  cases h

/-- A name that leads anywhere is registered. -/
theorem Scope.LeadsToCircle.contains {scope : Scope} {name : String}
    (h : scope.LeadsToCircle name) : scope.templates.contains name = true := by
  rcases leadsToCircle_iff_includes.mp h with ⟨_, ⟨_, hregistered, _⟩, _⟩
  exact contains_of_registered? hregistered

/-- What is searched to the end leads to no circle, and neither does anything that was met on the
    way. No active name is needed for this: a circle through one of them would have been found. -/
theorem not_leadsToCircle_of_searchCycle {scope : Scope}
    {active finished finished' names : List String}
    (hfinished : ∀ name ∈ finished, ¬ scope.LeadsToCircle name)
    (h : searchCycle scope active finished names = .ok finished') :
    (∀ name ∈ names, ¬ scope.LeadsToCircle name) ∧
      ∀ name ∈ finished', ¬ scope.LeadsToCircle name := by
  fun_induction searchCycle scope active finished names generalizing finished' with
  | case1 active finished =>
      cases h
      exact ⟨List.forall_mem_nil _, hfinished⟩
  | case2 => cases h
  | case3 active finished name rest _ hmem ih =>
      rcases ih hfinished h with ⟨hrest, hdone⟩
      exact ⟨List.forall_mem_cons.mpr ⟨hfinished name hmem, hrest⟩, hdone⟩
  | case4 active finished name rest hactive _ hnone ih =>
      -- Expansion would stop at this name, but there is nothing below it.
      rcases ih hfinished h with ⟨hrest, hdone⟩
      have hname : ¬ scope.LeadsToCircle name := by
        have hnothing : ∀ other, scope.Includes name other → other ∈ ([] : List String) :=
          fun other hincludes =>
            absurd hincludes (not_includes_of_includedNames hactive hnone other)
        exact not_leadsToCircle_of_forall hnothing (List.forall_mem_nil _)
      exact ⟨List.forall_mem_cons.mpr ⟨hname, hrest⟩, hdone⟩
  | case5 => cases h
  | case6 active finished name rest _ _ inner hinner found hfound ihinner ihrest =>
      -- The name is finished once everything that it includes is, so it keeps the invariant.
      rcases ihinner hfinished hfound with ⟨hbelow, hfound'⟩
      have hname : ¬ scope.LeadsToCircle name :=
        not_leadsToCircle_of_forall (fun _ => (mem_includedNames_iff hinner).mpr) hbelow
      rcases ihrest (List.forall_mem_cons.mpr ⟨hname, hfound'⟩) h with ⟨hrest, hdone⟩
      exact ⟨List.forall_mem_cons.mpr ⟨hname, hrest⟩, hdone⟩

/-- Where the search reports something, there is a circle. -/
theorem exists_leadsToCircle_of_searchCycle {scope : Scope}
    {active finished names chain : List String} (hbelow : scope.IsBelow active names)
    (h : searchCycle scope active finished names = .error chain) :
    ∃ name ∈ names, scope.LeadsToCircle name := by
  have hlater : ∀ {name : String} {rest : List String},
      (∃ other ∈ rest, scope.LeadsToCircle other) →
        ∃ other ∈ name :: rest, scope.LeadsToCircle other := by
    rintro name rest ⟨other, hother, hcircle⟩
    exact ⟨other, List.mem_cons_of_mem _ hother, hcircle⟩
  fun_induction searchCycle scope active finished names generalizing chain with
  | case1 => cases h
  | case2 active finished name rest hactive =>
      exact ⟨name, List.mem_cons_self, hbelow.leadsToCircle hactive⟩
  | case3 active finished name rest _ _ ih => exact hlater (ih hbelow.of_cons h)
  | case4 active finished name rest _ _ _ ih => exact hlater (ih hbelow.of_cons h)
  | case5 active finished name rest _ _ inner hinner found hfound ih =>
      -- Something that the name includes leads to a circle, and the name leads there as well.
      have hincluded : ∀ other ∈ inner, scope.Includes name other :=
        fun other => (mem_includedNames_iff hinner).mp
      rcases ih (hbelow.enter hincluded) hfound with ⟨other, hother, hcircle⟩
      refine ⟨name, List.mem_cons_self, leadsToCircle_iff_includes.mpr ?_⟩
      exact ⟨other, hincluded other hother, hcircle⟩
  | case6 active finished name rest _ _ inner hinner found _ _ ih =>
      exact hlater (ih hbelow.of_cons h)

/-- A search from one name finds nothing exactly if the name leads to no circle. -/
theorem cycleFrom?_eq_none_iff {scope : Scope} {name : String} :
    cycleFrom? scope name = none ↔ ¬ scope.LeadsToCircle name := by
  unfold cycleFrom?
  cases h : searchCycle scope [] [] [name] with
  | error chain =>
      rcases exists_leadsToCircle_of_searchCycle (isBelow_nil scope _) h with ⟨other, hmem, hcircle⟩
      rw [List.mem_singleton.mp hmem] at hcircle
      refine ⟨fun hnone => ?_, fun hnot => absurd hcircle hnot⟩
      cases hnone
  | ok finished =>
      have hnot := (not_leadsToCircle_of_searchCycle (List.forall_mem_nil _) h).1
      exact ⟨fun _ => hnot name List.mem_cons_self, fun _ => rfl⟩

theorem leadsToCircle_of_cycleFrom? {scope : Scope} {name : String} {chain : List String}
    (h : cycleFrom? scope name = some chain) : scope.LeadsToCircle name := by
  by_contra hnot
  rw [cycleFrom?_eq_none_iff.mpr hnot] at h
  cases h

theorem map_name_inclusion (i : Inclusion) (rest : List Node) :
    (inclusions (.inclusion i :: rest)).map (·.name) = i.name :: (inclusions rest).map (·.name) :=
  rfl

theorem inclusions_append (ns ms : List Node) :
    inclusions (ns ++ ms) = inclusions ns ++ inclusions ms :=
  List.filterMap_append

/-- What can be expanded leads to no circle. -/
theorem not_leadsToCircle_of_expand {scope : Scope} {active : List String} {ns : List Node}
    {ps : List Part} (h : expand scope active ns = .ok ps) :
    ∀ i ∈ inclusions ns, ¬ scope.LeadsToCircle i.name := by
  rintro i hi ⟨other, hpath, hcircle⟩
  exact (Scope.supports_of_expand h).acyclic other ⟨i, hi, hpath⟩ hcircle

theorem expand_cons (scope : Scope) (active : List String) (n : Node) (rest : List Node) :
    expand scope active (n :: rest) = (expand scope active [n]).bind fun ps =>
      (expand scope active rest).map fun qs => ps ++ qs := by
  cases n with
  | text s span =>
      simp only [expand]
      cases expand scope active rest <;> rfl
  | placeholder p =>
      simp only [expand]
      cases scope.holeOf p with
      | error f => rfl
      | ok h => cases expand scope active rest <;> rfl
  | inclusion i =>
      rw [expand_inclusion, expand_inclusion]
      cases scope.enter active i.name with
      | error f => rfl
      | ok inner =>
          cases hinner : expand scope (active ++ [i.name]) inner with
          | error f =>
              simp only [hinner]
              rfl
          | ok ps =>
              simp only [hinner, expand]
              cases expand scope active rest <;> simp [Except.bind, Except.map]

/-- Expansion stops at the first node that cannot be expanded, and for the same reason. -/
theorem exists_expand_of_error {scope : Scope} {active : List String} {ns : List Node} {f : Fault}
    (h : expand scope active ns = .error f) :
    ∃ before n after, ns = before ++ n :: after ∧
      (∃ ps, expand scope active before = .ok ps) ∧ expand scope active [n] = .error f := by
  induction ns with
  | nil =>
      rw [expand] at h
      cases h
  -- Either the first node has the fault, or it expands and the fault is behind it.
  | cons n rest ih =>
      rw [expand_cons] at h
      cases hn : expand scope active [n] with
      | error f' =>
          rw [hn] at h
          cases h
          exact ⟨[], n, rest, rfl, ⟨[], by rw [expand]⟩, hn⟩
      | ok ps =>
          have hrest : expand scope active rest = .error f := by
            rw [hn] at h
            cases hrest : expand scope active rest with
            | error f' =>
                rw [hrest] at h
                cases h
                rfl
            | ok qs =>
                rw [hrest] at h
                cases h
          rcases ih hrest with ⟨before, m, after, hsplit, ⟨qs, hbefore⟩, hm⟩
          refine ⟨n :: before, m, after, by rw [hsplit, List.cons_append], ⟨ps ++ qs, ?_⟩, hm⟩
          rw [expand_cons, hn, hbefore]
          rfl

theorem holeOf_of_expand {scope : Scope} {active : List String} {p : Placeholder} {f : Fault}
    (h : expand scope active [.placeholder p] = .error f) : scope.holeOf p = .error f := by
  cases hole : scope.holeOf p with
  | error f' =>
      simp only [expand, hole] at h
      cases h
      rfl
  | ok hole' =>
      simp only [expand, hole] at h
      cases h

/-- An inclusion cannot be expanded if its template cannot be entered, or cannot be expanded. -/
theorem enter_of_expand {scope : Scope} {active : List String} {i : Inclusion} {f : Fault}
    (h : expand scope active [.inclusion i] = .error f) : scope.enter active i.name = .error f ∨
      ∃ inner, scope.enter active i.name = .ok inner ∧
        expand scope (active ++ [i.name]) inner = .error f := by
  rw [expand_inclusion] at h
  cases henter : scope.enter active i.name with
  | error f' =>
      rw [henter] at h
      cases h
      exact Or.inl rfl
  | ok inner =>
      cases hinner : expand scope (active ++ [i.name]) inner with
      | error f' =>
          simp only [henter, hinner] at h
          cases h
          exact Or.inr ⟨inner, rfl, hinner⟩
      | ok ps =>
          simp only [henter, hinner, expand] at h
          cases h

theorem exists_mem_of_mapM_error {α β ε : Type} {f : α → Except ε β} {xs : List α} {e : ε}
    (h : xs.mapM f = .error e) : ∃ x ∈ xs, f x = .error e := by
  induction xs with
  | nil => cases h
  | cons x xs ih =>
      rw [List.mapM_cons] at h
      cases hx : f x with
      | error e' =>
          rw [hx] at h
          cases h
          exact ⟨x, List.mem_cons_self, hx⟩
      | ok y =>
          rw [hx] at h
          cases hxs : xs.mapM f with
          | error e' =>
              rw [hxs] at h
              cases h
              rcases ih hxs with ⟨x', hx', hfault⟩
              exact ⟨x', List.mem_cons_of_mem _ hx', hfault⟩
          | ok ys =>
              rw [hxs] at h
              cases h

/-- A placeholder that cannot be expanded names an unknown filter. -/
theorem exists_unknownFilter_of_holeOf {scope : Scope} {p : Placeholder} {f : Fault}
    (h : scope.holeOf p = .error f) : ∃ call ∈ p.filters,
      scope.filters.filter? call.name = none ∧ f = .unknownFilter call.name p.key := by
  unfold Scope.holeOf at h
  simp only [bind, Except.bind] at h
  split at h
  · next f' hmap =>
      cases h
      rcases exists_mem_of_mapM_error hmap with ⟨call, hcall, hfault⟩
      refine ⟨call, hcall, ?_⟩
      cases hfilter : scope.filters.filter? call.name with
      | some g =>
          rw [hfilter] at hfault
          cases hfault
      | none =>
          rw [hfilter] at hfault
          cases hfault
          exact ⟨rfl, rfl⟩
  · cases h

/-- A template cannot be entered if its name is active, or unknown, or that of a source which is
    no template. -/
theorem enter_error_cases {scope : Scope} {active : List String} {name : String} {f : Fault}
    (h : scope.enter active name = .error f) :
    (name ∈ active ∧ f = .circularInclusion (active ++ [name])) ∨
      (scope.templates.get? name = none ∧ f = .unknownTemplate name) ∨
      ∃ source e, scope.templates.get? name = some source ∧ readTemplate source = .error e ∧
        f = .malformed e := by
  unfold Scope.enter at h
  -- The order of the checks: first the active names, then the table, then the source.
  by_cases hactive : name ∈ active
  · rw [if_pos hactive] at h
    cases h
    exact Or.inl ⟨hactive, rfl⟩
  rw [if_neg hactive] at h
  refine Or.inr ?_
  cases hsource : scope.templates.get? name with
  | none =>
      rw [hsource] at h
      cases h
      exact Or.inl ⟨rfl, rfl⟩
  | some source =>
      simp only [hsource] at h
      cases hread : readTemplate source with
      | ok ns =>
          rw [hread] at h
          cases h
      | error e =>
          rw [hread] at h
          cases h
          exact Or.inr ⟨source, e, rfl, hread, rfl⟩

/-- There are four reasons for which expansion can stop. -/
theorem fault_cases_of_expand {scope : Scope} {active : List String} {ns : List Node} {f : Fault}
    (h : expand scope active ns = .error f) :
    (∃ e, f = .malformed e) ∨ (∃ name key, f = .unknownFilter name key) ∨
      (∃ name, f = .unknownTemplate name) ∨ ∃ chain, f = .circularInclusion chain := by
  rcases exists_expand_of_error h with ⟨_, n, _, _, _, hn⟩
  cases n with
  | text s span =>
      simp only [expand] at hn
      cases hn
  | placeholder p =>
      rcases exists_unknownFilter_of_holeOf (holeOf_of_expand hn) with ⟨call, _, _, hf⟩
      exact Or.inr (Or.inl ⟨call.name, p.key, hf⟩)
  | inclusion i =>
      rcases enter_of_expand hn with henter | ⟨inner, henter, hinner⟩
      · rcases enter_error_cases henter with ⟨_, hf⟩ | ⟨_, hf⟩ | ⟨_, e, _, _, hf⟩
        · exact Or.inr (Or.inr (Or.inr ⟨_, hf⟩))
        · exact Or.inr (Or.inr (Or.inl ⟨_, hf⟩))
        · exact Or.inl ⟨e, hf⟩
      · exact fault_cases_of_expand hinner
termination_by (scope.unentered active).length
decreasing_by exact Scope.unentered_lt henter

/-- The circle that stops expansion is the one that the search reports, whatever it has finished
    before, if only that leads to no circle. -/
theorem searchCycle_of_expand {scope : Scope} {active finished chain : List String}
    {ns : List Node} (hbelow : scope.IsBelow active ((inclusions ns).map (·.name)))
    (hfinished : ∀ name ∈ finished, ¬ scope.LeadsToCircle name)
    (h : expand scope active ns = .error (.circularInclusion chain)) :
    searchCycle scope active finished ((inclusions ns).map (·.name)) = .error chain := by
  induction active, ns using expand.induct scope generalizing finished with
  | case1 active =>
      rw [expand] at h
      cases h
  | case2 active s span rest f hrest ih =>
      rw [expand, hrest] at h
      exact ih hbelow hfinished (hrest.trans h)
  | case3 active s span rest ps hrest ih =>
      rw [expand, hrest] at h
      cases h
  | case4 active p rest f hole =>
      rw [expand, hole] at h
      cases h
      rcases exists_unknownFilter_of_holeOf hole with ⟨call, _, _, hf⟩
      cases hf
  | case5 active p rest hole hhole f hrest ih =>
      rw [expand, hhole, hrest] at h
      exact ih hbelow hfinished (hrest.trans h)
  | case6 active p rest hole hhole ps hrest ih =>
      rw [expand, hhole, hrest] at h
      cases h
  | case7 active i rest f henter =>
      -- The name is active, and both stop with it.
      rw [expand_inclusion, henter] at h
      cases h
      rcases enter_error_cases henter with ⟨hactive, hf⟩ | ⟨_, hf⟩ | ⟨_, _, _, _, hf⟩
      · cases hf
        rw [map_name_inclusion, searchCycle_cons, if_pos hactive]
      · cases hf
      · cases hf
  | case8 active i rest inner henter f hinner ih =>
      rw [map_name_inclusion] at hbelow ⊢
      simp only [expand_inclusion, henter, hinner] at h
      cases h
      rcases enter_eq_ok_iff.mp henter with ⟨hactive, hregistered⟩
      have hincluded : ∀ other ∈ (inclusions inner).map (·.name), scope.Includes i.name other :=
        fun other => (mem_map_name_iff hregistered).mp
      have hinside := hbelow.enter hincluded
      -- The name leads to the circle that is found inside, so the search has not finished it.
      have hfresh : i.name ∉ finished := by
        intro hmem
        have hfound := ih hinside (List.forall_mem_nil _) hinner
        rcases exists_leadsToCircle_of_searchCycle hinside hfound with ⟨other, hother, hcircle⟩
        refine hfinished i.name hmem (leadsToCircle_iff_includes.mpr ⟨other, ?_, hcircle⟩)
        exact hincluded other hother
      rw [searchCycle_cons, if_neg hactive, if_neg hfresh]
      simp only [includedNames_of_enter henter, ih hinside hfinished hinner]
  | case9 active i rest inner henter ps hinner f hrest ihinner ihrest =>
      rw [map_name_inclusion] at hbelow ⊢
      simp only [expand_inclusion, henter, hinner, hrest] at h
      cases h
      rcases enter_eq_ok_iff.mp henter with ⟨hactive, hregistered⟩
      have hincluded : ∀ other ∈ (inclusions inner).map (·.name), scope.Includes i.name other :=
        fun other => (mem_map_name_iff hregistered).mp
      rw [searchCycle_cons, if_neg hactive]
      by_cases hmem : i.name ∈ finished
      · -- Expansion has walked through the template once more, and the search goes on behind it.
        rw [if_pos hmem]
        exact ihrest hbelow.of_cons hfinished hrest
      rw [if_neg hmem]
      simp only [includedNames_of_enter henter]
      cases hsearch : searchCycle scope (active ++ [i.name]) finished
          ((inclusions inner).map (·.name)) with
      | error chain' =>
          -- There is no circle in what has been expanded to the end.
          rcases exists_leadsToCircle_of_searchCycle (hbelow.enter hincluded) hsearch with
            ⟨other, hother, hcircle⟩
          rcases List.mem_map.mp hother with ⟨j, hj, rfl⟩
          exact absurd hcircle (not_leadsToCircle_of_expand hinner j hj)
      | ok found =>
          rcases not_leadsToCircle_of_searchCycle hfinished hsearch with ⟨hbelow', hfound⟩
          have hname : ¬ scope.LeadsToCircle i.name :=
            not_leadsToCircle_of_forall (fun _ => (mem_map_name_iff hregistered).mpr) hbelow'
          exact ihrest hbelow.of_cons (List.forall_mem_cons.mpr ⟨hname, hfound⟩) hrest
  | case10 active i rest inner henter ps hinner qs hrest =>
      simp only [expand_inclusion, henter, hinner, hrest] at h
      cases h

/-- A circle that stops the expansion of a name at the top is found from this name. -/
theorem cycleFrom?_of_expand {scope : Scope} {i : Inclusion} {chain : List String}
    (h : expand scope [] [.inclusion i] = .error (.circularInclusion chain)) :
    cycleFrom? scope i.name = some chain := by
  have hsearch : searchCycle scope [] [] [i.name] = .error chain :=
    searchCycle_of_expand (isBelow_nil scope _) (List.forall_mem_nil _) h
  unfold cycleFrom?
  rw [hsearch]

end Letterpress
