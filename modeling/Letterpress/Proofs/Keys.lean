import Letterpress.Proofs.Circle
import Letterpress.Proofs.Schedule
import Letterpress.Proofs.Tiling

/-!
# Keys

What a template can see of its data. A plan lists the keys of its placeholders, and this list is
complete: where two contexts have the same values under all keys of the list, the plan renders
them in the same way, down to the faults and to the times that are spent with waiting. So a
template can be given no more than what its keys lead to, and nothing will be missed.

A plan looks paths up and not keys, and a key is a path in one word. That the word can be taken
apart again is a matter of the reader. It never takes a point for a part of a name, so the points
in a key are those between its names, no matter which names there are. A hole could be given any
path; it takes the way from a source to a plan to see that no hole of a plan has a path that was
not read, be it in the source itself or in a template that is included, at whatever depth.

The rest is that nothing but a hole asks for data, and that it asks for its own path only. What
stands for a value that is missing is made from the key. Filters see the value that was found and
their arguments, and a filter that may have to wait is noticed before anything is looked up.

## Main definitions

* `segments`: The names that a key consists of.
* `Value.AgreesOn`: Two contexts have the same values under some keys.

## Theorems

* `segments_dotted`: A key is taken apart into the names of its path.
* `isPath_of_readTemplate`, `isPath_of_expand`, `isPath_of_compileSource`: All paths were read.
* `Plan.renderParts_congr`: Parts depend on what their holes look up.
* `keys_complete`: A plan depends on what its keys lead to.
-/

namespace Letterpress

/-- The names that a key consists of, with a point between any two of them. -/
def segments (key : String) : List String := (key.split '.').toList.map String.Slice.copy

/-- No name has a point in it. -/
theorem not_mem_of_isName {name : String} (h : isName name = true) : '.' ∉ name.toList := by
  rcases exists_of_isName h with ⟨c, cs, hname, hstart, hparts⟩
  have hpoint : isNamePart '.' = false := by decide
  intro hmem
  rw [hname] at hmem
  have hpart : isNamePart '.' = true := by
    rcases List.mem_cons.mp hmem with rfl | hmem
    · exact isNamePart_of_isNameStart hstart
    · exact hparts _ hmem
  rw [hpoint] at hpart
  cases hpart

/-- A key is taken apart into the names that it was made of. -/
theorem segments_dotted {path : List String} (h : IsPath path) :
    segments (dotted path) = path := by
  have hsplit := String.toList_split_intercalate fun name hname =>
    not_mem_of_isName (h.2 name hname)
  rwa [if_neg h.1] at hsplit

theorem isPath_of_readTemplate {source : String} {ns : List Node}
    (h : readTemplate source = .ok ns) {p : Placeholder} (hp : .placeholder p ∈ ns) :
    IsPath p.path := by
  rcases (readTemplate_iff_piecesAt.mp h).exists_piece hp with ⟨_, _, _, _, hpiece⟩
  cases hpiece with
  | tag htag =>
      cases htag with
      | placeholder hpath => exact hpath

/-- Expanding nodes brings no other paths than those that were read, here or in a template that
    is included. -/
theorem isPath_of_expand {scope : Scope} {active : List String} {ns : List Node} {ps : List Part}
    (hexpand : expand scope active ns = .ok ps)
    (hread : ∀ p, .placeholder p ∈ ns → IsPath p.path) :
    ∀ h ∈ ps.filterMap Part.hole?, IsPath h.path := by
  fun_induction expand scope active ns generalizing ps with
  | case1 =>
      cases hexpand
      exact List.forall_mem_nil _
  | case2 => cases hexpand
  | case3 active s span rest qs hrest ih =>
      cases hexpand
      have hqs := ih hrest fun p hp => hread p (List.mem_cons_of_mem _ hp)
      exact hqs
  | case4 => cases hexpand
  | case5 => cases hexpand
  | case6 active p rest h hole qs hrest ih =>
      cases hexpand
      have hqs := ih hrest fun p hp => hread p (List.mem_cons_of_mem _ hp)
      refine List.forall_mem_cons.mpr ⟨?_, hqs⟩
      rw [(isResolved_of_holeOf hole).1]
      exact hread p List.mem_cons_self
  | case7 => cases hexpand
  | case8 => cases hexpand
  | case9 => cases hexpand
  | case10 active i rest inner henter ps hinner qs hrest ihinner ihrest =>
      cases hexpand
      -- What is included was read as well, from a source of its own.
      rcases registered?_eq_some_iff.mp (registered?_of_enter henter) with ⟨source, _, hsource⟩
      rw [List.filterMap_append]
      refine List.forall_mem_append.mpr ⟨?_, ?_⟩
      · exact ihinner hinner fun p hp => isPath_of_readTemplate hsource hp
      · exact ihrest hrest fun p hp => hread p (List.mem_cons_of_mem _ hp)

theorem isPath_of_compileSource {scope : Scope} {source : String} {plan : Plan}
    (hplan : compileSource scope source = .ok plan) : ∀ h ∈ plan.holes, IsPath h.path := by
  unfold compileSource at hplan
  split at hplan
  · cases hplan
  · next ns hread =>
      unfold compile at hplan
      split at hplan
      · cases hplan
      · next ps hexpand =>
          cases hplan
          rw [holes_ofParts, holes_mergeParts]
          exact isPath_of_expand hexpand fun p hp => isPath_of_readTemplate hread hp

/-- Two contexts have the same values, or none, under some keys. -/
def Value.AgreesOn (context context' : Value) (keys : List String) : Prop :=
  ∀ key ∈ keys, context.lookup (segments key) = context'.lookup (segments key)

namespace Plan

variable {plan : Plan} {context context' : Value} {h : Hole}

theorem filling_congr (hpath : context.lookup h.path = context'.lookup h.path) :
    plan.filling context h = plan.filling context' h := by
  rw [filling, filling, hpath]

theorem fill_congr (hpath : context.lookup h.path = context'.lookup h.path) :
    plan.fill context h = plan.fill context' h := by
  rw [fill, fill, filling_congr hpath]

theorem fillWaiting_congr (hpath : context.lookup h.path = context'.lookup h.path) :
    plan.fillWaiting context h = plan.fillWaiting context' h := by
  rw [fillWaiting, fillWaiting, filling_congr hpath]

/-- Parts depend on the values that their holes look up, and on nothing else. -/
theorem renderParts_congr {ps : List Part}
    (hpaths : ∀ h ∈ ps.filterMap Part.hole?, context.lookup h.path = context'.lookup h.path) :
    plan.renderParts context ps = plan.renderParts context' ps := by
  induction ps with
  | nil => rfl
  | cons part ps ih =>
      cases part with
      | literal s =>
          rw [renderParts, renderParts, ih hpaths]
      | hole h =>
          rcases List.forall_mem_cons.mp hpaths with ⟨hpath, hrest⟩
          rw [renderParts, renderParts, fill_congr hpath, ih hrest]

section

variable (hpaths : ∀ h ∈ plan.holes, context.lookup h.path = context'.lookup h.path)

include hpaths

theorem render_congr : plan.render context = plan.render context' := by
  unfold render
  cases hbody : plan.body with
  | plain s => rfl
  | mixed ps =>
      rw [holes, parts, hbody] at hpaths
      simp only [renderParts_congr hpaths]

theorem renderWaiting_congr : plan.renderWaiting context = plan.renderWaiting context' := by
  have hfillings : plan.holes.map (plan.fillWaiting context) =
      plan.holes.map (plan.fillWaiting context') :=
    List.map_congr_left fun h hh => fillWaiting_congr (hpaths h hh)
  rw [renderWaiting, renderWaiting, hfillings]

theorem renderUnder_congr (schedule : List Nat) :
    plan.renderUnder context schedule = plan.renderUnder context' schedule := by
  have htasks : plan.tasks context = plan.tasks context' :=
    List.map_congr_left fun h hh => congrArg Pending.later (fillWaiting_congr (hpaths h hh))
  rw [renderUnder, renderUnder, htasks]

end

end Plan

/-- The keys of a plan say all that it can see of its data. The key of a hole can be taken apart
    into the path of the hole, so holes with the same key have the same path, even in the plans of
    different sources. Contexts that agree under the keys of a plan are rendered in the same way, at
    once or with waiting, and with waiting under any schedule: with the same text or fault, or with
    none if the schedule leaves a hole waiting. -/
theorem keys_complete {scope : Scope} {source : String} {plan : Plan}
    (hplan : compileSource scope source = .ok plan) :
    (∀ h ∈ plan.holes, segments h.key = h.path) ∧
      (∀ scope' source' plan', compileSource scope' source' = .ok plan' →
        ∀ h ∈ plan.holes, ∀ h' ∈ plan'.holes, h.key = h'.key → h.path = h'.path) ∧
      ∀ context context' : Value, context.AgreesOn context' plan.keys →
        plan.render context = plan.render context' ∧
          plan.renderWaiting context = plan.renderWaiting context' ∧
          ∀ schedule, plan.renderUnder context schedule = plan.renderUnder context' schedule := by
  -- A key can be taken apart since no segment of a path has a point in it.
  have hsegments : ∀ h ∈ plan.holes, segments h.key = h.path :=
    fun h hh => segments_dotted (isPath_of_compileSource hplan h hh)
  refine ⟨hsegments, ?_, ?_⟩
  · intro scope' source' plan' hplan' h hh h' hh' hkey
    rw [← hsegments h hh, hkey]
    exact segments_dotted (isPath_of_compileSource hplan' h' hh')
  · intro context context' hagree
    have hpaths : ∀ h ∈ plan.holes, context.lookup h.path = context'.lookup h.path := by
      intro h hh
      have hkey := hagree h.key (List.mem_map_of_mem hh)
      rwa [hsegments h hh] at hkey
    exact ⟨Plan.render_congr hpaths, Plan.renderWaiting_congr hpaths,
      Plan.renderUnder_congr hpaths⟩

/-- Data for the letter. -/
def correspondence : Value :=
  .record [("you", .text "Ada"), ("me", .text "Charles")]

/-- The same under the keys of the letter, and more. -/
def correspondenceAndMore : Value :=
  .record [("you", .text "Ada"), ("year", .text "1843"), ("me", .text "Charles")]

theorem keys_complete_letter :
    compileSource letterScope letter = .ok letterPlan ∧ letterPlan.keys = ["you", "me"] ∧
      correspondence.AgreesOn correspondenceAndMore letterPlan.keys ∧
      letterPlan.render correspondence = letterPlan.render correspondenceAndMore := by
  rcases keys_complete compileSource_letter with ⟨hsegments, _, hcomplete⟩
  have hpaths : ∀ h ∈ letterPlan.holes,
      correspondence.lookup h.path = correspondenceAndMore.lookup h.path :=
    List.forall_mem_cons.mpr ⟨rfl, List.forall_mem_singleton.mpr rfl⟩
  have hagree : correspondence.AgreesOn correspondenceAndMore letterPlan.keys := by
    intro key hkey
    rcases List.mem_map.mp hkey with ⟨h, hh, rfl⟩
    rw [hsegments h hh]
    exact hpaths h hh
  exact ⟨compileSource_letter, rfl, hagree, (hcomplete _ _ hagree).1⟩

end Letterpress
