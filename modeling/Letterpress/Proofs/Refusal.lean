import Letterpress.Proofs.Schedule

/-!
# Refusal

A plan in which some filter may have to wait cannot be filled in at once, and says so before it
looks at the data. That makes the refusal a property of the plan: it does not depend on which
values are missing, or on which filters would have failed in front of the one that waits, and what
it names is the first filter of that sort in the order of the document, with the templates that
are included in their places.

There is a second refusal, further down, where the steps of a hole are run. It is there because a
step has to be something when it is run, but no plan ever comes to it. To say so, the refusal is
taken out, and anything at all may be put in its place, a fault or a value; nothing changes. For
the steps alone this would be wrong. It takes the look at all holes in front, which leaves only
plans without any filter that waits.

## Main definitions

* `IsFirst`: The first item of a list that has a property.
* `Plan.Refuses`: The filter that waits, and its placeholder, are the first of a plan.
* `Scope.Spreads`: The placeholders of nodes and of all that they include, in document order.
* `runStepsElse`, `Plan.renderElse`: The same with something else in place of the refusal.

## Theorems

* `forall₂_holeOf_of_expand`: The holes of a plan are the placeholders that it was made from.
* `runStepsElse_refusal`: The refusal in its own place changes nothing.
* `runStepsElse_eq`: Without filters that wait, nothing else changes anything either.
* `needsWaiting_iff`: When a plan has to wait.
* `waitingFilter?_eq_some_iff`: What a plan comes upon first is the first in document order.
* `exists_waiting_of_renderParts`: Parts refuse at a filter that waits only.
* `render_eq_waitingFilter_iff`: A plan refuses what it comes upon first.
* `renderElse_eq`: No plan comes to the other refusal.
* `refuses_iff_waits`: A plan refuses exactly if a filter in it may have to wait.
-/

namespace Letterpress

/-- The first item of a list that has a property. -/
def IsFirst {α : Type} (p : α → Prop) (xs : List α) (x : α) : Prop :=
  ∃ before after, xs = before ++ x :: after ∧ (∀ y ∈ before, ¬ p y) ∧ p x

/-- The names of the first filter that may have to wait, and of the placeholder that it stands
    in. -/
def Plan.Refuses (plan : Plan) (filter placeholder : String) : Prop :=
  ∃ h s, IsFirst (fun h => ¬ h.IsImmediate) plan.holes h ∧
    IsFirst (fun s => s.filter.isWaiting = true) h.steps s ∧ filter = s.name ∧ placeholder = h.key

/-- The placeholders of nodes in document order, where those of an included template stand in the
    place of the inclusion. -/
inductive Scope.Spreads (scope : Scope) : List Node → List Placeholder → Prop where
  | nil : Spreads scope [] []
  | text {s : String} {span : Span} {rest : List Node} {ps : List Placeholder}
      (hrest : Spreads scope rest ps) : Spreads scope (.text s span :: rest) ps
  | placeholder {p : Placeholder} {rest : List Node} {ps : List Placeholder}
      (hrest : Spreads scope rest ps) : Spreads scope (.placeholder p :: rest) (p :: ps)
  | inclusion {i : Inclusion} {rest inner : List Node} {ps qs : List Placeholder}
      (hregistered : scope.registered? i.name = some inner) (hinner : Spreads scope inner ps)
      (hrest : Spreads scope rest qs) : Spreads scope (.inclusion i :: rest) (ps ++ qs)

/-- Applies filters one after the other, and does something else where one may have to wait. -/
def runStepsElse (instead : Hole → Step → Value → Except Fault Value) (h : Hole) :
    List Step → Value → Except Fault Value
  | [], v => .ok v
  | s :: rest, v =>
    match s.filter with
    | .waiting _ => instead h s v
    | .immediate run =>
      match run v s.args with
      | .error reason => .error (stepFault h s v reason)
      | .ok w => runStepsElse instead h rest w

namespace Plan

variable (instead : Hole → Step → Value → Except Fault Value)

/-- The text of a hole, with something else done where a filter may have to wait. -/
def fillElse (p : Plan) (context : Value) (h : Hole) : Except Fault String :=
  match p.filling context h with
  | .error f => .error f
  | .ok (.substitute s) => .ok s
  | .ok (.found v) => (runStepsElse instead h h.steps v).map Value.display

/-- The text of parts, with something else done where a filter may have to wait. -/
def renderPartsElse (p : Plan) (context : Value) : List Part → Except Fault String
  | [] => .ok ""
  | .literal s :: rest => (renderPartsElse p context rest).map (s ++ ·)
  | .hole h :: rest =>
    match p.fillElse instead context h with
    | .error f => .error f
    | .ok s => (renderPartsElse p context rest).map (s ++ ·)

/-- Fills a plan in at once, with something else done where a filter may have to wait, but with
    the same look at all holes in front. -/
def renderElse (p : Plan) (context : Value) : Except Fault String :=
  match p.body with
  | .plain s => .ok s
  | .mixed ps =>
    match p.waitingFilter? with
    | some (filter, placeholder) => .error (.waitingFilter filter placeholder)
    | none => p.renderPartsElse instead context ps

end Plan

/-- The holes of expanded nodes are the placeholders of the nodes, and of all that they include,
    in document order. -/
theorem forall₂_holeOf_of_expand {scope : Scope} {active : List String} {ns : List Node}
    {parts : List Part} (hexpand : expand scope active ns = .ok parts) :
    ∃ ps, scope.Spreads ns ps ∧
      List.Forall₂ (fun p h => scope.holeOf p = .ok h) ps (parts.filterMap Part.hole?) := by
  fun_induction expand scope active ns generalizing parts with
  | case1 =>
      cases hexpand
      exact ⟨[], .nil, .nil⟩
  | case2 => cases hexpand
  | case3 active s span rest qs hrest ih =>
      cases hexpand
      rcases ih hrest with ⟨ps, hspreads, hholes⟩
      exact ⟨ps, .text hspreads, hholes⟩
  | case4 => cases hexpand
  | case5 => cases hexpand
  | case6 active p rest h hole qs hrest ih =>
      cases hexpand
      rcases ih hrest with ⟨ps, hspreads, hholes⟩
      exact ⟨p :: ps, .placeholder hspreads, .cons hole hholes⟩
  | case7 => cases hexpand
  | case8 => cases hexpand
  | case9 => cases hexpand
  | case10 active i rest inner henter parts' hinner qs hrest ihinner ihrest =>
      cases hexpand
      -- What is included stands in the place of the inclusion, among the nodes and in the plan.
      rcases ihinner hinner with ⟨ps, hspreads, hholes⟩
      rcases ihrest hrest with ⟨ps', hspreads', hholes'⟩
      refine ⟨ps ++ ps', .inclusion (registered?_of_enter henter) hspreads hspreads', ?_⟩
      rw [List.filterMap_append]
      exact List.rel_append hholes hholes'

theorem forall₂_holeOf_of_compileSource {scope : Scope} {source : String} {plan : Plan}
    (hplan : compileSource scope source = .ok plan) :
    ∃ ns ps, readTemplate source = .ok ns ∧ scope.Spreads ns ps ∧
      List.Forall₂ (fun p h => scope.holeOf p = .ok h) ps plan.holes := by
  unfold compileSource at hplan
  split at hplan
  · cases hplan
  · next ns hread =>
      unfold compile at hplan
      split at hplan
      · cases hplan
      · next parts hexpand =>
          cases hplan
          rcases forall₂_holeOf_of_expand hexpand with ⟨ps, hspreads, hholes⟩
          refine ⟨ns, ps, hread, hspreads, ?_⟩
          rwa [holes_ofParts, holes_mergeParts]

section

variable {instead : Hole → Step → Value → Except Fault Value} {plan : Plan} {context : Value}

/-- With the refusal in its own place, steps are run as they are. -/
theorem runStepsElse_refusal (h : Hole) (steps : List Step) (v : Value) :
    runStepsElse (fun h s _ => .error (.waitingFilter s.name h.key)) h steps v =
      runSteps h steps v := by
  fun_induction runSteps h steps v with
  | case1 => rfl
  | case2 s rest v run hfilter => simp only [runStepsElse, hfilter]
  | case3 s rest v run hfilter reason hrun => simp only [runStepsElse, hfilter, hrun]
  | case4 s rest v run hfilter w hrun ih => simp only [runStepsElse, hfilter, hrun, ih]

/-- Where no step may have to wait, it does not matter what would be done otherwise. -/
theorem runStepsElse_congr {instead' : Hole → Step → Value → Except Fault Value} {h : Hole}
    {steps : List Step} (himmediate : ∀ s ∈ steps, s.filter.isWaiting = false) (v : Value) :
    runStepsElse instead h steps v = runStepsElse instead' h steps v := by
  induction steps generalizing v with
  | nil => rfl
  | cons s steps ih =>
      rcases List.forall_mem_cons.mp himmediate with ⟨hs, hsteps⟩
      unfold runStepsElse
      cases hfilter : s.filter with
      | waiting run =>
          -- This is the only place where the two are different.
          rw [hfilter] at hs
          cases hs
      | immediate run => simp only [ih hsteps]

theorem runStepsElse_eq {h : Hole} (himmediate : h.IsImmediate) (v : Value) :
    runStepsElse instead h h.steps v = runSteps h h.steps v :=
  (runStepsElse_congr himmediate v).trans (runStepsElse_refusal h h.steps v)

theorem fillElse_eq {h : Hole} (himmediate : h.IsImmediate) :
    plan.fillElse instead context h = plan.fill context h := by
  unfold Plan.fillElse Plan.fill
  cases plan.filling context h with
  | error f => rfl
  | ok filling =>
      cases filling with
      | substitute s => rfl
      | found v => simp only [runStepsElse_eq himmediate]

theorem renderPartsElse_eq {ps : List Part}
    (himmediate : ∀ h ∈ ps.filterMap Part.hole?, h.IsImmediate) :
    plan.renderPartsElse instead context ps = plan.renderParts context ps := by
  induction ps with
  | nil => rfl
  | cons part ps ih =>
      cases part with
      | literal s => rw [Plan.renderPartsElse, Plan.renderParts, ih himmediate]
      | hole h =>
          rcases List.forall_mem_cons.mp himmediate with ⟨hh, hrest⟩
          rw [Plan.renderPartsElse, Plan.renderParts, fillElse_eq hh]
          cases plan.fill context h with
          | error f => rfl
          | ok s => simp only [ih hrest]

theorem isImmediate_of_waitingFilter?_eq_none {ps : List Part} (hbody : plan.body = .mixed ps)
    (hnone : plan.waitingFilter? = none) : ∀ h ∈ ps.filterMap Part.hole?, h.IsImmediate := by
  have hneeds : plan.needsWaiting = false := by rw [Plan.needsWaiting, hnone, Option.isSome_none]
  have hall := isImmediate_of_needsWaiting hneeds
  rwa [Plan.holes, Plan.parts, hbody] at hall

theorem not_isImmediate_iff {h : Hole} :
    ¬ h.IsImmediate ↔ ∃ s ∈ h.steps, s.filter.isWaiting = true := by
  unfold Hole.IsImmediate
  simp only [not_forall, Bool.not_eq_false, exists_prop]

/-- The first step that may have to wait is what a search among the steps finds. -/
theorem waitingStep?_eq_some_iff {h : Hole} {s : Step} :
    h.waitingStep? = some s ↔ IsFirst (fun s => s.filter.isWaiting = true) h.steps s := by
  unfold Hole.waitingStep?
  rw [List.find?_eq_some_iff_append]
  constructor
  · rintro ⟨hs, before, after, hsteps, hbefore⟩
    exact ⟨before, after, hsteps, fun s' hs' => by simpa using hbefore s' hs', hs⟩
  · rintro ⟨before, after, hsteps, hbefore, hs⟩
    exact ⟨hs, before, after, hsteps, fun s' hs' => by simpa using hbefore s' hs'⟩

theorem waitingStep?_eq_none_iff {h : Hole} : h.waitingStep? = none ↔ h.IsImmediate := by
  simp only [Hole.waitingStep?, List.find?_eq_none, Hole.IsImmediate, Bool.not_eq_true]

/-- A plan has to wait exactly if a filter in one of its holes may have to. -/
theorem needsWaiting_iff : plan.needsWaiting = true ↔
    ∃ h ∈ plan.holes, ∃ s ∈ h.steps, s.filter.isWaiting = true := by
  simp only [← not_isImmediate_iff]
  constructor
  · intro hneeds
    by_contra! himmediate
    rw [Plan.needsWaiting, waitingFilter?_eq_none himmediate] at hneeds
    cases hneeds
  · rintro ⟨h, hh, hnot⟩
    by_contra hneeds
    exact hnot (isImmediate_of_needsWaiting (Bool.eq_false_iff.mpr hneeds) h hh)

/-- What the plan comes upon first is what is first among its holes and their steps. -/
theorem waitingFilter?_eq_some_iff {filter placeholder : String} :
    plan.waitingFilter? = some (filter, placeholder) ↔ plan.Refuses filter placeholder := by
  unfold Plan.waitingFilter?
  rw [List.findSome?_eq_some_iff]
  constructor
  · rintro ⟨before, h, after, hholes, hstep, hbefore⟩
    rcases Option.map_eq_some_iff.mp hstep with ⟨s, hs, heq⟩
    cases heq
    have hfirst := waitingStep?_eq_some_iff.mp hs
    refine ⟨h, s, ⟨before, after, hholes, fun h' hh' => ?_, fun himmediate => ?_⟩, hfirst, rfl, rfl⟩
    · rw [not_not]
      exact waitingStep?_eq_none_iff.mp (Option.map_eq_none_iff.mp (hbefore h' hh'))
    · rw [waitingStep?_eq_none_iff.mpr himmediate] at hs
      cases hs
  · rintro ⟨h, s, ⟨before, after, hholes, hbefore, _⟩, hfirst, rfl, rfl⟩
    refine ⟨before, h, after, hholes, ?_, fun h' hh' => ?_⟩
    · rw [waitingStep?_eq_some_iff.mpr hfirst]
      rfl
    · rw [waitingStep?_eq_none_iff.mpr (not_not.mp (hbefore h' hh'))]
      rfl

/-- Running steps at once refuses only at a step that may have to wait. -/
theorem exists_waiting_of_runSteps {h : Hole} {steps : List Step} {v : Value}
    {filter placeholder : String}
    (hrun : runSteps h steps v = .error (.waitingFilter filter placeholder)) :
    ∃ s ∈ steps, s.filter.isWaiting = true := by
  fun_induction runSteps h steps v with
  | case1 => cases hrun
  | case2 s rest v run hfilter =>
      refine ⟨s, List.mem_cons_self, ?_⟩
      rw [hfilter]
      rfl
  | case3 => cases hrun
  | case4 s rest v run hfilter w hw ih =>
      rcases ih hrun with ⟨s', hs', hwaiting⟩
      exact ⟨s', List.mem_cons_of_mem _ hs', hwaiting⟩

theorem eq_error_of_map_error {α β ε : Type} {r : Except ε α} {f : α → β} {e : ε}
    (h : r.map f = .error e) : r = .error e := by
  cases r with
  | error e' =>
      cases h
      rfl
  | ok a => cases h

theorem not_isImmediate_of_fill {h : Hole} {filter placeholder : String}
    (hfill : plan.fill context h = .error (.waitingFilter filter placeholder)) :
    ¬ h.IsImmediate := by
  unfold Plan.fill Plan.filling at hfill
  cases hlookup : context.lookup h.path with
  | none =>
      rw [hlookup] at hfill
      -- A value that is missing never makes a plan refuse.
      cases hpolicy : plan.whenAbsent <;> simp [hpolicy] at hfill
  | some v =>
      rw [hlookup] at hfill
      exact not_isImmediate_iff.mpr (exists_waiting_of_runSteps (eq_error_of_map_error hfill))

/-- Filling parts in refuses only at a hole with a filter that may have to wait. -/
theorem exists_waiting_of_renderParts {ps : List Part} {filter placeholder : String}
    (hrender : plan.renderParts context ps = .error (.waitingFilter filter placeholder)) :
    ∃ h ∈ ps.filterMap Part.hole?, ¬ h.IsImmediate := by
  fun_induction Plan.renderParts plan context ps with
  | case1 => cases hrender
  | case2 s rest ih => exact ih (eq_error_of_map_error hrender)
  | case3 h rest f hfill =>
      cases hrender
      exact ⟨h, List.mem_cons_self, not_isImmediate_of_fill hfill⟩
  | case4 h rest s hfill ih =>
      rcases ih (eq_error_of_map_error hrender) with ⟨h', hh', hwaiting⟩
      exact ⟨h', List.mem_cons_of_mem _ hh', hwaiting⟩

/-- A plan refuses what it comes upon first, whatever the data. -/
theorem render_eq_waitingFilter_iff {filter placeholder : String} :
    plan.render context = .error (.waitingFilter filter placeholder) ↔
      plan.waitingFilter? = some (filter, placeholder) := by
  unfold Plan.render
  cases hbody : plan.body with
  | plain s => simp [Plan.waitingFilter?, Plan.holes, Plan.parts, hbody]
  | mixed ps =>
      cases hwaiting : plan.waitingFilter? with
      | some found => simp [Prod.ext_iff]
      | none =>
          -- Nothing was found in front, so no hole has anything to refuse.
          simp only [reduceCtorEq, iff_false]
          intro hrender
          rcases exists_waiting_of_renderParts hrender with ⟨h, hh, hnot⟩
          exact hnot (isImmediate_of_waitingFilter?_eq_none hbody hwaiting h hh)

/-- The refusal where the steps of a hole are run is out of reach. Anything else might be done
    there, and no plan would show it. -/
theorem renderElse_eq (instead : Hole → Step → Value → Except Fault Value) :
    plan.renderElse instead context = plan.render context := by
  unfold Plan.renderElse Plan.render
  cases hbody : plan.body with
  | plain s => rfl
  | mixed ps =>
      cases hwaiting : plan.waitingFilter? with
      | some found => rfl
      | none => exact renderPartsElse_eq (isImmediate_of_waitingFilter?_eq_none hbody hwaiting)

end

/-- A plan refuses to be filled in at once exactly if a filter in one of its holes may have to
    wait, where the holes are the placeholders of the source, and of what it includes, in document
    order. The data have no say in it. What is named is the first filter of that sort of the first
    placeholder that has one; and the other refusal, in front of such a filter when its turn
    comes, is never needed. -/
theorem refuses_iff_waits (plan : Plan) :
    (plan.needsWaiting = true ↔
        ∃ h ∈ plan.holes, ∃ s ∈ h.steps, s.filter.isWaiting = true) ∧
      (∀ scope source, compileSource scope source = .ok plan →
        ∃ ns ps, readTemplate source = .ok ns ∧ scope.Spreads ns ps ∧
          List.Forall₂ (fun p h => scope.holeOf p = .ok h) ps plan.holes) ∧
      ∀ context,
        ((∃ filter placeholder,
            plan.render context = .error (.waitingFilter filter placeholder)) ↔
          plan.needsWaiting = true) ∧
        (∀ filter placeholder,
          plan.render context = .error (.waitingFilter filter placeholder) ↔
            plan.Refuses filter placeholder) ∧
        ∀ instead, plan.renderElse instead context = plan.render context := by
  refine ⟨needsWaiting_iff, fun scope source hplan => forall₂_holeOf_of_compileSource hplan,
    fun context => ⟨?_, fun filter placeholder => ?_, fun instead => renderElse_eq instead⟩⟩
  · rw [Plan.needsWaiting, Option.isSome_iff_exists, Prod.exists]
    exact exists₂_congr fun filter placeholder => render_eq_waitingFilter_iff
  · exact render_eq_waitingFilter_iff.trans waitingFilter?_eq_some_iff

/-- A filter that never works. -/
def balk : Filter := .immediate fun _ _ => .error (.other "no")

/-- A filter that may have to wait. -/
def ponder : Filter := .waiting fun v _ => .done (.ok v)

/-- A scope in which nothing may be missing, with a signature to include. -/
def memoScope : Scope where
  filters := (Dictionary.empty.insert "balk" ⟨balk, .caller⟩).insert "ponder" ⟨ponder, .caller⟩
  templates := Dictionary.empty.insert "sig" "\x7bme|balk|ponder\x7d"
  options := { strict := true }

/-- A memo with something that may well be missing in front of its signature. -/
def memo : String := "\x7bgone\x7d\x7b>sig\x7d"

/-- The plan of the memo. -/
def memoPlan : Plan where
  body := .mixed [.hole ⟨["gone"], []⟩,
    .hole ⟨["me"], [⟨"balk", [], balk⟩, ⟨"ponder", [], ponder⟩]⟩]
  whenAbsent := .error

theorem compileSource_memo : compileSource memoScope memo = .ok memoPlan := by
  have hread : readTemplate memo =
      .ok [.placeholder ⟨["gone"], [], ⟨0, 6⟩⟩, .inclusion ⟨"sig", ⟨6, 12⟩⟩] := by
    decide +kernel
  have hsig : readTemplate "\x7bme|balk|ponder\x7d" =
      .ok [.placeholder ⟨["me"], [⟨"balk", [], ⟨3, 8⟩⟩, ⟨"ponder", [], ⟨8, 15⟩⟩], ⟨0, 16⟩⟩] := by
    decide +kernel
  have henter : memoScope.enter [] "sig" =
      .ok [.placeholder ⟨["me"], [⟨"balk", [], ⟨3, 8⟩⟩, ⟨"ponder", [], ⟨8, 15⟩⟩], ⟨0, 16⟩⟩] := by
    unfold Scope.enter
    rw [if_neg List.not_mem_nil]
    simp only [show memoScope.templates.get? "sig" = some "\x7bme|balk|ponder\x7d" from rfl, hsig]
  unfold compileSource compile
  simp only [hread, expand, expand_inclusion, henter, Scope.holeOf]
  rfl

/-- Nothing is there for the memo, and its signature would fail in any case, but all that it says
    is that it would have to wait. -/
theorem refuses_iff_waits_memo :
    compileSource memoScope memo = .ok memoPlan ∧
      (∃ ns ps, readTemplate memo = .ok ns ∧ memoScope.Spreads ns ps ∧
        List.Forall₂ (fun p h => memoScope.holeOf p = .ok h) ps memoPlan.holes) ∧
      memoPlan.needsWaiting = true ∧
      memoPlan.Refuses "ponder" "me" ∧
      memoPlan.render .null = .error (.waitingFilter "ponder" "me") ∧
      ∀ instead, memoPlan.renderElse instead .null =
        .error (.waitingFilter "ponder" "me") := by
  have hmemo := refuses_iff_waits memoPlan
  have hrender : memoPlan.render .null = .error (.waitingFilter "ponder" "me") := rfl
  rcases hmemo.2.2 .null with ⟨hneeds, hrefuses, hinstead⟩
  exact ⟨compileSource_memo, hmemo.2.1 _ _ compileSource_memo, hneeds.mp ⟨_, _, hrender⟩,
    (hrefuses _ _).mp hrender, hrender, fun instead => (hinstead instead).trans hrender⟩

end Letterpress
