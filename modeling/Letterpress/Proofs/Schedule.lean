import Letterpress.Proofs.Interpretation
import Mathlib.Logic.Function.Iterate

/-!
# Schedules

Filling a plan in with waiting works on all holes together, and nothing is promised about the
order: whoever runs it may advance any hole at any time, one of them many times in a row, another
one late. Each filter that waits takes as many steps as it likes, and several of them may fail.
None of this may show. What comes out is what comes out if the holes are filled one after the
other, with the result of each filter taken as if it had been there at once.

The argument is the usual one for tasks that share nothing. Advancing a task keeps the result that
it will have, so every schedule keeps the results of all tasks; and a task is done as soon as it
has been advanced as often as it waits. So the order cannot show in a result, and an order that
comes back to every hole again and again comes to an end.

## Main definitions

* `Pending.step`, `Pending.isDone`, `Pending.waits`: The life of a task.
* `advance`: Advances one of several tasks.
* `IsFair`, `beginning`: An order that comes back to everything, and what it begins with.
* `Filter.settled`, `Plan.settled`: The same without any waiting.
* `Plan.tasks`, `Plan.renderUnder`: Filling in under a schedule.

## Theorems

* `map_result_advance`, `map_result_foldl_advance`: No schedule changes a result.
* `getElem?_foldl_advance`, `all_isDone_iff`: What a schedule does to each task, and to all.
* `exists_all_isDone`: A fair order comes to an end.
* `result_fillWaiting`: A hole is filled with the same text with waiting as without.
* `assemble_eq_renderParts`: The texts of all holes, put into their places.
* `settled_eq`: Where nothing waits, there is no waiting to leave out.
* `renderUnder_eq_settled`: Waiting does not show, under any schedule.
-/

namespace Letterpress

namespace Pending

variable {α : Type u}

/-- Advances a task. One that is done stays as it is. -/
def step : Pending α → Pending α
  | .done a => .done a
  | .later p => p

/-- The result is there. -/
def isDone : Pending α → Bool
  | .done _ => true
  | .later _ => false

/-- How often a task has to be advanced until its result is there. -/
def waits : Pending α → Nat
  | .done _ => 0
  | .later p => p.waits + 1

@[simp]
theorem result_step (p : Pending α) : p.step.result = p.result := by
  cases p <;> rfl

theorem isDone_iterate_step (n : Nat) (p : Pending α) :
    (step^[n] p).isDone = true ↔ p.waits ≤ n := by
  induction n generalizing p with
  | zero => cases p <;> simp [isDone, waits]
  | succ n ih =>
      rw [Function.iterate_succ_apply, ih]
      cases p <;> simp [step, waits]

end Pending

section

variable {α : Type u}

/-- Advances one of several tasks. -/
def advance (tasks : List (Pending α)) (i : Nat) : List (Pending α) :=
  tasks.modify i Pending.step

/-- Advancing one task changes no result. -/
theorem map_result_advance (tasks : List (Pending α)) (i : Nat) :
    (advance tasks i).map Pending.result = tasks.map Pending.result := by
  refine List.ext_getElem? fun k => ?_
  simp only [advance, List.getElem?_map, List.getElem?_modify]
  cases tasks[k]? with
  | none => rfl
  | some p => by_cases hk : i = k <;> simp [hk]

theorem map_result_foldl_advance (tasks : List (Pending α)) (schedule : List Nat) :
    (schedule.foldl advance tasks).map Pending.result = tasks.map Pending.result := by
  induction schedule generalizing tasks with
  | nil => rfl
  | cons i schedule ih => rw [List.foldl_cons, ih, map_result_advance]

/-- Under a schedule every task is advanced as often as the schedule names it. -/
theorem getElem?_foldl_advance (tasks : List (Pending α)) (schedule : List Nat) (k : Nat) :
    (schedule.foldl advance tasks)[k]? = tasks[k]?.map (Pending.step^[schedule.count k]) := by
  induction schedule generalizing tasks with
  | nil => simp
  | cons i schedule ih =>
      rw [List.foldl_cons, ih, advance, List.getElem?_modify]
      by_cases hk : i = k
      · -- The task is advanced now, and then as often as the rest of the schedule says.
        simp [hk, Function.comp_def]
      · simp [hk]

/-- Tasks are done exactly if the schedule has advanced each of them as often as it waits. -/
theorem all_isDone_iff {tasks : List (Pending α)} {schedule : List Nat} :
    (schedule.foldl advance tasks).all Pending.isDone = true ↔
      ∀ k p, tasks[k]? = some p → p.waits ≤ schedule.count k := by
  simp only [List.all_eq_true, List.mem_iff_getElem?, getElem?_foldl_advance,
    Option.map_eq_some_iff]
  constructor
  · intro h k p hp
    exact (Pending.isDone_iterate_step _ p).mp (h _ ⟨k, p, hp, rfl⟩)
  · rintro h _ ⟨k, p, hp, rfl⟩
    exact (Pending.isDone_iterate_step _ p).mpr (h k p hp)

/-- The order comes back to each of so many tasks again and again. -/
def IsFair (tasks : Nat) (order : Nat → Nat) : Prop :=
  ∀ k < tasks, ∀ n, ∃ m ≥ n, order m = k

/-- The beginning of an order. -/
def beginning (order : Nat → Nat) (n : Nat) : List Nat := (List.range n).map order

theorem count_beginning_mono (order : Nat → Nat) (k : Nat) {n m : Nat} (h : n ≤ m) :
    (beginning order n).count k ≤ (beginning order m).count k := by
  have hsub : (List.range n).Sublist (List.range m) := List.range_sublist.mpr h
  exact (hsub.map order).count_le k

theorem exists_count_beginning {tasks : Nat} {order : Nat → Nat} (h : IsFair tasks order)
    {k : Nat} (hk : k < tasks) (c : Nat) : ∃ n, c ≤ (beginning order n).count k := by
  induction c with
  | zero => exact ⟨0, Nat.zero_le _⟩
  | succ c ih =>
      rcases ih with ⟨n, hn⟩
      rcases h k hk n with ⟨m, hm, horder⟩
      refine ⟨m + 1, ?_⟩
      have hmono := count_beginning_mono order k hm
      have hlast : (beginning order (m + 1)).count k = (beginning order m).count k + 1 := by
        simp [beginning, List.range_succ, horder]
      omega

/-- Some beginning of a fair order names each task as often as is wanted for it. -/
theorem exists_counts_beginning {tasks : Nat} {order : Nat → Nat} (h : IsFair tasks order)
    (wanted : Nat → Nat) : ∃ n, ∀ k < tasks, wanted k ≤ (beginning order n).count k := by
  induction tasks with
  | zero => exact ⟨0, fun k hk => absurd hk (Nat.not_lt_zero k)⟩
  | succ tasks ih =>
      rcases ih fun k hk => h k (Nat.lt_succ_of_lt hk) with ⟨n, hn⟩
      rcases exists_count_beginning h (Nat.lt_succ_self tasks) (wanted tasks) with ⟨n', hn'⟩
      -- Beginnings only get longer, so the longer of the two will do for all tasks.
      refine ⟨max n n', fun k hk => ?_⟩
      rcases Nat.lt_succ_iff_lt_or_eq.mp hk with hlt | rfl
      · exact Nat.le_trans (hn k hlt) (count_beginning_mono order k (Nat.le_max_left n n'))
      · exact Nat.le_trans hn' (count_beginning_mono order k (Nat.le_max_right n n'))

/-- Under an order that is fair, all tasks are done from some point on. -/
theorem exists_all_isDone {tasks : List (Pending α)} {order : Nat → Nat}
    (h : IsFair tasks.length order) :
    ∃ n, ∀ m ≥ n, ((beginning order m).foldl advance tasks).all Pending.isDone = true := by
  rcases exists_counts_beginning h fun k => (tasks[k]?.map Pending.waits).getD 0 with ⟨n, hn⟩
  refine ⟨n, fun m hm => all_isDone_iff.mpr fun k p hp => ?_⟩
  have hk : k < tasks.length := (List.getElem?_eq_some_iff.mp hp).1
  have hcount := hn k hk
  simp only [hp, Option.map_some, Option.getD_some] at hcount
  exact Nat.le_trans hcount (count_beginning_mono order k hm)

end

/-- The filter that answers at once what this one answers in the end. -/
def Filter.settled (f : Filter) : Filter := .immediate f.outcome

/-- The step without any waiting. -/
def Step.settled (s : Step) : Step := { s with filter := s.filter.settled }

/-- The hole without any waiting. -/
def Hole.settled (h : Hole) : Hole := { h with steps := h.steps.map Step.settled }

/-- The part without any waiting. -/
def Part.settled : Part → Part
  | .literal s => .literal s
  | .hole h => .hole h.settled

/-- The body without any waiting. -/
def Body.settled : Body → Body
  | .plain s => .plain s
  | .mixed ps => .mixed (ps.map Part.settled)

/-- The plan without any waiting. -/
def Plan.settled (p : Plan) : Plan := { p with body := p.body.settled }

/-- The holes of a plan as tasks. Nothing is begun before it is advanced for the first time. -/
def Plan.tasks (p : Plan) (context : Value) : List (Pending (Except Fault String)) :=
  p.holes.map fun h => .later (p.fillWaiting context h)

/-- Fills a plan in, with the holes advanced in the order of a schedule. There is no answer if a
    hole is still waiting in the end. -/
def Plan.renderUnder (p : Plan) (context : Value) (schedule : List Nat) :
    Option (Except Fault String) :=
  match p.body with
  | .plain s => some (.ok s)
  | .mixed ps =>
    let tasks := schedule.foldl advance (p.tasks context)
    if tasks.all Pending.isDone then some (Plan.assemble ps (tasks.map Pending.result)) else none

theorem result_runStepsWaiting (h : Hole) (steps : List Step) (v : Value) :
    (runStepsWaiting h steps v).result = runSteps h.settled (steps.map Step.settled) v := by
  induction steps generalizing v with
  | nil => rfl
  | cons s steps ih =>
      rw [runStepsWaiting, Pending.result_bind, List.map_cons, runSteps]
      have hout : (s.filter.apply v s.args).result = s.filter.outcome v s.args := rfl
      simp only [hout, Step.settled, Filter.settled]
      cases s.filter.outcome v s.args with
      | error reason => rfl
      | ok w => exact ih w

theorem result_fillWaiting (plan : Plan) (context : Value) (h : Hole) :
    (plan.fillWaiting context h).result = plan.settled.fill context h.settled := by
  have hfilling : plan.settled.filling context h.settled = plan.filling context h := rfl
  unfold Plan.fillWaiting Plan.fill
  rw [hfilling]
  cases plan.filling context h with
  | error f => rfl
  | ok filling =>
      cases filling with
      | substitute s => rfl
      | found v =>
          simp only [Pending.result_map, result_runStepsWaiting]
          rfl

theorem result_tasks (plan : Plan) (context : Value) :
    (plan.tasks context).map Pending.result =
      plan.holes.map fun h => plan.settled.fill context h.settled := by
  simp only [Plan.tasks, List.map_map]
  exact List.map_congr_left fun h _ => result_fillWaiting plan context h

/-- The texts of all holes, put into their places, are the text of the parts, and the first fault
    among them is that of the parts. -/
theorem assemble_eq_renderParts (plan : Plan) (context : Value) (ps : List Part) :
    Plan.assemble ps
        ((ps.filterMap Part.hole?).map fun h => plan.settled.fill context h.settled) =
      plan.settled.renderParts context (ps.map Part.settled) := by
  induction ps with
  | nil => rfl
  | cons part ps ih =>
      cases part <;>
        simp only [List.filterMap_cons, Part.hole?, List.map_cons, Part.settled, Plan.assemble,
          Plan.renderParts, ih]

theorem isImmediate_settled (h : Hole) : h.settled.IsImmediate := by
  intro s hs
  rcases List.mem_map.mp hs with ⟨s', _, rfl⟩
  rfl

theorem holes_settled (plan : Plan) : plan.settled.holes = plan.holes.map Hole.settled := by
  rcases plan with ⟨body, whenAbsent⟩
  cases body with
  | plain s => rfl
  | mixed ps =>
      simp only [Plan.holes, Plan.parts, Plan.settled, Body.settled, List.filterMap_map,
        List.map_filterMap]
      congr 1
      funext part
      cases part <;> rfl

/-- A plan without waiting is rendered part by part. -/
theorem render_settled {plan : Plan} {ps : List Part} (hbody : plan.body = .mixed ps)
    (context : Value) :
    plan.settled.render context = plan.settled.renderParts context (ps.map Part.settled) := by
  have hnone : plan.settled.waitingFilter? = none := by
    refine waitingFilter?_eq_none fun h hh => ?_
    rw [holes_settled] at hh
    rcases List.mem_map.mp hh with ⟨h', _, rfl⟩
    exact isImmediate_settled h'
  unfold Plan.render
  rw [hnone]
  simp only [Plan.settled, hbody, Body.settled]

theorem assemble_tasks {plan : Plan} {ps : List Part} (hbody : plan.body = .mixed ps)
    (context : Value) :
    Plan.assemble ps ((plan.tasks context).map Pending.result) = plan.settled.render context := by
  have hholes : plan.holes = ps.filterMap Part.hole? := by rw [Plan.holes, Plan.parts, hbody]
  rw [result_tasks, hholes, assemble_eq_renderParts, render_settled hbody]

theorem renderUnder_of_all_isDone {plan : Plan} {context : Value} {schedule : List Nat}
    (h : (schedule.foldl advance (plan.tasks context)).all Pending.isDone = true) :
    plan.renderUnder context schedule = some (plan.settled.render context) := by
  unfold Plan.renderUnder
  cases hbody : plan.body with
  | plain s => simp only [Plan.render, Plan.settled, hbody, Body.settled]
  | mixed ps => simp only [h, if_true, map_result_foldl_advance, assemble_tasks hbody]

/-- Whatever the schedule was, an answer is the one without waiting. -/
theorem eq_of_renderUnder {plan : Plan} {context : Value} {schedule : List Nat}
    {r : Except Fault String} (h : plan.renderUnder context schedule = some r) :
    r = plan.settled.render context := by
  by_cases hdone : (schedule.foldl advance (plan.tasks context)).all Pending.isDone = true
  · rw [renderUnder_of_all_isDone hdone] at h
    exact (Option.some.inj h).symm
  · unfold Plan.renderUnder at h
    cases hbody : plan.body with
    | plain s =>
        simp only [hbody, Option.some.injEq] at h
        simp only [Plan.render, Plan.settled, hbody, Body.settled, h]
    | mixed ps =>
        simp only [hbody, if_neg hdone] at h
        cases h

theorem result_renderWaiting (plan : Plan) (context : Value) :
    (plan.renderWaiting context).result = plan.settled.render context := by
  unfold Plan.renderWaiting
  cases hbody : plan.body with
  | plain s => simp only [Plan.render, Plan.settled, hbody, Body.settled, Pending.result_done]
  | mixed ps =>
      have htasks : (plan.tasks context).map Pending.result =
          (plan.holes.map (plan.fillWaiting context)).map Pending.result := by
        simp only [Plan.tasks, List.map_map, Function.comp_def, Pending.result_later]
      simp only [Pending.result_map, Pending.result_all, ← htasks, assemble_tasks hbody]

theorem isImmediate_of_needsWaiting {plan : Plan} (h : plan.needsWaiting = false) :
    ∀ hole ∈ plan.holes, hole.IsImmediate := by
  intro hole hhole s hs
  unfold Plan.needsWaiting Plan.waitingFilter? at h
  rw [Option.isSome_eq_false_iff, Option.isNone_iff_eq_none, List.findSome?_eq_none_iff] at h
  have hnone : hole.waitingStep? = none := Option.map_eq_none_iff.mp (h hole hhole)
  exact Bool.eq_false_iff.mpr (List.find?_eq_none.mp hnone s hs)

theorem Filter.settled_eq {f : Filter} (h : f.isWaiting = false) : f.settled = f := by
  cases f with
  | immediate run => rfl
  | waiting run => cases h

theorem Hole.IsImmediate.settled_eq {h : Hole} (himmediate : h.IsImmediate) : h.settled = h := by
  have hstep : ∀ s ∈ h.steps, s.settled = id s := fun s hs => by
    rw [Step.settled, Filter.settled_eq (himmediate s hs), id]
  rw [Hole.settled, List.map_congr_left hstep, List.map_id]

/-- A plan in which no filter has to wait has no waiting to leave out. -/
theorem settled_eq {plan : Plan} (h : ∀ hole ∈ plan.holes, hole.IsImmediate) :
    plan.settled = plan := by
  rcases plan with ⟨body, whenAbsent⟩
  cases body with
  | plain s => rfl
  | mixed ps =>
      have hpart : ∀ part ∈ ps, part.settled = id part := by
        intro part hmem
        cases part with
        | literal s => rfl
        | hole hole =>
            have hhole : hole ∈ ps.filterMap Part.hole? := List.mem_filterMap.mpr ⟨_, hmem, rfl⟩
            rw [Part.settled, (h hole hhole).settled_eq, id]
      rw [Plan.settled, Body.settled, List.map_congr_left hpart, List.map_id]

/-- Waiting does not show. Whatever the order in which the holes are advanced, the only answer that
    can come out is the one that the holes give one after the other, with the result of every
    filter taken at once; and it does come out under every order that is fair. Where no filter
    has to wait, it is the answer of the plan that is filled in at once. -/
theorem renderUnder_eq_settled (plan : Plan) (context : Value) :
    (∀ schedule r, plan.renderUnder context schedule = some r →
        r = plan.settled.render context) ∧
      (∀ order, IsFair plan.holes.length order → ∃ n, ∀ m ≥ n,
        plan.renderUnder context (beginning order m) = some (plan.settled.render context)) ∧
      (plan.renderWaiting context).result = plan.settled.render context ∧
      (plan.needsWaiting = false → (plan.renderWaiting context).result = plan.render context) := by
  refine ⟨fun schedule r h => eq_of_renderUnder h, fun order hfair => ?_,
    result_renderWaiting plan context, fun hneeds => ?_⟩
  · have hlength : (plan.tasks context).length = plan.holes.length := List.length_map _
    rcases exists_all_isDone (hlength ▸ hfair) with ⟨n, hn⟩
    exact ⟨n, fun m hm => renderUnder_of_all_isDone (hn m hm)⟩
  · rw [result_renderWaiting, settled_eq (isImmediate_of_needsWaiting hneeds)]

/-- A filter that waits for so many steps, and fails then. -/
def failingAfter (steps : Nat) : Filter :=
  .waiting fun _ _ => Pending.later^[steps] (.done (.error (.other "gave up")))

/-- A plan in which the first hole fails later than the second one. -/
def failures : Plan where
  body := .mixed [.hole ⟨["a"], [⟨"slow", ["x"], failingAfter 2⟩]⟩, .literal " ",
    .hole ⟨["b"], [⟨"fast", [], failingAfter 0⟩]⟩]
  whenAbsent := .keep

/-- Data for both holes. -/
def failureData : Value := .record [("a", .bool true), ("b", .bool false)]

/-- The fault of the first hole. -/
def slowFault : Fault := .filterFailed ⟨"slow", "a", .bool true, ["x"], .other "gave up"⟩

theorem isFair_mod_two : IsFair 2 (· % 2) := by
  intro k hk n
  have hmod : (2 * n + k) % 2 = k := by omega
  exact ⟨2 * n + k, by omega, hmod⟩

theorem renderUnder_eq_settled_failures :
    failures.renderUnder failureData [1, 0, 0] = none ∧
      failures.renderUnder failureData [1, 0, 1, 0, 0] = some (.error slowFault) ∧
      .error slowFault = failures.settled.render failureData ∧
      IsFair failures.holes.length (· % 2) ∧
      (∃ n, ∀ m ≥ n, failures.renderUnder failureData (beginning (· % 2) m) =
        some (failures.settled.render failureData)) ∧
      letterPlan.needsWaiting = false ∧
      (letterPlan.renderWaiting failureData).result = letterPlan.render failureData := by
  have hanswer : failures.renderUnder failureData [1, 0, 1, 0, 0] = some (.error slowFault) := rfl
  have hsettled := renderUnder_eq_settled failures failureData
  exact ⟨rfl, hanswer, hsettled.1 _ _ hanswer, isFair_mod_two, hsettled.2.1 _ isFair_mod_two, rfl,
    (renderUnder_eq_settled letterPlan failureData).2.2.2 rfl⟩

end Letterpress
