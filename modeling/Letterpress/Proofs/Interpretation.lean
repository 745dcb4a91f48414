import Letterpress.Template.Expansion
import Letterpress.Template.Rendering
import Mathlib.Data.List.Forall2

/-!
# Interpretation

What a template means, said without compiling it. The interpreter walks the nodes in document
order and writes as it goes: a text as it is, a placeholder by looking its path up and applying
its filters there and then, an inclusion by walking the nodes of the template it names in the
same place and for the same data.

A plan is made from the same nodes in another way. Inclusions are spliced in, neighbouring texts
are joined, filters are found before any data is there, and a template without placeholders
becomes a plain text. None of that may show. `interprets_iff_render` says so: wherever a plan can
be made, filling it in at once gives what the interpreter gives, and nothing else, be it a text
or the first fault in document order.

The interpreter is a relation, because nothing bounds how deep templates include each other, and
one that includes itself has no meaning at all. Only a plan shows that the walk comes to an end.

## Main definitions

* `presentField`, `seek`: Goes down a path, one segment at a time.
* `absence`: What stands for a placeholder whose path leads nowhere.
* `applyUse`: Applies one filter as it is written.
* `interpretPlaceholder`: The text of a placeholder.
* `Scope.registered?`: The nodes that an inclusion stands for.
* `Interprets`: The meaning of nodes.
* `Hole.IsImmediate`: No filter of a hole may have to wait.

## Theorems

* `seek_eq_lookup`: Going down a path finds what looking it up finds.
* `forall₂_of_mapM_ok`: A successful pass over a list pairs its items with their results.
* `runSteps_eq_foldlM`: The steps of a hole do what the filters of its placeholder do.
* `fill_eq_interpretPlaceholder`: A hole is filled with the text of its placeholder.
* `renderParts_append`: Parts are rendered one after the other.
* `renderParts_mergeParts`: Joining texts does not show.
* `holes_mergeParts`: Joining texts keeps the holes.
* `render_eq_renderParts`: Without filters that wait, a plan is its parts.
* `interprets_unique`: Nodes mean one thing at most.
* `interprets_of_expand`: Expanded nodes mean what their parts render to.
* `interprets_render`: So do compiled nodes and their plan.
* `interprets_iff_render`: A plan renders to the meaning of its nodes.
-/

namespace Letterpress

/-- The field of a value, unless it is missing or null. -/
def presentField (v : Value) (key : String) : Option Value :=
  (v.get? key).filter (!·.isNull)

/-- Goes down a path from a value, one segment at a time. -/
def seek (v : Value) (path : List String) : Option Value :=
  path.foldlM presentField v

/-- What stands for a placeholder whose path leads nowhere. Strict keys come first. -/
def absence (o : Options) (key : String) : Except Fault String :=
  if o.strict then .error (.missingKey key)
  else
    match o.whenAbsent with
    | .keep => .ok (braced key)
    | .error => .error (.missingKey key)
    | .callback f => .ok (f key)

/-- Applies one filter of a placeholder to a value, as it is written there. -/
def applyUse (table : FilterTable) (key : String) (v : Value) (call : FilterUse) :
    Except Fault Value :=
  match table.filter? call.name with
  | none => .error (.unknownFilter call.name key)
  | some f =>
    match f.outcome v call.args with
    | .error reason => .error (.filterFailed ⟨call.name, key, v, call.args, reason⟩)
    | .ok w => .ok w

/-- The text of a placeholder. Its filters see a value that is there, and nothing else. -/
def interpretPlaceholder (scope : Scope) (context : Value) (p : Placeholder) :
    Except Fault String :=
  match seek context p.path with
  | none => absence scope.options p.key
  | some v => (p.filters.foldlM (applyUse scope.filters p.key) v).map Value.display

/-- The nodes of a template that is registered and can be read. -/
def Scope.registered? (scope : Scope) (name : String) : Option (List Node) :=
  match scope.templates.get? name with
  | none => none
  | some source => (readTemplate source).toOption

/-- The meaning of nodes for some data: their text, or the first fault in document order. -/
inductive Interprets (scope : Scope) (context : Value) :
    List Node → Except Fault String → Prop where
  | done : Interprets scope context [] (.ok "")
  | text {s : String} {span : Span} {rest : List Node} {r : Except Fault String}
      (hrest : Interprets scope context rest r) :
      Interprets scope context (.text s span :: rest) (r.map (s ++ ·))
  | placeholder {p : Placeholder} {rest : List Node} {s : String} {r : Except Fault String}
      (hp : interpretPlaceholder scope context p = .ok s)
      (hrest : Interprets scope context rest r) :
      Interprets scope context (.placeholder p :: rest) (r.map (s ++ ·))
  | placeholderFault {p : Placeholder} {rest : List Node} {f : Fault}
      (hp : interpretPlaceholder scope context p = .error f) :
      Interprets scope context (.placeholder p :: rest) (.error f)
  | inclusion {i : Inclusion} {rest inner : List Node} {s : String} {r : Except Fault String}
      (hregistered : scope.registered? i.name = some inner)
      (hinner : Interprets scope context inner (.ok s))
      (hrest : Interprets scope context rest r) :
      Interprets scope context (.inclusion i :: rest) (r.map (s ++ ·))
  | inclusionFault {i : Inclusion} {rest inner : List Node} {f : Fault}
      (hregistered : scope.registered? i.name = some inner)
      (hinner : Interprets scope context inner (.error f)) :
      Interprets scope context (.inclusion i :: rest) (.error f)

/-- No filter of the hole may have to wait. -/
def Hole.IsImmediate (h : Hole) : Prop :=
  ∀ s ∈ h.steps, s.filter.isWaiting = false

instance (h : Hole) : Decidable h.IsImmediate :=
  inferInstanceAs (Decidable (∀ s ∈ h.steps, s.filter.isWaiting = false))

/-- The step that a filter of a placeholder becomes. -/
def IsResolved (table : FilterTable) (call : FilterUse) (s : Step) : Prop :=
  s.name = call.name ∧ s.args = call.args ∧ table.filter? call.name = some s.filter

theorem lookup_cons (key : String) (path : List String) (v : Value) :
    v.lookup (key :: path) = (presentField v key).bind (Value.lookup path) := by
  rw [Value.lookup, presentField]
  cases v.get? key with
  | none => rfl
  | some w => cases w <;> rfl

theorem seek_eq_lookup (path : List String) (v : Value) : seek v path = v.lookup path := by
  unfold seek
  induction path generalizing v with
  | nil => rfl
  | cons key path ih =>
      rw [List.foldlM_cons, lookup_cons]
      cases presentField v key with
      | none => rfl
      | some w => exact ih w

theorem exists_ok_of_bind_ok {α β ε : Type} {x : Except ε α} {f : α → Except ε β} {b : β}
    (h : (x >>= f) = .ok b) : ∃ a, x = .ok a ∧ f a = .ok b := by
  cases x with
  | error e => cases h
  | ok a => exact ⟨a, rfl, h⟩

theorem forall₂_of_mapM_ok {α β ε : Type} {f : α → Except ε β} {xs : List α} {ys : List β}
    (h : xs.mapM f = .ok ys) : List.Forall₂ (fun x y => f x = .ok y) xs ys := by
  induction xs generalizing ys with
  | nil =>
      rw [List.mapM_nil] at h
      cases h
      exact .nil
  | cons x xs ih =>
      rw [List.mapM_cons] at h
      rcases exists_ok_of_bind_ok h with ⟨y, hy, h⟩
      rcases exists_ok_of_bind_ok h with ⟨zs, hzs, h⟩
      cases h
      exact .cons hy (ih hzs)

/-- The filters of a hole are those of its placeholder, in the same order. -/
theorem isResolved_of_holeOf {scope : Scope} {p : Placeholder} {h : Hole}
    (hole : scope.holeOf p = .ok h) :
    h.path = p.path ∧ List.Forall₂ (IsResolved scope.filters) p.filters h.steps := by
  unfold Scope.holeOf at hole
  rcases exists_ok_of_bind_ok hole with ⟨steps, hsteps, hh⟩
  cases hh
  refine ⟨rfl, (forall₂_of_mapM_ok hsteps).imp fun call s hcall => ?_⟩
  cases hfilter : scope.filters.filter? call.name with
  | none =>
      rw [hfilter] at hcall
      cases hcall
  | some f =>
      rw [hfilter] at hcall
      cases hcall
      exact ⟨rfl, rfl, hfilter⟩

theorem runSteps_eq_foldlM {table : FilterTable} {h : Hole} {calls : List FilterUse}
    {steps : List Step} (hsteps : List.Forall₂ (IsResolved table) calls steps)
    (himmediate : ∀ s ∈ steps, s.filter.isWaiting = false) (v : Value) :
    runSteps h steps v = calls.foldlM (applyUse table h.key) v := by
  induction hsteps generalizing v with
  | nil => rfl
  | @cons call s calls steps hs _ ih =>
      rcases hs with ⟨hname, hargs, hfilter⟩
      -- The step has the arguments of its use and the filter of its name.
      have hwait := himmediate s List.mem_cons_self
      have hrest := ih fun s' hs' => himmediate s' (List.mem_cons_of_mem _ hs')
      rw [List.foldlM_cons, applyUse, hfilter, runSteps]
      cases hf : s.filter with
      | waiting run =>
          rw [hf] at hwait
          cases hwait
      | immediate run =>
          have hout : (Filter.immediate run).outcome v call.args = run v s.args := by
            rw [hargs]
            rfl
          simp only [hout]
          cases run v s.args with
          | error reason =>
              simp only [stepFault, hname, hargs]
              rfl
          | ok w => exact hrest w

/-- What a plan puts in place of a value that is missing. -/
theorem filling_of_lookup_none {plan : Plan} {o : Options} (hplan : plan.whenAbsent = o.effective)
    {context : Value} {h : Hole} (hnone : context.lookup h.path = none) :
    plan.filling context h = (absence o h.key).map Filling.substitute := by
  unfold Plan.filling absence
  rw [hnone, hplan, Options.effective]
  by_cases hstrict : o.strict = true
  · rw [if_pos hstrict, if_pos hstrict]
    rfl
  · rw [if_neg hstrict, if_neg hstrict]
    cases o.whenAbsent <;> rfl

theorem fill_eq_interpretPlaceholder {scope : Scope} {p : Placeholder} {h : Hole} {plan : Plan}
    (hole : scope.holeOf p = .ok h) (himmediate : h.IsImmediate)
    (hplan : plan.whenAbsent = scope.options.effective) (context : Value) :
    plan.fill context h = interpretPlaceholder scope context p := by
  rcases isResolved_of_holeOf hole with ⟨hpath, hsteps⟩
  have hkey : h.key = p.key := by rw [Hole.key, Placeholder.key, hpath]
  unfold Plan.fill interpretPlaceholder
  rw [seek_eq_lookup, ← hpath, ← hkey]
  cases hlookup : context.lookup h.path with
  | none =>
      rw [filling_of_lookup_none hplan hlookup]
      cases absence scope.options h.key <;> rfl
  | some v =>
      have hfound : plan.filling context h = .ok (.found v) := by rw [Plan.filling, hlookup]
      rw [hfound]
      simp only [runSteps_eq_foldlM hsteps himmediate]

theorem map_append_map (s t : String) (r : Except Fault String) :
    (r.map (t ++ ·)).map (s ++ ·) = r.map (s ++ t ++ ·) := by
  cases r with
  | error f => rfl
  | ok u => simp only [Except.map, String.append_assoc]

theorem map_empty_append (r : Except Fault String) : r.map ("" ++ ·) = r := by
  cases r with
  | error f => rfl
  | ok u => simp only [Except.map, String.empty_append]

theorem renderParts_append (plan : Plan) (context : Value) (ps qs : List Part) :
    plan.renderParts context (ps ++ qs) =
      match plan.renderParts context ps with
      | .error f => .error f
      | .ok s => (plan.renderParts context qs).map (s ++ ·) := by
  induction ps with
  | nil => simp only [List.nil_append, Plan.renderParts, map_empty_append]
  | cons part ps ih =>
      cases part with
      | literal s =>
          simp only [List.cons_append, Plan.renderParts, ih]
          cases plan.renderParts context ps with
          | error f => rfl
          | ok t => exact map_append_map s t _
      | hole h =>
          simp only [List.cons_append, Plan.renderParts, ih]
          cases plan.fill context h with
          | error f => rfl
          | ok s =>
              cases plan.renderParts context ps with
              | error f => rfl
              | ok t => exact map_append_map s t _

/-- Joining neighbouring texts, and leaving out empty ones, does not show in a result. -/
theorem renderParts_mergeParts (plan : Plan) (context : Value) (ps : List Part) :
    plan.renderParts context (mergeParts ps) = plan.renderParts context ps := by
  fun_induction mergeParts ps with
  | case1 => rfl
  | case2 h rest ih => simp only [Plan.renderParts, ih]
  | case3 s rest hempty ih =>
      rw [Plan.renderParts, ih, String.isEmpty_iff.mp hempty, map_empty_append]
  | case4 s rest hfull t rest' hmerged ih =>
      simp only [Plan.renderParts]
      rw [← ih, hmerged, Plan.renderParts, map_append_map]
  | case5 s rest hfull hmerged ih => rw [Plan.renderParts, Plan.renderParts, ih]

theorem holes_mergeParts (ps : List Part) :
    (mergeParts ps).filterMap Part.hole? = ps.filterMap Part.hole? := by
  fun_induction mergeParts ps with
  | case1 => rfl
  | case2 h rest ih => simp only [List.filterMap_cons, Part.hole?, ih]
  | case3 s rest hempty ih => simp only [List.filterMap_cons, Part.hole?, ih]
  | case4 s rest hfull t rest' hmerged ih =>
      rw [hmerged] at ih
      simpa only [List.filterMap_cons, Part.hole?] using ih
  | case5 s rest hfull hmerged ih => simp only [List.filterMap_cons, Part.hole?, ih]

/-- A body that is plain has no holes, so the holes of a plan are those of its parts. -/
theorem holes_ofParts (ps : List Part) (whenAbsent : AbsencePolicy) :
    (⟨.ofParts ps, whenAbsent⟩ : Plan).holes = ps.filterMap Part.hole? := by
  unfold Body.ofParts
  split <;> rfl

theorem waitingFilter?_eq_none {plan : Plan} (himmediate : ∀ h ∈ plan.holes, h.IsImmediate) :
    plan.waitingFilter? = none := by
  unfold Plan.waitingFilter?
  rw [List.findSome?_eq_none_iff]
  intro h hh
  have hnone : h.waitingStep? = none := by
    unfold Hole.waitingStep?
    rw [List.find?_eq_none]
    intro s hs
    rw [himmediate h hh s hs]
    exact Bool.false_ne_true
  rw [hnone]
  rfl

/-- Without filters that wait, a plan renders to its parts. The plain texts are no exception. -/
theorem render_eq_renderParts {ps : List Part} {plan : Plan} (hbody : plan.body = .ofParts ps)
    (himmediate : ∀ h ∈ plan.holes, h.IsImmediate) (context : Value) :
    plan.render context = plan.renderParts context ps := by
  unfold Plan.render
  rw [waitingFilter?_eq_none himmediate, hbody]
  unfold Body.ofParts
  split
  · next s hplain =>
      split at hplain
      · cases hplain
        rfl
      · cases hplain
        simp only [Plan.renderParts, Except.map, String.append_empty]
      · cases hplain
  · next qs hmixed =>
      split at hmixed
      · cases hmixed
      · cases hmixed
      · cases hmixed
        rfl

theorem interprets_unique {scope : Scope} {context : Value} {ns : List Node}
    {r r' : Except Fault String} (h : Interprets scope context ns r)
    (h' : Interprets scope context ns r') : r = r' := by
  induction h generalizing r' with
  | done =>
      cases h'
      rfl
  | text _ ih =>
      cases h' with
      | text hrest' => rw [ih hrest']
  | placeholder hp _ ih =>
      cases h' with
      | placeholder hp' hrest' =>
          rw [hp] at hp'
          cases hp'
          rw [ih hrest']
      | placeholderFault hp' =>
          rw [hp] at hp'
          cases hp'
  | placeholderFault hp =>
      cases h' with
      | placeholder hp' _ =>
          rw [hp] at hp'
          cases hp'
      | placeholderFault hp' =>
          rw [hp] at hp'
          cases hp'
          rfl
  | inclusion hregistered _ _ ihinner ihrest =>
      -- Both walks enter the same nodes, so they agree on whether there is a fault inside.
      cases h' with
      | inclusion hregistered' hinner' hrest' =>
          rw [hregistered] at hregistered'
          cases hregistered'
          cases ihinner hinner'
          rw [ihrest hrest']
      | inclusionFault hregistered' hinner' =>
          rw [hregistered] at hregistered'
          cases hregistered'
          cases ihinner hinner'
  | inclusionFault hregistered _ ihinner =>
      cases h' with
      | inclusion hregistered' hinner' _ =>
          rw [hregistered] at hregistered'
          cases hregistered'
          cases ihinner hinner'
      | inclusionFault hregistered' hinner' =>
          rw [hregistered] at hregistered'
          cases hregistered'
          exact ihinner hinner'

theorem registered?_of_enter {scope : Scope} {active : List String} {name : String}
    {ns : List Node} (h : scope.enter active name = .ok ns) :
    scope.registered? name = some ns := by
  unfold Scope.enter at h
  unfold Scope.registered?
  by_cases hactive : name ∈ active
  · rw [if_pos hactive] at h
    cases h
  · rw [if_neg hactive] at h
    cases hsource : scope.templates.get? name with
    | none =>
        simp only [hsource] at h
        cases h
    | some source =>
        cases hread : readTemplate source with
        | error e =>
            simp only [hsource, hread] at h
            cases h
        | ok ms =>
            simp only [hsource, hread] at h
            cases h
            simp only [hread, Except.toOption]

theorem interprets_of_expand {scope : Scope} {plan : Plan}
    (hplan : plan.whenAbsent = scope.options.effective) (context : Value) {active : List String}
    {ns : List Node} {ps : List Part} (hexpand : expand scope active ns = .ok ps)
    (himmediate : ∀ h ∈ ps.filterMap Part.hole?, h.IsImmediate) :
    Interprets scope context ns (plan.renderParts context ps) := by
  fun_induction expand scope active ns generalizing ps with
  | case1 =>
      cases hexpand
      exact .done
  | case2 => cases hexpand
  | case3 active s span rest qs hrest ih =>
      cases hexpand
      exact .text (ih hrest himmediate)
  | case4 => cases hexpand
  | case5 => cases hexpand
  | case6 active p rest h hole qs hrest ih =>
      cases hexpand
      have hh : h.IsImmediate := himmediate h List.mem_cons_self
      have hqs := ih hrest fun h' hh' => himmediate h' (List.mem_cons_of_mem _ hh')
      have hfill := fill_eq_interpretPlaceholder hole hh hplan context
      rw [Plan.renderParts]
      cases hp : plan.fill context h with
      | error f => exact .placeholderFault (hfill.symm.trans hp)
      | ok s => exact .placeholder (hfill.symm.trans hp) hqs
  | case7 => cases hexpand
  | case8 => cases hexpand
  | case9 => cases hexpand
  | case10 active i rest inner henter ps hinner qs hrest ihinner ihrest =>
      cases hexpand
      -- The parts of the included template come first, and a fault among them ends the walk.
      rw [List.filterMap_append] at himmediate
      have hps := ihinner hinner fun h hh => himmediate h (List.mem_append_left _ hh)
      have hqs := ihrest hrest fun h hh => himmediate h (List.mem_append_right _ hh)
      have hregistered := registered?_of_enter henter
      rw [renderParts_append]
      cases hr : plan.renderParts context ps with
      | error f =>
          rw [hr] at hps
          exact .inclusionFault hregistered hps
      | ok s =>
          rw [hr] at hps
          exact .inclusion hregistered hps hqs

/-- A plan that was made from nodes renders to their meaning. -/
theorem interprets_render {scope : Scope} {ns : List Node} {plan : Plan}
    (hcompile : compile scope ns = .ok plan) (himmediate : ∀ h ∈ plan.holes, h.IsImmediate)
    (context : Value) : Interprets scope context ns (plan.render context) := by
  unfold compile at hcompile
  split at hcompile
  · cases hcompile
  · next ps hexpand =>
      cases hcompile
      rw [render_eq_renderParts rfl himmediate context, renderParts_mergeParts]
      rw [holes_ofParts, holes_mergeParts] at himmediate
      exact interprets_of_expand rfl context hexpand himmediate

/-- Wherever a source can be compiled, its plan renders to the meaning of its nodes, and they mean
    nothing else. Neither the expansion of inclusions, nor the joining of texts, nor the plain
    texts, nor finding the filters in advance can be seen in a result. -/
theorem interprets_iff_render {scope : Scope} {source : String} {plan : Plan}
    (hcompile : compileSource scope source = .ok plan)
    (himmediate : ∀ h ∈ plan.holes, h.IsImmediate) :
    ∃ ns, readTemplate source = .ok ns ∧ ∀ (context : Value) (r : Except Fault String),
      Interprets scope context ns r ↔ plan.render context = r := by
  unfold compileSource at hcompile
  split at hcompile
  · cases hcompile
  · next ns hread =>
      refine ⟨ns, hread, fun context r => ?_⟩
      have hmeaning := interprets_render hcompile himmediate context
      constructor
      · intro h
        exact interprets_unique hmeaning h
      · intro h
        rw [← h]
        exact hmeaning

/-- A filter that raises its voice. -/
def shout : Filter := .immediate fun v _ => .ok (.text (v.display ++ "!"))

/-- A scope with one filter, and one template to include. -/
def letterScope : Scope where
  filters := Dictionary.empty.insert "shout" ⟨shout, .caller⟩
  templates := Dictionary.empty.insert "sig" "-- \x7bme\x7d"
  options := {}

/-- A letter with a signature, which begins with a brace. -/
def letter : String := "\x7b\x7b\x7byou|shout\x7d\x7b> sig\x7d"

/-- The plan of the letter. -/
def letterPlan : Plan where
  body := .mixed [.literal "\x7b", .hole ⟨["you"], [⟨"shout", [], shout⟩]⟩, .literal "-- ",
    .hole ⟨["me"], []⟩]
  whenAbsent := .keep

theorem compileSource_letter : compileSource letterScope letter = .ok letterPlan := by
  have hread : readTemplate letter = .ok [.text "\x7b" ⟨0, 2⟩,
      .placeholder ⟨["you"], [⟨"shout", [], ⟨6, 12⟩⟩], ⟨2, 13⟩⟩, .inclusion ⟨"sig", ⟨13, 20⟩⟩] := by
    decide +kernel
  have hsig : readTemplate "-- \x7bme\x7d" =
      .ok [.text "-- " ⟨0, 3⟩, .placeholder ⟨["me"], [], ⟨3, 7⟩⟩] := by decide +kernel
  have henter : letterScope.enter [] "sig" =
      .ok [.text "-- " ⟨0, 3⟩, .placeholder ⟨["me"], [], ⟨3, 7⟩⟩] := by
    unfold Scope.enter
    rw [if_neg List.not_mem_nil]
    simp only [show letterScope.templates.get? "sig" = some "-- \x7bme\x7d" from rfl, hsig]
  unfold compileSource compile
  simp only [hread, expand, expand_inclusion, henter, Scope.holeOf]
  rfl

theorem interprets_iff_render_letter :
    compileSource letterScope letter = .ok letterPlan ∧
      (∀ h ∈ letterPlan.holes, h.IsImmediate) ∧
      ∃ ns, readTemplate letter = .ok ns ∧ ∀ (context : Value) (r : Except Fault String),
        Interprets letterScope context ns r ↔ letterPlan.render context = r := by
  have himmediate : ∀ h ∈ letterPlan.holes, h.IsImmediate := by decide
  exact ⟨compileSource_letter, himmediate, interprets_iff_render compileSource_letter himmediate⟩

end Letterpress
