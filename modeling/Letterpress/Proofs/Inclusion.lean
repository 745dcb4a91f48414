import Letterpress.Proofs.Interpretation
import Mathlib.Logic.Relation

/-!
# Inclusion

When a template can be compiled. The templates of a scope include each other by name, so they
form a graph, and nothing about this graph is promised: it may have circles, the same template may
be reached in many ways, and a name may belong to no template, or to a source that is none.

Compiling walks this graph from some nodes. It comes to an end whatever the graph is like: every
inclusion on the way down takes up one of the registered names, so as many levels as there are
names are enough. A walk that may go down no further than that says the same as one without a
bound. And it comes to a good end exactly if everything it can reach is in order: the names
belong to templates, none of these leads back to itself, and all filters are known.

That a circle is found follows the walk. An inclusion that comes to an end is one whose name is
not active yet, and so are, with more and more active names, all inclusions below it; a path back
to the name would have to end at an active one. For the other direction no active name can be
met again, since from each of them a path leads to the nodes at hand.

## Main definitions

* `Scope.Includes`, `Scope.Reaches`: What leads from template to template.
* `Scope.Knows`: The filters of nodes are known.
* `Scope.Supports`: All that can be reached from nodes is in order.
* `expandWithin`, `compileWithin`: Compiling with a bound on the nesting of inclusions.
* `Scope.Opens`: An inclusion that comes to a good end.

## Theorems

* `expandWithin_eq`: As many levels as there are names that are not active yet are enough.
* `exists_expand_iff`: Nodes can be expanded if their filters and inclusions can.
* `Scope.Opens.of_includes`: What an included template includes comes to a good end too.
* `Scope.supports_of_expand`, `Scope.Supports.exists_expand`: The two halves.
* `compile_total_iff`: Compiling comes to an end, and to a good one if all is in order.
-/

namespace Letterpress

open Relation

/-- A template that is registered, and can be read, includes another name. -/
def Scope.Includes (scope : Scope) (name other : String) : Prop :=
  ∃ inner, scope.registered? name = some inner ∧ ∃ i ∈ inclusions inner, i.name = other

/-- Nodes include a name, directly or through other templates. -/
def Scope.Reaches (scope : Scope) (ns : List Node) (name : String) : Prop :=
  ∃ i ∈ inclusions ns, ReflTransGen scope.Includes i.name name

/-- Every filter that nodes name is known. -/
def Scope.Knows (scope : Scope) (ns : List Node) : Prop :=
  ∀ p ∈ placeholders ns, ∀ call ∈ p.filters, scope.filters.contains call.name = true

/-- All that can be reached from nodes is in order. -/
structure Scope.Supports (scope : Scope) (ns : List Node) : Prop where
  readable : ∀ name, scope.Reaches ns name →
    ∃ source inner, scope.templates.get? name = some source ∧ readTemplate source = .ok inner
  acyclic : ∀ name, scope.Reaches ns name → ¬ TransGen scope.Includes name name
  known : scope.Knows ns
  knownWithin : ∀ name inner, scope.Reaches ns name → scope.registered? name = some inner →
    scope.Knows inner

/-- The parts of nodes in document order, where something else finds those of an inclusion.
    Nothing is the answer if an inclusion is met for which nothing is found. -/
def expandBy (scope : Scope) (go : String → Option (Except Fault (List Part))) :
    List Node → Option (Except Fault (List Part))
  | [] => some (.ok [])
  | .text s _ :: rest => (expandBy scope go rest).map fun r => r.map (.literal s :: ·)
  | .placeholder p :: rest =>
    match scope.holeOf p with
    | .error f => some (.error f)
    | .ok h => (expandBy scope go rest).map fun r => r.map (.hole h :: ·)
  | .inclusion i :: rest =>
    match go i.name with
    | none => none
    | some (.error f) => some (.error f)
    | some (.ok ps) => (expandBy scope go rest).map fun r => r.map (ps ++ ·)

/-- The parts of nodes, unless an inclusion is nested deeper than the bound. -/
def expandWithin (scope : Scope) :
    Nat → List String → List Node → Option (Except Fault (List Part))
  | depth, active => expandBy scope fun name =>
    match scope.enter active name with
    | .error f => some (.error f)
    | .ok inner =>
      match depth with
      | 0 => none
      | depth + 1 => expandWithin scope depth (active ++ [name]) inner

/-- The plan of nodes, unless an inclusion is nested deeper than the bound. -/
def compileWithin (scope : Scope) (depth : Nat) (ns : List Node) : Option (Except Fault Plan) :=
  (expandWithin scope depth [] ns).map fun r =>
    r.map fun ps => ⟨.ofParts (mergeParts ps), scope.options.effective⟩

theorem exists_bind_ok {α β ε : Type} {x : Except ε α} {f : α → Except ε β}
    (hx : ∃ a, x = .ok a) (hf : ∀ a, ∃ b, f a = .ok b) : ∃ b, (x >>= f) = .ok b := by
  rcases hx with ⟨a, rfl⟩
  exact hf a

theorem exists_mapM_ok {α β ε : Type} {f : α → Except ε β} {xs : List α}
    (h : ∀ x ∈ xs, ∃ y, f x = .ok y) : ∃ ys, xs.mapM f = .ok ys := by
  induction xs with
  | nil => exact ⟨[], rfl⟩
  | cons x xs ih =>
      rcases h x List.mem_cons_self with ⟨y, hy⟩
      rcases ih fun x' hx' => h x' (List.mem_cons_of_mem _ hx') with ⟨ys, hys⟩
      refine ⟨y :: ys, ?_⟩
      rw [List.mapM_cons, hy, hys]
      rfl

theorem contains_iff_filter? {table : FilterTable} {name : String} :
    table.contains name = true ↔ ∃ f, table.filter? name = some f := by
  unfold Dictionary.contains FilterTable.filter?
  cases table.get? name with
  | none => simp
  | some f => simp

theorem exists_holeOf_iff {scope : Scope} {p : Placeholder} :
    (∃ h, scope.holeOf p = .ok h) ↔
      ∀ call ∈ p.filters, scope.filters.contains call.name = true := by
  constructor
  · rintro ⟨h, hole⟩ call hcall
    rcases List.forall₂_iff_get.mp (isResolved_of_holeOf hole).2 with ⟨hlength, hresolved⟩
    rcases List.mem_iff_get.mp hcall with ⟨k, rfl⟩
    have hk := hresolved k k.isLt (hlength ▸ k.isLt)
    exact contains_iff_filter?.mpr ⟨_, hk.2.2⟩
  · intro hknown
    unfold Scope.holeOf
    refine exists_bind_ok (exists_mapM_ok fun call hcall => ?_) fun steps => ⟨_, rfl⟩
    rcases contains_iff_filter?.mp (hknown call hcall) with ⟨f, hf⟩
    rw [hf]
    exact ⟨_, rfl⟩

theorem enter_eq_ok_iff {scope : Scope} {active : List String} {name : String}
    {inner : List Node} : scope.enter active name = .ok inner ↔
      name ∉ active ∧ scope.registered? name = some inner := by
  constructor
  · intro h
    refine ⟨fun hactive => ?_, registered?_of_enter h⟩
    rw [Scope.enter, if_pos hactive] at h
    cases h
  · rintro ⟨hactive, hregistered⟩
    unfold Scope.registered? at hregistered
    rw [Scope.enter, if_neg hactive]
    -- Entering looks up and reads the same source as `registered?` does.
    cases hsource : scope.templates.get? name with
    | none =>
        rw [hsource] at hregistered
        cases hregistered
    | some source =>
        simp only [hsource] at hregistered ⊢
        cases hread : readTemplate source with
        | error e =>
            rw [hread] at hregistered
            cases hregistered
        | ok ns =>
            rw [hread] at hregistered
            cases hregistered
            rfl

/-- An inclusion of the name comes to a good end below the active names. -/
def Scope.Opens (scope : Scope) (active : List String) (name : String) : Prop :=
  ∃ inner ps, scope.enter active name = .ok inner ∧
    expand scope (active ++ [name]) inner = .ok ps

theorem exists_expand_text_iff {scope : Scope} {active : List String} {s : String} {span : Span}
    {rest : List Node} : (∃ ps, expand scope active (.text s span :: rest) = .ok ps) ↔
      ∃ ps, expand scope active rest = .ok ps := by
  rw [expand]
  cases expand scope active rest <;> simp

theorem exists_expand_placeholder_iff {scope : Scope} {active : List String} {p : Placeholder}
    {rest : List Node} : (∃ ps, expand scope active (.placeholder p :: rest) = .ok ps) ↔
      (∃ h, scope.holeOf p = .ok h) ∧ ∃ ps, expand scope active rest = .ok ps := by
  rw [expand]
  cases scope.holeOf p <;> cases expand scope active rest <;> simp

theorem exists_expand_inclusion_iff {scope : Scope} {active : List String} {i : Inclusion}
    {rest : List Node} : (∃ ps, expand scope active (.inclusion i :: rest) = .ok ps) ↔
      scope.Opens active i.name ∧ ∃ ps, expand scope active rest = .ok ps := by
  rw [expand_inclusion]
  unfold Scope.Opens
  cases scope.enter active i.name with
  | error f => simp
  | ok inner =>
      cases hinner : expand scope (active ++ [i.name]) inner <;>
        cases expand scope active rest <;> simp [hinner]

/-- Nodes can be expanded exactly if their filters are known and each of their inclusions comes to
    a good end. The order of the nodes decides only which fault is reported. -/
theorem exists_expand_iff {scope : Scope} {active : List String} {ns : List Node} :
    (∃ ps, expand scope active ns = .ok ps) ↔
      scope.Knows ns ∧ ∀ i ∈ inclusions ns, scope.Opens active i.name := by
  unfold Scope.Knows
  induction ns with
  | nil => simp [expand, placeholders, inclusions]
  | cons n rest ih =>
      cases n with
      | text s span => exact exists_expand_text_iff.trans ih
      | placeholder p =>
          rw [exists_expand_placeholder_iff, exists_holeOf_iff, ih]
          simp only [placeholders, inclusions, List.filterMap_cons, List.forall_mem_cons, and_assoc]
      | inclusion i =>
          rw [exists_expand_inclusion_iff, ih]
          simp only [placeholders, inclusions, List.filterMap_cons, List.forall_mem_cons,
            and_left_comm]

/-- What an included template includes comes to a good end one level further down. -/
theorem Scope.Opens.of_includes {scope : Scope} {active : List String} {name other : String}
    (h : scope.Opens active name) (hincludes : scope.Includes name other) :
    scope.Opens (active ++ [name]) other := by
  rcases h with ⟨inner, ps, henter, hexpand⟩
  rcases hincludes with ⟨inner', hregistered, i, hi, rfl⟩
  rw [registered?_of_enter henter] at hregistered
  cases hregistered
  exact (exists_expand_iff.mp ⟨ps, hexpand⟩).2 i hi

/-- So does what it reaches, somewhere below. Names become active on the way, and none is given
    up. -/
theorem Scope.Opens.of_reaches {scope : Scope} {active : List String} {name other : String}
    (h : scope.Opens active name) (hpath : ReflTransGen scope.Includes name other) :
    ∃ active', active ⊆ active' ∧ scope.Opens active' other := by
  induction hpath with
  | refl => exact ⟨active, List.Subset.refl _, h⟩
  | @tail b c _ hincludes ih =>
      rcases ih with ⟨active', hsubset, hopens⟩
      refine ⟨active' ++ [b], ?_, hopens.of_includes hincludes⟩
      exact List.Subset.trans hsubset (List.subset_append_left _ _)

/-- A name whose inclusion comes to a good end does not lead back to itself. -/
theorem Scope.Opens.not_circular {scope : Scope} {active : List String} {name : String}
    (h : scope.Opens active name) : ¬ TransGen scope.Includes name name := by
  intro hcircle
  -- After the first inclusion on the circle the name is active, and it stays active.
  rcases TransGen.head'_iff.mp hcircle with ⟨next, hincludes, hback⟩
  rcases (h.of_includes hincludes).of_reaches hback with ⟨active', hsubset, inner, _, henter, _⟩
  have hactive : name ∈ active' := hsubset (List.mem_append_right _ List.mem_cons_self)
  exact (enter_eq_ok_iff.mp henter).1 hactive

theorem exists_registered?_iff {scope : Scope} {name : String} :
    (∃ inner, scope.registered? name = some inner) ↔
      ∃ source inner,
        scope.templates.get? name = some source ∧ readTemplate source = .ok inner := by
  unfold Scope.registered?
  cases scope.templates.get? name with
  | none => simp
  | some source => cases hread : readTemplate source <;> simp [hread, Except.toOption]

theorem Scope.supports_of_expand {scope : Scope} {active : List String} {ns : List Node}
    {ps : List Part} (h : expand scope active ns = .ok ps) : scope.Supports ns := by
  rcases exists_expand_iff.mp ⟨ps, h⟩ with ⟨hknown, hopens⟩
  have hreach : ∀ name, scope.Reaches ns name → ∃ active', scope.Opens active' name := by
    rintro name ⟨i, hi, hpath⟩
    rcases (hopens i hi).of_reaches hpath with ⟨active', _, hname⟩
    exact ⟨active', hname⟩
  refine ⟨fun name hname => ?_, fun name hname => ?_, hknown, fun name inner hname hinner => ?_⟩
  · rcases hreach name hname with ⟨active', inner, _, henter, _⟩
    exact exists_registered?_iff.mp ⟨inner, registered?_of_enter henter⟩
  · rcases hreach name hname with ⟨active', hname⟩
    exact hname.not_circular
  · rcases hreach name hname with ⟨active', inner', ps', henter, hexpand⟩
    rw [registered?_of_enter henter] at hinner
    cases hinner
    exact (exists_expand_iff.mp ⟨ps', hexpand⟩).1

theorem Scope.Reaches.of_inclusion {scope : Scope} {ns inner : List Node} {i : Inclusion}
    {name : String} (hi : i ∈ inclusions ns) (hinner : scope.registered? i.name = some inner)
    (h : scope.Reaches inner name) : scope.Reaches ns name := by
  rcases h with ⟨j, hj, hpath⟩
  exact ⟨i, hi, .head ⟨inner, hinner, j, hj, rfl⟩ hpath⟩

/-- What is in order for nodes is in order for what they include. -/
theorem Scope.Supports.of_inclusion {scope : Scope} {ns inner : List Node} {i : Inclusion}
    (h : scope.Supports ns) (hi : i ∈ inclusions ns)
    (hinner : scope.registered? i.name = some inner) : scope.Supports inner where
  readable name hname := h.readable name (hname.of_inclusion hi hinner)
  acyclic name hname := h.acyclic name (hname.of_inclusion hi hinner)
  known := h.knownWithin i.name inner ⟨i, hi, .refl⟩ hinner
  knownWithin name inner' hname := h.knownWithin name inner' (hname.of_inclusion hi hinner)

/-- Where all is in order, nodes can be expanded below any active names that lead to them. -/
theorem Scope.Supports.exists_expand {scope : Scope} {active : List String} {ns : List Node}
    (h : scope.Supports ns)
    (hactive : ∀ a ∈ active, ∀ i ∈ inclusions ns, TransGen scope.Includes a i.name) :
    ∃ ps, expand scope active ns = .ok ps := by
  refine exists_expand_iff.mpr ⟨h.known, fun i hi => ?_⟩
  have hreached : scope.Reaches ns i.name := ⟨i, hi, .refl⟩
  rcases exists_registered?_iff.mpr (h.readable i.name hreached) with ⟨inner, hinner⟩
  -- An active name would lead to itself here.
  have hnew : i.name ∉ active := fun hmem =>
    h.acyclic i.name hreached (hactive i.name hmem i hi)
  have henter : scope.enter active i.name = .ok inner := enter_eq_ok_iff.mpr ⟨hnew, hinner⟩
  have hbelow : ∀ a ∈ active ++ [i.name], ∀ j ∈ inclusions inner,
      TransGen scope.Includes a j.name := by
    intro a ha j hj
    have hstep : scope.Includes i.name j.name := ⟨inner, hinner, j, hj, rfl⟩
    rcases List.mem_append.mp ha with ha | ha
    · exact (hactive a ha i hi).tail hstep
    · rw [List.mem_singleton.mp ha]
      exact .single hstep
  rcases (h.of_inclusion hi hinner).exists_expand hbelow with ⟨ps, hps⟩
  exact ⟨inner, ps, henter, hps⟩
termination_by (scope.unentered active).length
decreasing_by exact Scope.unentered_lt henter

/-- A walk agrees with one that finds the same parts for every inclusion. -/
theorem expandBy_eq {scope : Scope} {active : List String}
    {go : String → Option (Except Fault (List Part))}
    (hgo : ∀ name, go name = some (match scope.enter active name with
      | .error f => .error f
      | .ok inner => expand scope (active ++ [name]) inner)) (ns : List Node) :
    expandBy scope go ns = some (expand scope active ns) := by
  induction ns with
  | nil => rw [expandBy, expand]
  | cons n rest ih =>
      cases n with
      | text s span =>
          rw [expandBy, ih, expand]
          cases expand scope active rest <;> rfl
      | placeholder p =>
          rw [expandBy, ih, expand]
          cases scope.holeOf p <;> cases expand scope active rest <;> rfl
      | inclusion i =>
          -- A fault inside the included template ends both walks before the rest.
          rw [expandBy, ih, hgo, expand_inclusion]
          cases scope.enter active i.name with
          | error f => rfl
          | ok inner =>
              cases hinner : expand scope (active ++ [i.name]) inner <;>
                cases expand scope active rest <;> simp only [hinner] <;> rfl

theorem expandWithin_eq {scope : Scope} {depth : Nat} {active : List String}
    (hdepth : (scope.unentered active).length ≤ depth) (ns : List Node) :
    expandWithin scope depth active ns = some (expand scope active ns) := by
  induction depth generalizing active ns with
  | zero =>
      rw [expandWithin]
      refine expandBy_eq (fun name => ?_) ns
      cases henter : scope.enter active name with
      | error f => rfl
      | ok inner =>
          -- There is no name left that could be entered.
          have hlt := Scope.unentered_lt henter
          omega
  | succ depth ih =>
      rw [expandWithin]
      refine expandBy_eq (fun name => ?_) ns
      cases henter : scope.enter active name with
      | error f => rfl
      | ok inner =>
          have hlt := Scope.unentered_lt henter
          exact ih (by omega) inner

theorem unentered_nil_length (scope : Scope) :
    (scope.unentered []).length = scope.templates.size := by
  unfold Scope.unentered Dictionary.size
  rw [List.filter_eq_self.mpr fun name _ => by simp]
  exact List.length_map _

/-- Compiling comes to an end for all nodes and all scopes, without ever nesting inclusions deeper
    than there are registered templates. It ends with a plan exactly if every name that the nodes
    reach belongs to a template that can be read, none of these templates leads back to itself,
    and all filters in the nodes and in these templates are known. -/
theorem compile_total_iff (scope : Scope) (ns : List Node) :
    compileWithin scope scope.templates.size ns = some (compile scope ns) ∧
      ((∃ plan, compile scope ns = .ok plan) ↔ scope.Supports ns) := by
  constructor
  · unfold compileWithin compile
    rw [expandWithin_eq (Nat.le_of_eq (unentered_nil_length scope))]
    cases expand scope [] ns <;> rfl
  · constructor
    · rintro ⟨plan, hplan⟩
      unfold compile at hplan
      cases hexpand : expand scope [] ns with
      | error f =>
          rw [hexpand] at hplan
          cases hplan
      | ok ps => exact Scope.supports_of_expand hexpand
    · intro h
      rcases h.exists_expand (List.forall_mem_nil _) with ⟨ps, hps⟩
      unfold compile
      rw [hps]
      exact ⟨_, rfl⟩

end Letterpress
