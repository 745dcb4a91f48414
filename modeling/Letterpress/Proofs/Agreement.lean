import Letterpress.Analysis.Report
import Letterpress.Proofs.Circle
import Letterpress.Proofs.Sorting
import Letterpress.Proofs.Tiling

/-!
# Analysis and Compilation Agree

An analysis says what is wrong with a source without compiling it, so what it says has to be what
compiling would run into. Four kinds of findings stand in the way of a plan: a source that cannot
be read, an unknown filter, an unknown template, and a circle. Where compiling succeeds there are
none of them. The other way round an analysis is not the whole truth, and does not claim to be:
of the templates that a source includes it looks at the names only, to find circles. So what it
has nothing against may still fail to compile, but only because of something that stands in an
included template, and never because of a circle.

Both directions come down to one description of the sources that an analysis has nothing against,
in terms of filters, names and circles, which is put beside the one of the sources that compile.

For circles the two agree in what they report as well. The circle that compiling stops at is the
first one in the report. For this the report has to be in the order of the source. It is sorted
by offsets, the findings of one sort are found in the order of their nodes, and nodes that follow
each other in the source have offsets that increase, so sorting leaves them in their order.

## Main definitions

* `blockingCodes`: The codes of the findings that stand in the way of a plan.
* `Scope.IsClear`: The analysis has nothing against nodes that stands in the way of a plan.
* `Scope.FailsWithin`: Expansion stops inside of a registered template.
* `Finding.isCircle`: The finding is a circle.

## Theorems

* `mem_analyze_iff`: The diagnostics are the sightings with their places.
* `exists_blocking_placeholder_iff`, `exists_blocking_inclusion_iff`: What stands in the way.
* `forall_notBlocking_iff`: A report without such findings says that all is clear.
* `analyze_agrees_compile`: Reports and plans agree.
* `pairwise_nodes`, `pairwise_placeholders`, `pairwise_inclusions`: Nodes are in the order of
  their offsets.
* `filter_analyze`: Sorting leaves in their order the findings that are in order already.
* `filter_isCircle_analyze`: The circles of a report are in the order of the source.
* `first_circle_eq`: It is the circle that compiling stops at.
-/

namespace Letterpress

/-- The codes of the findings that stand in the way of a plan. -/
def blockingCodes : List String :=
  ["parse-error", "unknown-filter", "unknown-template", "circular-include"]

/-- The filters and templates that nodes name are known, and the templates lead to no circle. -/
structure Scope.IsClear (scope : Scope) (ns : List Node) : Prop where
  known : scope.Knows ns
  registered : ∀ i ∈ inclusions ns, scope.templates.contains i.name = true
  acyclic : ∀ i ∈ inclusions ns, ¬ scope.LeadsToCircle i.name

/-- Expansion of nodes stops inside of a registered template: everything in front of an inclusion
    of it can be expanded, but the template cannot be read, or what was read cannot be
    expanded. -/
def Scope.FailsWithin (scope : Scope) (ns : List Node) (f : Fault) : Prop :=
  ∃ before i after source, ns = before ++ .inclusion i :: after ∧
    (∃ ps, expand scope [] before = .ok ps) ∧ scope.templates.get? i.name = some source ∧
    ((∃ e, readTemplate source = .error e ∧ f = .malformed e) ∨
      ∃ inner, readTemplate source = .ok inner ∧ expand scope [i.name] inner = .error f)

/-- The diagnostics are the sightings with their places. -/
theorem mem_analyze_iff {scope : Scope} {sample : Option Value} {source : String}
    {d : Diagnostic} : d ∈ analyze scope sample source ↔
      ∃ s ∈ sightings scope sample source,
        d = s.diagnostic (LineTable.ofSource source) := by
  unfold analyze
  simp only [List.mem_map, List.mem_mergeSort, eq_comm]

theorem forall_analyze_iff {scope : Scope} {sample : Option Value} {source : String}
    {p : Finding → Prop} : (∀ d ∈ analyze scope sample source, p d.finding) ↔
      ∀ s ∈ sightings scope sample source, p s.finding := by
  constructor
  · intro h s hs
    exact h _ (mem_analyze_iff.mpr ⟨s, hs, rfl⟩)
  · intro h d hd
    rcases mem_analyze_iff.mp hd with ⟨s, hs, rfl⟩
    exact h s hs

theorem origin?_eq_none_iff {table : FilterTable} {name : String} :
    table.origin? name = none ↔ table.contains name = false := by
  unfold FilterTable.origin? Dictionary.contains
  rw [Option.map_eq_none_iff, Option.isSome_eq_false_iff, Option.isNone_iff_eq_none]

/-- An unknown filter is all that can stand in the way at a call. -/
theorem exists_blocking_call_iff {scope : Scope} {call : FilterUse} :
    (∃ s ∈ callSightings scope call, s.finding.code ∈ blockingCodes) ↔
      scope.filters.contains call.name = false := by
  rw [← origin?_eq_none_iff]
  unfold callSightings
  cases scope.filters.origin? call.name with
  | none => simp [Finding.code, blockingCodes]
  | some origin =>
      -- A wrong count of arguments does not keep a template from being compiled.
      cases arityOf? call.name with
      | none => simp
      | some arity =>
          by_cases hbad : (origin.isOwn && !arity.admits call.args.length) = true
          · simp [hbad, Finding.code, blockingCodes]
          · simp [hbad]

theorem code_of_mem_callSightings {scope : Scope} {call : FilterUse} {s : Sighting}
    (h : s ∈ callSightings scope call) :
    s.finding.code = "unknown-filter" ∨ s.finding.code = "bad-args" := by
  unfold callSightings at h
  split at h
  · rw [List.mem_singleton.mp h]
    exact Or.inl rfl
  · split at h
    · cases h
    · split at h
      · rw [List.mem_singleton.mp h]
        exact Or.inr rfl
      · cases h

theorem code_of_mem_shapeSightings {scope : Scope} {sample : Option Value} {p : Placeholder}
    {s : Sighting} (h : s ∈ shapeSightings scope sample p) :
    s.finding.code = "suspicious-filter" := by
  unfold shapeSightings at h
  split at h
  · cases h
  · split at h
    · split at h
      · rw [List.mem_singleton.mp h]
        rfl
      · cases h
    · cases h

theorem code_of_mem_absenceSightings {scope : Scope} {sample : Option Value} {p : Placeholder}
    {s : Sighting} (h : s ∈ absenceSightings scope sample p) :
    s.finding.code = "missing-key" := by
  unfold absenceSightings at h
  split at h
  · cases h
  · split at h
    · rw [List.mem_singleton.mp h]
      rfl
    · cases h

theorem code_of_mem_inclusionSightings {scope : Scope} {i : Inclusion} {s : Sighting}
    (h : s ∈ inclusionSightings scope i) :
    s.finding.code = "circular-include" ∨ s.finding.code = "unknown-template" := by
  unfold inclusionSightings at h
  split at h
  · split at h
    · rw [List.mem_singleton.mp h]
      exact Or.inl rfl
    · cases h
  · rw [List.mem_singleton.mp h]
    exact Or.inr rfl

theorem exists_blocking_placeholder_iff {scope : Scope} {sample : Option Value}
    {p : Placeholder} :
    (∃ s ∈ placeholderSightings scope sample p, s.finding.code ∈ blockingCodes) ↔
      ∃ call ∈ p.filters, scope.filters.contains call.name = false := by
  unfold placeholderSightings
  constructor
  · rintro ⟨s, hs, hcode⟩
    rw [List.mem_append, List.mem_append, List.mem_flatMap] at hs
    rcases hs with (⟨call, hcall, hs⟩ | hs) | hs
    · exact ⟨call, hcall, exists_blocking_call_iff.mp ⟨s, hs, hcode⟩⟩
    · rw [code_of_mem_shapeSightings hs] at hcode
      exact absurd hcode (by decide)
    · rw [code_of_mem_absenceSightings hs] at hcode
      exact absurd hcode (by decide)
  · rintro ⟨call, hcall, hunknown⟩
    rcases exists_blocking_call_iff.mpr hunknown with ⟨s, hs, hcode⟩
    refine ⟨s, ?_, hcode⟩
    exact List.mem_append_left _ (List.mem_append_left _ (List.mem_flatMap.mpr ⟨call, hcall, hs⟩))

theorem exists_blocking_inclusion_iff {scope : Scope} {i : Inclusion} :
    (∃ s ∈ inclusionSightings scope i, s.finding.code ∈ blockingCodes) ↔
      scope.templates.contains i.name = false ∨ scope.LeadsToCircle i.name := by
  unfold inclusionSightings
  by_cases hcontains : scope.templates.contains i.name = true
  · rw [if_pos hcontains]
    cases hcycle : cycleFrom? scope i.name with
    | none =>
        have hnot := cycleFrom?_eq_none_iff.mp hcycle
        simp [hcontains, hnot]
    | some chain =>
        have hcircle := leadsToCircle_of_cycleFrom? hcycle
        simp [hcircle, Finding.code, blockingCodes]
  · rw [if_neg hcontains]
    simp [hcontains, Finding.code, blockingCodes]

/-- Nothing in a report stands in the way of a plan exactly if the source can be read and its
    nodes are clear. -/
theorem forall_notBlocking_iff {scope : Scope} {sample : Option Value} {source : String} :
    (∀ d ∈ analyze scope sample source, d.finding.code ∉ blockingCodes) ↔
      ∃ ns, readTemplate source = .ok ns ∧ scope.IsClear ns := by
  rw [forall_analyze_iff (p := fun f => f.code ∉ blockingCodes)]
  unfold sightings
  cases readTemplate source with
  | error e => simp [Finding.code, blockingCodes]
  | ok ns =>
      simp only [List.mem_append, List.mem_flatMap]
      constructor
      -- Each condition on the nodes is the absence of one kind of finding at one of them.
      · intro h
        refine ⟨ns, rfl, ?_, ?_, ?_⟩
        · intro p hp call hcall
          by_contra hunknown
          rcases (@exists_blocking_placeholder_iff scope sample p).mpr
            ⟨call, hcall, Bool.eq_false_iff.mpr hunknown⟩ with ⟨s, hs, hcode⟩
          exact h s (Or.inl ⟨p, hp, hs⟩) hcode
        · intro i hi
          by_contra hunknown
          rcases exists_blocking_inclusion_iff.mpr (Or.inl (Bool.eq_false_iff.mpr hunknown)) with
            ⟨s, hs, hcode⟩
          exact h s (Or.inr ⟨i, hi, hs⟩) hcode
        · intro i hi hcircle
          rcases exists_blocking_inclusion_iff.mpr (Or.inr hcircle) with ⟨s, hs, hcode⟩
          exact h s (Or.inr ⟨i, hi, hs⟩) hcode
      · rintro ⟨ns', hns, hclear⟩ s hs hcode
        cases hns
        rcases hs with ⟨p, hp, hs⟩ | ⟨i, hi, hs⟩
        · rcases exists_blocking_placeholder_iff.mp ⟨s, hs, hcode⟩ with ⟨call, hcall, hunknown⟩
          rw [hclear.known p hp call hcall] at hunknown
          cases hunknown
        · rcases exists_blocking_inclusion_iff.mp ⟨s, hs, hcode⟩ with hunknown | hcircle
          · rw [hclear.registered i hi] at hunknown
            cases hunknown
          · exact hclear.acyclic i hi hcircle

theorem compile_eq_error_iff {scope : Scope} {ns : List Node} {f : Fault} :
    compile scope ns = .error f ↔ expand scope [] ns = .error f := by
  unfold compile
  cases expand scope [] ns <;> simp

theorem exists_compile_iff {scope : Scope} {ns : List Node} :
    (∃ plan, compile scope ns = .ok plan) ↔ ∃ ps, expand scope [] ns = .ok ps := by
  unfold compile
  cases expand scope [] ns <;> simp

theorem compileSource_of_read {source : String} {ns : List Node}
    (h : readTemplate source = .ok ns) (scope : Scope) :
    compileSource scope source = compile scope ns := by
  unfold compileSource
  rw [h]

theorem compileSource_of_error {source : String} {e : ReadError}
    (h : readTemplate source = .error e) (scope : Scope) :
    compileSource scope source = .error (.malformed e) := by
  unfold compileSource
  rw [h]

/-- What can be expanded is clear. -/
theorem isClear_of_expand {scope : Scope} {active : List String} {ns : List Node}
    {ps : List Part} (h : expand scope active ns = .ok ps) : scope.IsClear ns where
  known := (exists_expand_iff.mp ⟨ps, h⟩).1
  registered i hi := by
    rcases (exists_expand_iff.mp ⟨ps, h⟩).2 i hi with ⟨inner, _, henter, _⟩
    exact contains_of_registered? (registered?_of_enter henter)
  acyclic := not_leadsToCircle_of_expand h

/-- Where nodes are clear, expansion can stop inside of a registered template only, and not
    because of a circle. -/
theorem Scope.IsClear.failsWithin {scope : Scope} {ns : List Node} {f : Fault}
    (hclear : scope.IsClear ns) (h : expand scope [] ns = .error f) :
    scope.FailsWithin ns f ∧ ∀ chain, f ≠ .circularInclusion chain := by
  rcases exists_expand_of_error h with ⟨before, n, after, rfl, hbefore, hn⟩
  cases n with
  | text s span =>
      simp only [expand] at hn
      cases hn
  | placeholder p =>
      -- All filters are known, so it was not the placeholder.
      have hp : p ∈ placeholders (before ++ .placeholder p :: after) := by
        unfold placeholders
        rw [List.filterMap_append]
        exact List.mem_append_right _ List.mem_cons_self
      rcases exists_holeOf_iff.mpr (hclear.known p hp) with ⟨hole, hhole⟩
      rw [holeOf_of_expand hn] at hhole
      cases hhole
  | inclusion i =>
      have hi : i ∈ inclusions (before ++ .inclusion i :: after) := by
        rw [inclusions_append]
        exact List.mem_append_right _ List.mem_cons_self
      have hcircle : ∀ chain, f ≠ .circularInclusion chain := by
        rintro chain rfl
        have hnone := cycleFrom?_eq_none_iff.mpr (hclear.acyclic i hi)
        rw [cycleFrom?_of_expand hn] at hnone
        cases hnone
      refine ⟨?_, hcircle⟩
      rcases Option.isSome_iff_exists.mp (hclear.registered i hi) with ⟨source, hsource⟩
      refine ⟨before, i, after, source, rfl, hbefore, hsource, ?_⟩
      rcases enter_of_expand hn with henter | ⟨inner, henter, hinner⟩
      · rcases enter_error_cases henter with ⟨hactive, _⟩ | ⟨hnone, _⟩ |
          ⟨source', e, hsource', hread, hf⟩
        · cases hactive
        · rw [hsource] at hnone
          cases hnone
        · rw [hsource] at hsource'
          cases hsource'
          exact Or.inl ⟨e, hread, hf⟩
      · rcases registered?_eq_some_iff.mp (registered?_of_enter henter) with
          ⟨source', hsource', hread⟩
        rw [hsource] at hsource'
        cases hsource'
        exact Or.inr ⟨inner, hread, hinner⟩

/-- Reports and plans agree. Where a source compiles, its report holds nothing that stands in the
    way of a plan. Where the report holds nothing of that kind, the source can be read, and if it
    does not compile all the same, then expansion has stopped inside of a registered template
    that the source includes, at something that cannot be read, an unknown filter or an unknown
    template. -/
theorem analyze_agrees_compile (scope : Scope) (sample : Option Value) (source : String) :
    ((∃ plan, compileSource scope source = .ok plan) →
      ∀ d ∈ analyze scope sample source, d.finding.code ∉ blockingCodes) ∧
    ((∀ d ∈ analyze scope sample source, d.finding.code ∉ blockingCodes) →
      ∃ ns, readTemplate source = .ok ns ∧
        ((∃ plan, compileSource scope source = .ok plan) ∨
          ∃ f, compileSource scope source = .error f ∧ scope.FailsWithin ns f ∧
            ((∃ e, f = .malformed e) ∨ (∃ name key, f = .unknownFilter name key) ∨
              ∃ name, f = .unknownTemplate name))) := by
  rw [forall_notBlocking_iff]
  constructor
  · intro hplan
    cases hread : readTemplate source with
    | error e =>
        rw [compileSource_of_error hread] at hplan
        rcases hplan with ⟨plan, hplan⟩
        cases hplan
    | ok ns =>
        rw [compileSource_of_read hread, exists_compile_iff] at hplan
        rcases hplan with ⟨ps, hps⟩
        exact ⟨ns, rfl, isClear_of_expand hps⟩
  · rintro ⟨ns, hread, hclear⟩
    refine ⟨ns, hread, ?_⟩
    rw [compileSource_of_read hread, exists_compile_iff]
    cases hexpand : expand scope [] ns with
    | ok ps => exact Or.inl ⟨ps, rfl⟩
    | error f =>
        -- The source is clear itself, so expansion has stopped in what it includes, and not at a
        -- circle, which a report would show.
        rcases hclear.failsWithin hexpand with ⟨hwithin, hcircle⟩
        refine Or.inr ⟨f, compile_eq_error_iff.mpr hexpand, hwithin, ?_⟩
        rcases fault_cases_of_expand hexpand with hf | hf | hf | ⟨chain, hf⟩
        · exact Or.inl hf
        · exact Or.inr (Or.inl hf)
        · exact Or.inr (Or.inr hf)
        · exact absurd hf (hcircle chain)

/-- A scope without filters, in which one template includes another that names a filter. -/
def shelf : Scope where
  filters := .empty
  templates := .ofList [("list", "\x7b>card\x7d"), ("card", "\x7bname|shout\x7d")]
  options := {}

/-- The report on an inclusion of the list has nothing against it, and yet the card in the list
    cannot be expanded. -/
theorem analyze_agrees_compile_shelf :
    (∀ d ∈ analyze shelf none "\x7b>list\x7d", d.finding.code ∉ blockingCodes) ∧
      compileSource shelf "\x7b>list\x7d" = .error (.unknownFilter "shout" "name") ∧
      ∃ ns, readTemplate "\x7b>list\x7d" = .ok ns ∧
        shelf.FailsWithin ns (.unknownFilter "shout" "name") := by
  have hread : readTemplate "\x7b>list\x7d" = .ok [.inclusion ⟨"list", ⟨0, 7⟩⟩] := by
    decide +kernel
  have hlist : shelf.registered? "list" = some [.inclusion ⟨"card", ⟨0, 7⟩⟩] := by decide +kernel
  have hcard : shelf.registered? "card" =
      some [.placeholder ⟨["name"], [⟨"shout", [], ⟨5, 11⟩⟩], ⟨0, 12⟩⟩] := by decide +kernel
  have hcompile : compileSource shelf "\x7b>list\x7d" = .error (.unknownFilter "shout" "name") := by
    have henter : shelf.enter [] "list" = .ok _ := enter_eq_ok_iff.mpr ⟨by decide, hlist⟩
    have henter' : shelf.enter ["list"] "card" = .ok _ := enter_eq_ok_iff.mpr ⟨by decide, hcard⟩
    rw [compileSource_of_read hread, compile_eq_error_iff]
    simp only [expand_inclusion, henter, List.nil_append, henter', expand]
    rfl
  have hclear : ∀ d ∈ analyze shelf none "\x7b>list\x7d", d.finding.code ∉ blockingCodes := by
    -- The list includes the card, and the card includes nothing.
    have hleaf : ¬ shelf.LeadsToCircle "card" :=
      not_leadsToCircle_of_forall (fun _ => (mem_map_name_iff hcard).mpr) (List.forall_mem_nil _)
    have htop : ¬ shelf.LeadsToCircle "list" :=
      not_leadsToCircle_of_forall (fun _ => (mem_map_name_iff hlist).mpr)
        (List.forall_mem_singleton.mpr hleaf)
    exact forall_notBlocking_iff.mpr ⟨_, hread, List.forall_mem_nil _,
      List.forall_mem_singleton.mpr (contains_of_registered? hlist),
      List.forall_mem_singleton.mpr htop⟩
  refine ⟨hclear, hcompile, ?_⟩
  rcases (analyze_agrees_compile shelf none _).2 hclear with
    ⟨ns, hns, ⟨plan, hplan⟩ | ⟨f, hf, hwithin, _⟩⟩
  · rw [hcompile] at hplan
    cases hplan
  · rw [hcompile] at hf
    cases hf
    exact ⟨ns, hns, hwithin⟩

/-- Spans that follow each other begin one behind the other. -/
theorem Tiles.pairwise_start {o last : Nat} {spans : List Span} (h : Tiles o spans last) :
    (∀ span ∈ spans, o ≤ span.start) ∧
      spans.Pairwise fun first second => first.start < second.start := by
  induction h with
  | nil => exact ⟨List.forall_mem_nil _, .nil⟩
  | @cons start stop last rest hne hrest ih =>
      rcases ih with ⟨hleast, hordered⟩
      have hlater : ∀ span ∈ rest, start < span.start := by
        intro span hspan
        have hspan := hleast span hspan
        omega
      refine ⟨List.forall_mem_cons.mpr ⟨Nat.le_refl _, fun span hspan => ?_⟩,
        List.pairwise_cons.mpr ⟨hlater, hordered⟩⟩
      exact Nat.le_of_lt (hlater span hspan)

/-- The nodes of a template are in the order of their offsets. -/
theorem pairwise_nodes {source : String} {ns : List Node} (h : readTemplate source = .ok ns) :
    ns.Pairwise fun n m => n.span.start < m.span.start := by
  have hordered := (readTemplate_iff_piecesAt.mp h).tiles.pairwise_start.2
  rwa [List.pairwise_map] at hordered

/-- So are its placeholders. -/
theorem pairwise_placeholders {source : String} {ns : List Node}
    (h : readTemplate source = .ok ns) :
    (placeholders ns).Pairwise fun p q => p.span.start < q.span.start := by
  unfold placeholders
  rw [List.pairwise_filterMap]
  refine (pairwise_nodes h).imp ?_
  intro n m hnm p hp q hq
  cases n with
  | text => cases hp
  | inclusion => cases hp
  | placeholder =>
      cases m with
      | text => cases hq
      | inclusion => cases hq
      | placeholder =>
          cases hp
          cases hq
          exact hnm

/-- So are its inclusions. -/
theorem pairwise_inclusions {source : String} {ns : List Node}
    (h : readTemplate source = .ok ns) :
    (inclusions ns).Pairwise fun i j => i.span.start < j.span.start := by
  unfold inclusions
  rw [List.pairwise_filterMap]
  refine (pairwise_nodes h).imp ?_
  intro n m hnm i hi j hj
  cases n with
  | text => cases hi
  | placeholder => cases hi
  | inclusion =>
      cases m with
      | text => cases hj
      | placeholder => cases hj
      | inclusion =>
          cases hi
          cases hj
          exact hnm

/-- Sorting a report leaves findings of one sort in their order, if they were found in the order
    of the source. -/
theorem filter_analyze {scope : Scope} {sample : Option Value} {source : String}
    {p : Finding → Bool}
    (hordered : ((sightings scope sample source).filter (p ∘ (·.finding))).Pairwise
      fun s t => s.span.start ≤ t.span.start) :
    ((analyze scope sample source).map (·.finding)).filter p =
      ((sightings scope sample source).map (·.finding)).filter p := by
  unfold analyze
  rw [List.map_map, List.filter_map, List.filter_map]
  refine congrArg _ (filter_mergeSort ?_ ?_ (hordered.imp fun hst => decide_eq_true hst))
  · intro s t u hst htu
    have hst := of_decide_eq_true hst
    have htu := of_decide_eq_true htu
    exact decide_eq_true (Nat.le_trans hst htu)
  · intro s t
    rw [Bool.or_eq_true, decide_eq_true_iff, decide_eq_true_iff]
    exact Nat.le_total _ _

theorem span_of_mem_inclusionSightings {scope : Scope} {i : Inclusion} {s : Sighting}
    (h : s ∈ inclusionSightings scope i) : s.span = i.span := by
  unfold inclusionSightings at h
  split at h
  · split at h
    · rw [List.mem_singleton.mp h]
    · cases h
  · rw [List.mem_singleton.mp h]

theorem pairwise_inclusionSightings (scope : Scope) (i : Inclusion) :
    (inclusionSightings scope i).Pairwise fun s t => s.span.start ≤ t.span.start := by
  unfold inclusionSightings
  split
  · split
    · exact List.pairwise_singleton _ _
    · exact .nil
  · exact List.pairwise_singleton _ _

/-- A circle is never found at a placeholder. -/
theorem not_circular_of_mem_placeholderSightings {scope : Scope} {sample : Option Value}
    {p : Placeholder} {s : Sighting} (h : s ∈ placeholderSightings scope sample p) :
    s.finding.code ≠ "circular-include" := by
  unfold placeholderSightings at h
  rw [List.mem_append, List.mem_append, List.mem_flatMap] at h
  rcases h with (⟨call, _, h⟩ | h) | h
  · rcases code_of_mem_callSightings h with hcode | hcode
    · rw [hcode]
      decide
    · rw [hcode]
      decide
  · rw [code_of_mem_shapeSightings h]
    decide
  · rw [code_of_mem_absenceSightings h]
    decide

/-- The finding is a circle. -/
def Finding.isCircle (f : Finding) : Bool := f.code == "circular-include"

/-- The circles of a report are those found at the inclusions of the source, in the same order. -/
theorem filter_isCircle_analyze {scope : Scope} {sample : Option Value} {source : String}
    {ns : List Node} (hread : readTemplate source = .ok ns) :
    ((analyze scope sample source).map (·.finding)).filter Finding.isCircle =
      (((inclusions ns).flatMap (inclusionSightings scope)).map (·.finding)).filter
        Finding.isCircle := by
  have hplaceholders : ((placeholders ns).flatMap (placeholderSightings scope sample)).filter
      (Finding.isCircle ∘ (·.finding)) = [] := by
    rw [List.filter_eq_nil_iff]
    intro s hs hcircle
    rcases List.mem_flatMap.mp hs with ⟨p, _, hs⟩
    exact not_circular_of_mem_placeholderSightings hs (beq_iff_eq.mp hcircle)
  have hfound : (sightings scope sample source).filter (Finding.isCircle ∘ (·.finding)) =
      ((inclusions ns).flatMap (inclusionSightings scope)).filter
        (Finding.isCircle ∘ (·.finding)) := by
    unfold sightings
    rw [hread]
    simp only [List.filter_append, hplaceholders, List.nil_append]
  -- Circles are found from front to back already, so sorting does not move them.
  have hordered : ((inclusions ns).flatMap (inclusionSightings scope)).Pairwise
      fun s t => s.span.start ≤ t.span.start := by
    rw [List.pairwise_flatMap]
    refine ⟨fun i _ => pairwise_inclusionSightings scope i, ?_⟩
    refine (pairwise_inclusions hread).imp ?_
    intro i j hij s hs t ht
    rw [span_of_mem_inclusionSightings hs, span_of_mem_inclusionSightings ht]
    exact Nat.le_of_lt hij
  rw [filter_analyze (hfound ▸ hordered.sublist List.filter_sublist), List.filter_map,
    List.filter_map, hfound]

/-- Inclusions that lead to no circle have no part in the circles of a report. -/
theorem filter_isCircle_inclusionSightings {scope : Scope} {is : List Inclusion}
    (h : ∀ i ∈ is, ¬ scope.LeadsToCircle i.name) :
    ((is.flatMap (inclusionSightings scope)).map (·.finding)).filter Finding.isCircle = [] := by
  rw [List.filter_eq_nil_iff]
  intro f hf hcircle
  rcases List.mem_map.mp hf with ⟨s, hs, rfl⟩
  rcases List.mem_flatMap.mp hs with ⟨i, hi, hs⟩
  unfold inclusionSightings at hs
  split at hs
  · rw [cycleFrom?_eq_none_iff.mpr (h i hi)] at hs
    cases hs
  · rw [List.mem_singleton.mp hs] at hcircle
    exact absurd (beq_iff_eq.mp hcircle) (by rw [Finding.code]; decide)

/-- The circle that compiling stops at is the first one in the report. -/
theorem first_circle_eq {scope : Scope} {source : String} {chain : List String}
    (h : compileSource scope source = .error (.circularInclusion chain))
    (sample : Option Value) :
    ∃ d name, (analyze scope sample source).find? (·.finding.isCircle) = some d ∧
      d.finding = .circularInclusion name chain := by
  cases hread : readTemplate source with
  | error e =>
      rw [compileSource_of_error hread] at h
      cases h
  | ok ns =>
      rw [compileSource_of_read hread, compile_eq_error_iff] at h
      rcases exists_expand_of_error h with ⟨before, n, after, rfl, ⟨ps, hbefore⟩, hn⟩
      cases n with
      | text s span =>
          simp only [expand] at hn
          cases hn
      | placeholder p =>
          rcases exists_unknownFilter_of_holeOf (holeOf_of_expand hn) with ⟨_, _, _, hf⟩
          cases hf
      | inclusion i =>
          have hcycle := cycleFrom?_of_expand hn
          have hcircle := leadsToCircle_of_cycleFrom? hcycle
          have hthis : inclusionSightings scope i =
              [⟨.circularInclusion i.name chain, i.span⟩] := by
            unfold inclusionSightings
            rw [if_pos hcircle.contains, hcycle]
          -- Nothing in front of the inclusion leads to a circle.
          have hnone := filter_isCircle_inclusionSightings (not_leadsToCircle_of_expand hbefore)
          have hinclusions : inclusions (before ++ .inclusion i :: after) =
              inclusions before ++ i :: inclusions after := inclusions_append _ _
          have hcircles := @filter_isCircle_analyze scope sample source _ hread
          rw [hinclusions, List.flatMap_append, List.flatMap_cons, List.map_append,
            List.filter_append, hnone, hthis] at hcircles
          have hhead := congrArg List.head? hcircles
          rw [List.filter_map, List.head?_map, List.head?_filter] at hhead
          rcases Option.map_eq_some_iff.mp hhead with ⟨d, hd, hfinding⟩
          exact ⟨d, i.name, hd, hfinding⟩

/-- A scope in which two templates include each other, with a third one beside them. -/
def tangle : Scope where
  filters := .empty
  templates := .ofList [("quiet", "so it goes"), ("left", "\x7b>quiet\x7d\x7b>right\x7d"),
    ("right", "\x7b>left\x7d")]
  options := {}

/-- The circle of the two, entered by the one on the right. -/
theorem first_circle_eq_tangle :
    compileSource tangle "\x7b>quiet\x7d\x7b>right\x7d" =
        .error (.circularInclusion ["right", "left", "right"]) ∧
      ∃ d name, (analyze tangle none "\x7b>quiet\x7d\x7b>right\x7d").find? (·.finding.isCircle) =
          some d ∧ d.finding = .circularInclusion name ["right", "left", "right"] := by
  have hread : readTemplate "\x7b>quiet\x7d\x7b>right\x7d" =
      .ok [.inclusion ⟨"quiet", ⟨0, 8⟩⟩, .inclusion ⟨"right", ⟨8, 16⟩⟩] := by decide +kernel
  have hquiet : tangle.registered? "quiet" = some [.text "so it goes" ⟨0, 10⟩] := by decide +kernel
  have hright : tangle.registered? "right" = some [.inclusion ⟨"left", ⟨0, 7⟩⟩] := by decide +kernel
  have hleft : tangle.registered? "left" =
      some [.inclusion ⟨"quiet", ⟨0, 8⟩⟩, .inclusion ⟨"right", ⟨8, 16⟩⟩] := by decide +kernel
  have hcompile : compileSource tangle "\x7b>quiet\x7d\x7b>right\x7d" =
      .error (.circularInclusion ["right", "left", "right"]) := by
    have h₁ : tangle.enter [] "quiet" = .ok _ := enter_eq_ok_iff.mpr ⟨by decide, hquiet⟩
    have h₂ : tangle.enter [] "right" = .ok _ := enter_eq_ok_iff.mpr ⟨by decide, hright⟩
    have h₃ : tangle.enter ["right"] "left" = .ok _ := enter_eq_ok_iff.mpr ⟨by decide, hleft⟩
    have h₄ : tangle.enter ["right", "left"] "quiet" = .ok _ :=
      enter_eq_ok_iff.mpr ⟨by decide, hquiet⟩
    have h₅ : tangle.enter ["right", "left"] "right" =
        .error (.circularInclusion ["right", "left", "right"]) := if_pos (by decide)
    rw [compileSource_of_read hread, compile_eq_error_iff]
    simp only [expand_inclusion, h₁, h₂, h₃, h₄, h₅, List.nil_append, List.cons_append, expand]
  exact ⟨hcompile, first_circle_eq hcompile none⟩

end Letterpress
