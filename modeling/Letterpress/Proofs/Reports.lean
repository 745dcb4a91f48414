import Letterpress.Proofs.Chains
import Letterpress.Proofs.Completion
import Letterpress.Proofs.Positions

/-!
# Reports Are Complete

An analysis goes over a source twice, first over its placeholders and then over its inclusions,
and sorts what it has found on the way. Somebody who reads the report has the source at hand, with
one node behind the other, and wants to know of each of them what there is to say about it. That
none of it gets lost, and that nothing is said twice, cannot be seen from the checks alone, since
the findings at one node end up between those at other ones.

What helps is where findings are. Everything that is found at a node lies in the span of the node,
and the spans of the nodes are apart from each other. So whatever the order is, the findings in the
span of a node are the ones that were made there. The same is true once more inside of a
placeholder, whose filters have spans that are apart. Then one check can be taken after the other:
each of them has a code of its own, and finds one thing at most.

A report says where its findings are in lines and columns. The range of a finding has its ends in
the right order because a span has, and because positions are in the order of the text.

## Main definitions

* `nodeSightings`: The findings at a node.
* `Finding.IsAbout`: What a finding at a node is about, and the span of it.
* `Scope.Misapplies`: A call whose count of arguments does not fit.
* `Diagnostic.PointsAt`: The place of a diagnostic, with all that is said about it.
* `Scope.IsFullReport`: A report that leaves nothing out.

## Theorems

* `filter_flatMap_of_apart`: What lies in one of many spans that are apart.
* `isAbout_of_mem_nodeSightings`: Every finding is about something.
* `Finding.IsAbout.within`: What it is about stands in the node.
* `perm_analyze`: A report is made of the findings at all nodes.
* `perm_filter_isIn`, `perm_filter_isOf`: What a report says about a node, and about a filter.
* `exists_arityOf?_of_isOwn`: Every filter of the library has an arity.
* `report_complete`: A report on a source leaves nothing out.
-/

namespace Letterpress

/-- The findings about a node. -/
def nodeSightings (scope : Scope) (sample : Option Value) : Node → List Sighting
  | .text _ _ => []
  | .placeholder p => placeholderSightings scope sample p
  | .inclusion i => inclusionSightings scope i

/-- What a finding at a node is about, with its span: a filter of a placeholder, which is the first
    one where shapes are concerned, the placeholder itself, or an inclusion. -/
inductive Finding.IsAbout : Node → Finding → Span → Prop where
  | unknownFilter {p : Placeholder} {call : FilterUse} (hcall : call ∈ p.filters)
      (suggestions : List String) :
      IsAbout (.placeholder p) (.unknownFilter call.name suggestions) call.span
  | badArguments {p : Placeholder} {call : FilterUse} (hcall : call ∈ p.filters) (arity : Arity) :
      IsAbout (.placeholder p) (.badArguments call.name arity call.args.length) call.span
  | suspiciousFilter {p : Placeholder} {call : FilterUse} (hfirst : p.filters.head? = some call)
      (wanted actual : Shape) :
      IsAbout (.placeholder p) (.suspiciousFilter call.name p.key wanted actual) call.span
  | missingKey (p : Placeholder) : IsAbout (.placeholder p) (.missingKey p.key) p.span
  | unknownTemplate (i : Inclusion) (suggestions : List String) :
      IsAbout (.inclusion i) (.unknownTemplate i.name suggestions) i.span
  | circularInclusion (i : Inclusion) (chain : List String) :
      IsAbout (.inclusion i) (.circularInclusion i.name chain) i.span

/-- A call gives a filter of the library fewer arguments than its arity asks for, or more. -/
structure Scope.Misapplies (scope : Scope) (call : FilterUse) (arity : Arity) : Prop where
  own : scope.filters.origin? call.name = some .builtin ∨
    scope.filters.origin? call.name = some .locale
  rated : arityOf? call.name = some arity
  outside : call.args.length < arity.least ∨ ∃ most, arity.most = some most ∧
    most < call.args.length

/-- The diagnostic begins in a span. -/
def Diagnostic.isIn (d : Diagnostic) (span : Span) : Bool :=
  span.start ≤ d.offset && d.offset < span.stop

/-- The diagnostic has a code, and begins where a span begins. -/
def Diagnostic.isOf (d : Diagnostic) (code : String) (span : Span) : Bool :=
  d.finding.code == code && d.offset == span.start

/-- The diagnostic points at a stretch of a source, and the line and the column are those where its
    range begins. The range does not end before it begins, and not behind the source. -/
structure Diagnostic.PointsAt (d : Diagnostic) (source : String) (span : Span) : Prop where
  placed : d.IsAt source span
  begun : d.line = d.range.start.line ∧ d.column = d.range.start.column
  ordered : d.range.start ≤ d.range.stop
  ended : d.range.stop ≤ (LineTable.ofSource source).position source.utf8ByteSize
  inside : span.start ≤ span.stop ∧ span.stop ≤ source.utf8ByteSize
  aligned : span.IsAligned source

/-- A report on a source with some nodes that leaves nothing out, and says nothing twice. -/
structure Scope.IsFullReport (scope : Scope) (sample : Option Value) (source : String)
    (ns : List Node) (ds : List Diagnostic) : Prop where
  ordered : ds.Pairwise fun d e => d.offset ≤ e.offset
  kept : ds.Perm
    ((ns.flatMap (nodeSightings scope sample)).map (·.diagnostic (.ofSource source)))
  atNode : ∀ n ∈ ns, (ds.filter (·.isIn n.span)).Perm
    ((nodeSightings scope sample n).map (·.diagnostic (.ofSource source)))
  unknown : ∀ p ∈ placeholders ns, ∀ call ∈ p.filters,
    ds.filter (·.isOf "unknown-filter" call.span) =
      if scope.filters.contains call.name then []
      else [(⟨.unknownFilter call.name (closestNames call.name scope.filters.names),
        call.span⟩ : Sighting).diagnostic (.ofSource source)]
  misapplied : ∀ p ∈ placeholders ns, ∀ call ∈ p.filters, ∀ arity, scope.Misapplies call arity →
    ds.filter (·.isOf "bad-args" call.span) =
      [(⟨.badArguments call.name arity call.args.length,
        call.span⟩ : Sighting).diagnostic (.ofSource source)]
  applied : ∀ p ∈ placeholders ns, ∀ call ∈ p.filters, (∀ arity, ¬ scope.Misapplies call arity) →
    ds.filter (·.isOf "bad-args" call.span) = []
  suspicious : ∀ p ∈ placeholders ns,
    (ds.filter (·.isIn p.span)).filter (·.finding.code == "suspicious-filter") = [] ∨
      ∃ call wanted actual, p.filters.head? = some call ∧
        (ds.filter (·.isIn p.span)).filter (·.finding.code == "suspicious-filter") =
          [(⟨.suspiciousFilter call.name p.key wanted actual,
            call.span⟩ : Sighting).diagnostic (.ofSource source)]
  included : ∀ i ∈ inclusions ns, (ds.filter (·.isIn i.span)).length ≤ 1
  located : ∀ d ∈ ds, ∃ n ∈ ns, ∃ span, d.finding.IsAbout n span ∧ d.PointsAt source span

/-- Spans that tile a source are not empty, and each of them ends before the next one begins. -/
theorem Tiles.apart {o last : Nat} {spans : List Span} (h : Tiles o spans last) :
    (∀ span ∈ spans, span.start < span.stop) ∧
      spans.Pairwise fun first second => first.stop ≤ second.start := by
  induction h with
  | nil => exact ⟨List.forall_mem_nil _, .nil⟩
  | cons hne hrest ih =>
      refine ⟨List.forall_mem_cons.mpr ⟨hne, ih.1⟩, List.pairwise_cons.mpr ⟨?_, ih.2⟩⟩
      exact hrest.pairwise_start.1

/-- Where items have spans that are apart, and what is found at an item begins in its span, the
    findings that begin in one of the spans are those of one item. -/
theorem filter_flatMap_of_apart {α : Type} {span : α → Span} {find : α → List Sighting}
    {xs : List α} {x : α} {keep : Sighting → Bool}
    (hapart : xs.Pairwise fun y z => (span y).stop ≤ (span z).start)
    (hfound : ∀ y ∈ xs, ∀ s ∈ find y, (span y).start ≤ s.span.start ∧ s.span.start < (span y).stop)
    (hx : x ∈ xs)
    (hkeep : ∀ s, keep s = true → (span x).start ≤ s.span.start ∧ s.span.start < (span x).stop) :
    (xs.flatMap find).filter keep = (find x).filter keep := by
  induction xs with
  | nil => cases hx
  | cons y ys ih =>
      rcases List.pairwise_cons.mp hapart with ⟨hlater, hrest⟩
      rcases List.forall_mem_cons.mp hfound with ⟨hfoundy, hfoundys⟩
      rw [List.flatMap_cons, List.filter_append]
      rcases List.mem_cons.mp hx with rfl | hx
      · -- What was found further on begins behind this span.
        have hnone : (ys.flatMap find).filter keep = [] := by
          rw [List.filter_eq_nil_iff]
          intro s hs hkept
          rcases List.mem_flatMap.mp hs with ⟨z, hz, hs⟩
          have hstart := hfoundys z hz s hs
          have hstop := hkeep s hkept
          have hbetween := hlater z hz
          omega
        rw [hnone, List.append_nil]
      · -- What was found here begins in front of the span that is still to come.
        have hnone : (find y).filter keep = [] := by
          rw [List.filter_eq_nil_iff]
          intro s hs hkept
          have hstop := hfoundy s hs
          have hstart := hkeep s hkept
          have hbetween := hlater x hx
          omega
        rw [hnone, List.nil_append, ih hrest hfoundys hx]

section

variable {scope : Scope} {sample : Option Value}

theorem mem_placeholders_iff {ns : List Node} {p : Placeholder} :
    p ∈ placeholders ns ↔ .placeholder p ∈ ns := by
  unfold placeholders
  rw [List.mem_filterMap]
  constructor
  · rintro ⟨n, hn, hp⟩
    cases n <;> cases hp
    exact hn
  · intro h
    exact ⟨_, h, rfl⟩

theorem mem_inclusions_iff {ns : List Node} {i : Inclusion} :
    i ∈ inclusions ns ↔ .inclusion i ∈ ns := by
  unfold inclusions
  rw [List.mem_filterMap]
  constructor
  · rintro ⟨n, hn, hi⟩
    cases n <;> cases hi
    exact hn
  · intro h
    exact ⟨_, h, rfl⟩

theorem isAbout_of_mem_callSightings {p : Placeholder} {call : FilterUse} {s : Sighting}
    (hcall : call ∈ p.filters) (hs : s ∈ callSightings scope call) :
    s.finding.IsAbout (.placeholder p) s.span := by
  unfold callSightings at hs
  split at hs
  · rw [List.mem_singleton.mp hs]
    exact .unknownFilter hcall _
  · split at hs
    · cases hs
    · split at hs
      · rw [List.mem_singleton.mp hs]
        exact .badArguments hcall _
      · cases hs

theorem isAbout_of_mem_shapeSightings {p : Placeholder} {s : Sighting}
    (hs : s ∈ shapeSightings scope sample p) : s.finding.IsAbout (.placeholder p) s.span := by
  unfold shapeSightings at hs
  cases hfilters : p.filters with
  | nil =>
      rw [hfilters] at hs
      cases hs
  | cons call rest =>
      simp only [hfilters] at hs
      split at hs
      · split at hs
        · rw [List.mem_singleton.mp hs]
          exact .suspiciousFilter (by rw [hfilters]; rfl) _ _
        · cases hs
      · cases hs

theorem isAbout_of_mem_absenceSightings {p : Placeholder} {s : Sighting}
    (hs : s ∈ absenceSightings scope sample p) : s.finding.IsAbout (.placeholder p) s.span := by
  unfold absenceSightings at hs
  split at hs
  · cases hs
  · split at hs
    · rw [List.mem_singleton.mp hs]
      exact .missingKey p
    · cases hs

theorem isAbout_of_mem_inclusionSightings {i : Inclusion} {s : Sighting}
    (hs : s ∈ inclusionSightings scope i) : s.finding.IsAbout (.inclusion i) s.span := by
  unfold inclusionSightings at hs
  split at hs
  · split at hs
    · rw [List.mem_singleton.mp hs]
      exact .circularInclusion i _
    · cases hs
  · rw [List.mem_singleton.mp hs]
    exact .unknownTemplate i _

/-- Every finding at a node is about something. -/
theorem isAbout_of_mem_nodeSightings {n : Node} {s : Sighting}
    (hs : s ∈ nodeSightings scope sample n) : s.finding.IsAbout n s.span := by
  cases n with
  | text => cases hs
  | inclusion i => exact isAbout_of_mem_inclusionSightings hs
  | placeholder p =>
      unfold nodeSightings placeholderSightings at hs
      rw [List.mem_append, List.mem_append, List.mem_flatMap] at hs
      rcases hs with (⟨call, hcall, hs⟩ | hs) | hs
      · exact isAbout_of_mem_callSightings hcall hs
      · exact isAbout_of_mem_shapeSightings hs
      · exact isAbout_of_mem_absenceSightings hs

/-- What a finding is about stands in the node. -/
theorem Finding.IsAbout.within {f : Finding} {n : Node} {span : Span} {source : String}
    (h : f.IsAbout n span) (hfaithful : n.IsFaithful source) (hne : n.span.start < n.span.stop) :
    n.span.start ≤ span.start ∧ span.start < span.stop ∧ span.stop ≤ n.span.stop ∧
      span.IsAligned source := by
  -- A filter stands between the braces of its placeholder.
  have hcall : ∀ {p : Placeholder} {call : FilterUse}, n = .placeholder p → call ∈ p.filters →
      n.span.start ≤ call.span.start ∧ call.span.start < call.span.stop ∧
        call.span.stop ≤ n.span.stop ∧ call.span.IsAligned source := by
    rintro p call rfl hcall
    have hp := hfaithful.filters p rfl
    have hinside := hp.inside call hcall
    simp only [Node.span]
    exact ⟨by omega, by omega, by omega, hp.aligned call hcall⟩
  have hself : n.span.start ≤ n.span.start ∧ n.span.start < n.span.stop ∧
      n.span.stop ≤ n.span.stop ∧ n.span.IsAligned source :=
    ⟨Nat.le_refl _, hne, Nat.le_refl _, hfaithful.aligned⟩
  cases h with
  | unknownFilter hmem => exact hcall rfl hmem
  | badArguments hmem => exact hcall rfl hmem
  | suspiciousFilter hfirst => exact hcall rfl (List.mem_of_head? hfirst)
  | missingKey => exact hself
  | unknownTemplate => exact hself
  | circularInclusion => exact hself

/-- A finding about a stretch of a source points at it. -/
theorem pointsAt_diagnostic {s : Sighting} {source : String} (hle : s.span.start ≤ s.span.stop)
    (haligned : s.span.IsAligned source) :
    (s.diagnostic (.ofSource source)).PointsAt source s.span := by
  have hsize : s.span.stop ≤ source.utf8ByteSize := by
    rcases isValid_iff.mp haligned.2 with ⟨before, after, hsource, hstop⟩
    rw [hstop, ← byteLength_toList, hsource, byteLength_append]
    omega
  exact ⟨⟨rfl, rfl⟩, ⟨rfl, rfl⟩, position_monotone source hle, position_monotone source hsize,
    ⟨hle, hsize⟩, haligned⟩

theorem perm_nodeSightings (ns : List Node) :
    ((placeholders ns).flatMap (placeholderSightings scope sample) ++
      (inclusions ns).flatMap (inclusionSightings scope)).Perm
        (ns.flatMap (nodeSightings scope sample)) := by
  induction ns with
  | nil => exact .nil
  | cons n ns ih =>
      cases n with
      | text s span => exact ih
      | placeholder p =>
          have hsplit : placeholders (.placeholder p :: ns) = p :: placeholders ns := rfl
          have hsame : inclusions (.placeholder p :: ns) = inclusions ns := rfl
          rw [hsplit, hsame, List.flatMap_cons, List.flatMap_cons, List.append_assoc]
          exact ih.append_left _
      | inclusion i =>
          -- The findings at the inclusion move to the front, past those at all placeholders.
          have hsplit : inclusions (.inclusion i :: ns) = i :: inclusions ns := rfl
          have hsame : placeholders (.inclusion i :: ns) = placeholders ns := rfl
          rw [hsplit, hsame, List.flatMap_cons, List.flatMap_cons]
          exact (List.perm_append_comm_assoc _ _ _).trans (ih.append_left _)

theorem pairwise_analyze (scope : Scope) (sample : Option Value) (source : String) :
    (analyze scope sample source).Pairwise fun d e => d.offset ≤ e.offset := by
  have htrans : ∀ s t u : Sighting, decide (s.span.start ≤ t.span.start) = true →
      decide (t.span.start ≤ u.span.start) = true →
        decide (s.span.start ≤ u.span.start) = true := by
    intro s t u hst htu
    rw [decide_eq_true_iff] at hst htu ⊢
    omega
  have htotal : ∀ s t : Sighting,
      (decide (s.span.start ≤ t.span.start) || decide (t.span.start ≤ s.span.start)) = true := by
    intro s t
    rw [Bool.or_eq_true, decide_eq_true_iff, decide_eq_true_iff]
    omega
  unfold analyze
  rw [List.pairwise_map]
  have hsorted := List.pairwise_mergeSort htrans htotal (sightings scope sample source)
  exact hsorted.imp fun h => of_decide_eq_true h

variable {source : String} {ns : List Node}

/-- A report is made of the findings at all nodes. -/
theorem perm_analyze (hread : readTemplate source = .ok ns) :
    (analyze scope sample source).Perm
      ((ns.flatMap (nodeSightings scope sample)).map (·.diagnostic (.ofSource source))) := by
  have hfound : (sightings scope sample source).Perm
      (ns.flatMap (nodeSightings scope sample)) := by
    unfold sightings
    rw [hread]
    exact perm_nodeSightings ns
  unfold analyze
  exact ((List.mergeSort_perm _ _).trans hfound).map _

/-- Every node holds something of its source, and stands in it apart from the others. -/
theorem nodes_apart (hread : readTemplate source = .ok ns) :
    (∀ n ∈ ns, n.span.start < n.span.stop) ∧
      ns.Pairwise fun n m => n.span.stop ≤ m.span.start := by
  have htiles := (spans_faithful hread).1.apart
  exact ⟨fun n hn => htiles.1 _ (List.mem_map_of_mem hn), List.pairwise_map.mp htiles.2⟩

theorem within_of_mem_nodeSightings (hread : readTemplate source = .ok ns) {n : Node}
    (hn : n ∈ ns) {s : Sighting} (hs : s ∈ nodeSightings scope sample n) :
    n.span.start ≤ s.span.start ∧ s.span.start < s.span.stop ∧ s.span.stop ≤ n.span.stop ∧
      s.span.IsAligned source :=
  (isAbout_of_mem_nodeSightings hs).within ((spans_faithful hread).2.2 n hn)
    ((nodes_apart hread).1 n hn)

/-- A part of a report that lies in the span of a node was found at this node. -/
theorem perm_filter_of_within (hread : readTemplate source = .ok ns) {n : Node} (hn : n ∈ ns)
    {keep : Diagnostic → Bool}
    (hkeep : ∀ d, keep d = true → n.span.start ≤ d.offset ∧ d.offset < n.span.stop) :
    ((analyze scope sample source).filter keep).Perm
      (((nodeSightings scope sample n).map (·.diagnostic (.ofSource source))).filter keep) := by
  have hfound : ∀ m ∈ ns, ∀ s ∈ nodeSightings scope sample m,
      m.span.start ≤ s.span.start ∧ s.span.start < m.span.stop := by
    intro m hm s hs
    have hwithin := within_of_mem_nodeSightings hread hm hs
    omega
  -- Sorting is gone with the permutation, and only this node has findings in its span.
  have hnode : (ns.flatMap (nodeSightings scope sample)).filter
        (keep ∘ (·.diagnostic (.ofSource source))) =
      (nodeSightings scope sample n).filter (keep ∘ (·.diagnostic (.ofSource source))) :=
    filter_flatMap_of_apart (nodes_apart hread).2 hfound hn fun s hs => hkeep _ hs
  have hperm := (@perm_analyze scope sample source ns hread).filter keep
  rw [List.filter_map, hnode] at hperm
  rwa [List.filter_map]

theorem isIn_iff {d : Diagnostic} {span : Span} :
    d.isIn span = true ↔ span.start ≤ d.offset ∧ d.offset < span.stop := by
  unfold Diagnostic.isIn
  rw [Bool.and_eq_true, decide_eq_true_iff, decide_eq_true_iff]

theorem isOf_iff {d : Diagnostic} {code : String} {span : Span} :
    d.isOf code span = true ↔ d.finding.code = code ∧ d.offset = span.start := by
  unfold Diagnostic.isOf
  rw [Bool.and_eq_true, beq_iff_eq, beq_iff_eq]

/-- What a report says in the span of a node is what was found there. -/
theorem perm_filter_isIn (hread : readTemplate source = .ok ns) {n : Node} (hn : n ∈ ns) :
    ((analyze scope sample source).filter (·.isIn n.span)).Perm
      ((nodeSightings scope sample n).map (·.diagnostic (.ofSource source))) := by
  have hall : ((nodeSightings scope sample n).map (·.diagnostic (.ofSource source))).filter
      (·.isIn n.span) = (nodeSightings scope sample n).map (·.diagnostic (.ofSource source)) := by
    rw [List.filter_eq_self]
    intro d hd
    rcases List.mem_map.mp hd with ⟨s, hs, rfl⟩
    have hwithin := within_of_mem_nodeSightings hread hn hs
    exact isIn_iff.mpr ⟨hwithin.1, by simp only [Sighting.diagnostic]; omega⟩
  have hperm := @perm_filter_of_within scope sample source ns hread n hn _
    fun d hd => isIn_iff.mp hd
  rwa [hall] at hperm

/-- What was found at the filters of a placeholder under the code of one of the two checks that look
    at every filter. -/
theorem filter_placeholderSightings {p : Placeholder} {keep : Sighting → Bool}
    (hkeep : ∀ s, keep s = true →
      s.finding.code = "unknown-filter" ∨ s.finding.code = "bad-args") :
    (placeholderSightings scope sample p).filter keep =
      (p.filters.flatMap (callSightings scope)).filter keep := by
  have hshapes : (shapeSightings scope sample p).filter keep = [] := by
    rw [List.filter_eq_nil_iff]
    intro s hs hkept
    have hcode := hkeep s hkept
    rw [code_of_mem_shapeSightings hs] at hcode
    exact absurd hcode (by decide)
  have habsences : (absenceSightings scope sample p).filter keep = [] := by
    rw [List.filter_eq_nil_iff]
    intro s hs hkept
    have hcode := hkeep s hkept
    rw [code_of_mem_absenceSightings hs] at hcode
    exact absurd hcode (by decide)
  unfold placeholderSightings
  rw [List.filter_append, List.filter_append, hshapes, habsences, List.append_nil,
    List.append_nil]

theorem span_of_mem_callSightings {call : FilterUse} {s : Sighting}
    (hs : s ∈ callSightings scope call) : s.span = call.span := by
  unfold callSightings at hs
  split at hs
  · rw [List.mem_singleton.mp hs]
  · split at hs
    · cases hs
    · split at hs
      · rw [List.mem_singleton.mp hs]
      · cases hs

/-- What a report says about a filter under one of the two codes is what was found there. -/
theorem perm_filter_isOf (hread : readTemplate source = .ok ns) {p : Placeholder}
    (hp : p ∈ placeholders ns) {call : FilterUse} (hcall : call ∈ p.filters) {code : String}
    (hcode : code = "unknown-filter" ∨ code = "bad-args") :
    ((analyze scope sample source).filter (·.isOf code call.span)).Perm
      (((callSightings scope call).filter (·.finding.code == code)).map
        (·.diagnostic (.ofSource source))) := by
  have hmem : .placeholder p ∈ ns := mem_placeholders_iff.mp hp
  have hfaithful := ((spans_faithful hread).2.2 _ hmem).filters p rfl
  have hinside := hfaithful.inside call hcall
  have hkeep : ∀ d : Diagnostic, d.isOf code call.span = true →
      p.span.start ≤ d.offset ∧ d.offset < p.span.stop := by
    intro d hd
    have hstart := (isOf_iff.mp hd).2
    omega
  have hperm := @perm_filter_of_within scope sample source ns hread _ hmem _ hkeep
  -- Of all filters of the placeholder only this one begins there.
  have hfilters : (p.filters.flatMap (callSightings scope)).filter
        ((·.isOf code call.span) ∘ (·.diagnostic (.ofSource source))) =
      (callSightings scope call).filter
        ((·.isOf code call.span) ∘ (·.diagnostic (.ofSource source))) := by
    refine filter_flatMap_of_apart hfaithful.ordered ?_ hcall ?_
    · intro other hother s hs
      have hbounds := hfaithful.inside other hother
      rw [span_of_mem_callSightings hs]
      omega
    · intro s hs
      have hstart : s.span.start = call.span.start := (isOf_iff.mp hs).2
      omega
  have hhere : (callSightings scope call).filter
        ((·.isOf code call.span) ∘ (·.diagnostic (.ofSource source))) =
      (callSightings scope call).filter (·.finding.code == code) := by
    refine List.filter_congr fun s hs => ?_
    simp [Diagnostic.isOf, Sighting.diagnostic, span_of_mem_callSightings hs]
  rw [List.filter_map, nodeSightings, filter_placeholderSightings, hfilters, hhere] at hperm
  · exact hperm
  · intro s hs
    rw [show s.finding.code = code from (isOf_iff.mp hs).1]
    exact hcode

theorem filter_unknownFilter_callSightings (scope : Scope) (call : FilterUse) :
    (callSightings scope call).filter (·.finding.code == "unknown-filter") =
      if scope.filters.contains call.name then []
      else [⟨.unknownFilter call.name (closestNames call.name scope.filters.names),
        call.span⟩] := by
  by_cases hknown : scope.filters.contains call.name = true
  · -- A finding with this code would stand in the way of a plan, but the filter is known.
    rw [if_pos hknown, List.filter_eq_nil_iff]
    intro s hs hcode
    have hblocking : s.finding.code ∈ blockingCodes := by
      rw [beq_iff_eq.mp hcode]
      decide
    have hunknown := exists_blocking_call_iff.mp ⟨s, hs, hblocking⟩
    rw [hknown] at hunknown
    cases hunknown
  · rw [if_neg hknown]
    unfold callSightings
    rw [origin?_eq_none_iff.mpr (Bool.eq_false_iff.mpr hknown)]
    rfl

theorem admits_eq_false_iff {arity : Arity} {count : Nat} : arity.admits count = false ↔
    count < arity.least ∨ ∃ most, arity.most = some most ∧ most < count := by
  unfold Arity.admits
  cases arity.most with
  | none => simp
  | some most =>
      simp only [Option.elim_some, Bool.and_eq_false_iff, decide_eq_false_iff_not, Nat.not_le,
        Option.some.injEq, exists_eq_left']

theorem isOwn_iff {origin : Origin} :
    origin.isOwn = true ↔ origin = .builtin ∨ origin = .locale := by
  cases origin <;> simp [Origin.isOwn]

/-- A call that misapplies its filter is found, with its arity. -/
theorem Scope.Misapplies.callSightings {call : FilterUse} {arity : Arity}
    (h : scope.Misapplies call arity) : callSightings scope call =
      [⟨.badArguments call.name arity call.args.length, call.span⟩] := by
  have hadmits := admits_eq_false_iff.mpr h.outside
  unfold Letterpress.callSightings
  rcases h.own with horigin | horigin
  · simp [horigin, h.rated, hadmits, Origin.isOwn]
  · simp [horigin, h.rated, hadmits, Origin.isOwn]

/-- Other calls are not. -/
theorem filter_badArguments_callSightings {call : FilterUse}
    (h : ∀ arity, ¬ scope.Misapplies call arity) :
    (callSightings scope call).filter (·.finding.code == "bad-args") = [] := by
  rw [List.filter_eq_nil_iff]
  intro s hs hcode
  unfold callSightings at hs
  split at hs
  · rw [List.mem_singleton.mp hs] at hcode
    exact absurd (beq_iff_eq.mp hcode) (by rw [Finding.code]; decide)
  · next origin horigin =>
      split at hs
      · cases hs
      · next arity harity =>
          split at hs
          · next hbad =>
              -- What was found has an arity, and it is one that the call misapplies.
              rw [Bool.and_eq_true, Bool.not_eq_true'] at hbad
              refine h arity ⟨?_, harity, admits_eq_false_iff.mp hbad.2⟩
              rw [horigin, Option.some_inj, Option.some_inj]
              exact isOwn_iff.mp hbad.1
          · cases hs

/-- A guess about shapes is made once for a placeholder, about its first filter. -/
theorem shapeSightings_cases (scope : Scope) (sample : Option Value) (p : Placeholder) :
    shapeSightings scope sample p = [] ∨
      ∃ call wanted actual, p.filters.head? = some call ∧ shapeSightings scope sample p =
        [⟨.suspiciousFilter call.name p.key wanted actual, call.span⟩] := by
  unfold shapeSightings
  cases p.filters with
  | nil => exact Or.inl rfl
  | cons call rest =>
      dsimp only
      split
      · next origin wanted actual _ _ _ =>
          by_cases hbad : (origin.isOwn && wanted != actual) = true
          · exact Or.inr ⟨call, wanted, actual, rfl, if_pos hbad⟩
          · exact Or.inl (if_neg hbad)
      · exact Or.inl rfl

theorem filter_suspiciousFilter_placeholderSightings (p : Placeholder) :
    (placeholderSightings scope sample p).filter (·.finding.code == "suspicious-filter") =
      shapeSightings scope sample p := by
  -- Findings of the other two kinds have codes of their own, so only shapes are kept.
  have hcalls : (p.filters.flatMap (callSightings scope)).filter
      (·.finding.code == "suspicious-filter") = [] := by
    rw [List.filter_eq_nil_iff]
    intro s hs hcode
    rcases List.mem_flatMap.mp hs with ⟨call, _, hs⟩
    have hcode := beq_iff_eq.mp hcode
    rcases code_of_mem_callSightings hs with hother | hother
    · rw [hother] at hcode
      exact absurd hcode (by decide)
    · rw [hother] at hcode
      exact absurd hcode (by decide)
  have habsences : (absenceSightings scope sample p).filter
      (·.finding.code == "suspicious-filter") = [] := by
    rw [List.filter_eq_nil_iff]
    intro s hs hcode
    rw [code_of_mem_absenceSightings hs] at hcode
    exact absurd (beq_iff_eq.mp hcode) (by decide)
  have hshapes : (shapeSightings scope sample p).filter
      (·.finding.code == "suspicious-filter") = shapeSightings scope sample p := by
    rw [List.filter_eq_self]
    intro s hs
    exact beq_iff_eq.mpr (code_of_mem_shapeSightings hs)
  unfold placeholderSightings
  rw [List.filter_append, List.filter_append, hcalls, hshapes, habsences, List.nil_append,
    List.append_nil]

theorem length_inclusionSightings_le (scope : Scope) (i : Inclusion) :
    (inclusionSightings scope i).length ≤ 1 := by
  unfold inclusionSightings
  split
  · split <;> simp
  · simp

/-- A report on a source that can be read leaves nothing out. -/
theorem isFullReport_analyze (hread : readTemplate source = .ok ns) :
    scope.IsFullReport sample source ns (analyze scope sample source) := by
  constructor
  case ordered => exact pairwise_analyze scope sample source
  case kept => exact perm_analyze hread
  case atNode => exact fun n hn => perm_filter_isIn hread hn
  -- What is kept of a sorted list is known up to its order, which says all of one finding or none.
  case unknown =>
    intro p hp call hcall
    have hperm := @perm_filter_isOf scope sample source ns hread p hp call hcall _ (Or.inl rfl)
    rw [filter_unknownFilter_callSightings] at hperm
    by_cases hknown : scope.filters.contains call.name = true
    · rw [if_pos hknown] at hperm ⊢
      exact List.perm_nil.mp hperm
    · rw [if_neg hknown] at hperm ⊢
      exact List.perm_singleton.mp hperm
  case misapplied =>
    intro p hp call hcall arity hbad
    have hperm := @perm_filter_isOf scope sample source ns hread p hp call hcall _ (Or.inr rfl)
    rw [hbad.callSightings] at hperm
    exact List.perm_singleton.mp hperm
  case applied =>
    intro p hp call hcall hgood
    have hperm := @perm_filter_isOf scope sample source ns hread p hp call hcall _ (Or.inr rfl)
    rw [filter_badArguments_callSightings hgood] at hperm
    exact List.perm_nil.mp hperm
  case suspicious =>
    intro p hp
    have hnode := @perm_filter_isIn scope sample source ns hread _ (mem_placeholders_iff.mp hp)
    have hperm := hnode.filter (·.finding.code == "suspicious-filter")
    have hshapes : (nodeSightings scope sample (.placeholder p)).filter
        ((·.finding.code == "suspicious-filter") ∘ (·.diagnostic (.ofSource source))) =
      shapeSightings scope sample p := filter_suspiciousFilter_placeholderSightings p
    rw [List.filter_map, hshapes] at hperm
    rcases shapeSightings_cases scope sample p with hnone | ⟨call, wanted, actual, hfirst, hone⟩
    · rw [hnone] at hperm
      exact Or.inl (List.perm_nil.mp hperm)
    · rw [hone] at hperm
      exact Or.inr ⟨call, wanted, actual, hfirst, List.perm_singleton.mp hperm⟩
  case included =>
    intro i hi
    have hperm := @perm_filter_isIn scope sample source ns hread _ (mem_inclusions_iff.mp hi)
    have hlength := length_inclusionSightings_le scope i
    rw [← List.length_map (·.diagnostic (.ofSource source))] at hlength
    exact hperm.length_eq ▸ hlength
  case located =>
    intro d hd
    rcases List.mem_map.mp ((perm_analyze hread).mem_iff.mp hd) with ⟨s, hs, rfl⟩
    rcases List.mem_flatMap.mp hs with ⟨n, hn, hs⟩
    have hwithin := within_of_mem_nodeSightings hread hn hs
    exact ⟨n, hn, s.span, isAbout_of_mem_nodeSightings hs,
      pointsAt_diagnostic (Nat.le_of_lt hwithin.2.1) hwithin.2.2.2⟩

end

/-- A filter of a table that was added to was in the table before, or was added. -/
theorem origin?_add {table : FilterTable} {added origin : Origin}
    {filters : List (String × Filter)} {name : String}
    (h : (FilterTable.add table added filters).origin? name = some origin) :
    (origin = added ∧ name ∈ filters.map (·.1)) ∨ table.origin? name = some origin := by
  induction filters generalizing table with
  | nil => exact Or.inr h
  | cons f filters ih =>
      rcases ih h with ⟨horigin, hmem⟩ | hbefore
      · exact Or.inl ⟨horigin, List.mem_cons_of_mem _ hmem⟩
      · unfold FilterTable.origin? at hbefore ⊢
        rw [Dictionary.get?_insert] at hbefore
        by_cases hname : f.1 = name
        · rw [if_pos hname] at hbefore
          cases hbefore
          exact Or.inl ⟨rfl, hname ▸ List.mem_cons_self⟩
        · rw [if_neg hname] at hbefore
          exact Or.inr hbefore

/-- Every filter of the library has an arity, so where a name still means one, its count of
    arguments is never left unchecked. -/
theorem exists_arityOf?_of_isOwn {locale : String} {plugins caller : FilterSet} {name : String}
    {origin : Origin} (h : (FilterTable.gather locale plugins caller).origin? name = some origin)
    (hown : origin.isOwn = true) : ∃ arity, arityOf? name = some arity := by
  have htexts : ∀ other ∈ TextFilter.all.map (·.1), (arityOf? other).isSome = true := by decide
  have hlocale : ∀ other ∈ (LocaleFilter.all (.ofTag locale)).map (·.1),
      (arityOf? other).isSome = true := by
    simp only [LocaleFilter.all, List.map_cons, List.map_nil]
    decide
  rw [← Option.isSome_iff_exists]
  unfold FilterTable.gather at h
  -- From the place that wins back to the one that is asked last.
  rcases origin?_add h with ⟨rfl, _⟩ | h
  · cases hown
  rcases origin?_add h with ⟨rfl, _⟩ | h
  · cases hown
  rcases origin?_add h with ⟨_, hmem⟩ | h
  · exact hlocale name hmem
  rcases origin?_add h with ⟨_, hmem⟩ | h
  · exact htexts name hmem
  · cases h

/-- A report leaves nothing out, and says nothing twice. On a source that can be read it holds the
    findings at all nodes, each of them once, in the order of their offsets. A filter is reported
    once as unknown exactly if there is none of its name, and once for its arguments exactly if it
    is one of the library and its arity does not admit so many. The shape of what a placeholder
    shows is reported at most once, and only at its first filter; an inclusion has one finding at
    most. Every diagnostic is about a filter, a placeholder or an inclusion, and its range is where
    that stands in the source. A source that cannot be read has one diagnostic, at the place where
    reading stopped. -/
theorem report_complete (scope : Scope) (sample : Option Value) (source : String) :
    (∀ ns, readTemplate source = .ok ns →
      scope.IsFullReport sample source ns (analyze scope sample source)) ∧
    ∀ e, readTemplate source = .error e → ∃ d, analyze scope sample source = [d] ∧
      d.finding = .malformed e.fault ∧ d.PointsAt source ⟨e.offset, e.offset⟩ := by
  refine ⟨fun ns hread => isFullReport_analyze hread, fun e hread => ?_⟩
  -- Reading stops behind some characters of the source.
  have hvalid : (⟨e.offset⟩ : String.Pos.Raw).IsValid source := by
    rcases exists_completion hread with ⟨taken, rest, _, _, hsource, hoffset, _⟩
    rw [hoffset]
    exact isValid_of_append hsource
  have honly : sightings scope sample source =
      [⟨.malformed e.fault, ⟨e.offset, e.offset⟩⟩] := by
    unfold sightings
    rw [hread]
  refine ⟨(⟨.malformed e.fault, ⟨e.offset, e.offset⟩⟩ : Sighting).diagnostic (.ofSource source),
    ?_, rfl, pointsAt_diagnostic (Nat.le_refl _) ⟨hvalid, hvalid⟩⟩
  unfold analyze
  rw [honly, List.mergeSort_singleton, List.map_singleton]

/-- A scope with the filters on texts, and no templates. -/
def desk : Scope where
  filters := FilterTable.add .empty .builtin TextFilter.all
  templates := .ofList []
  options := {}

/-- A source with a misspelt filter, with one that has too many arguments, and with an inclusion of
    nothing. -/
def slip : String := "\x7bname|uper|trim:2\x7d\x7b>nowhere\x7d"

/-- The placeholder of the slip. -/
def slipPlaceholder : Placeholder :=
  ⟨["name"], [⟨"uper", [], ⟨5, 10⟩⟩, ⟨"trim", ["2"], ⟨10, 17⟩⟩], ⟨0, 18⟩⟩

theorem report_complete_slip :
    (readTemplate slip = .ok [.placeholder slipPlaceholder, .inclusion ⟨"nowhere", ⟨18, 28⟩⟩] ∧
      desk.IsFullReport none slip
        [.placeholder slipPlaceholder, .inclusion ⟨"nowhere", ⟨18, 28⟩⟩]
        (analyze desk none slip) ∧
      ((analyze desk none slip).filter (·.isOf "unknown-filter" ⟨5, 10⟩)).length = 1 ∧
      ((analyze desk none slip).filter (·.isOf "bad-args" ⟨10, 17⟩)).length = 1) ∧
    readTemplate "\x7b" = .error ⟨.identifierExpected, 1⟩ ∧
      ∃ d, analyze desk none "\x7b" = [d] ∧ d.finding = .malformed .identifierExpected ∧
        d.PointsAt "\x7b" ⟨1, 1⟩ := by
  have hread : readTemplate slip =
      .ok [.placeholder slipPlaceholder, .inclusion ⟨"nowhere", ⟨18, 28⟩⟩] := by decide +kernel
  have hstop : readTemplate "\x7b" = .error ⟨.identifierExpected, 1⟩ := by decide +kernel
  have hreport := (report_complete desk none slip).1 _ hread
  refine ⟨⟨hread, hreport, ?_, ?_⟩, hstop, (report_complete desk none "\x7b").2 _ hstop⟩
  · have hunknown : desk.filters.contains "uper" = false := by decide
    have hone := hreport.unknown slipPlaceholder List.mem_cons_self ⟨"uper", [], ⟨5, 10⟩⟩
      List.mem_cons_self
    rw [hone, hunknown]
    rfl
  · have hbad : desk.Misapplies ⟨"trim", ["2"], ⟨10, 17⟩⟩ (.exactly 0) :=
      ⟨Or.inl (by decide), rfl, Or.inr ⟨0, rfl, by decide⟩⟩
    have hone := hreport.misapplied slipPlaceholder List.mem_cons_self ⟨"trim", ["2"], ⟨10, 17⟩⟩
      (List.mem_cons_of_mem _ List.mem_cons_self) _ hbad
    rw [hone]
    rfl

end Letterpress
