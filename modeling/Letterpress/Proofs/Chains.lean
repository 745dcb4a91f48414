import Letterpress.Proofs.Agreement
import Mathlib.Data.List.Chain
import Mathlib.Data.List.Nodup

/-!
# Chains

A circle is reported as a chain of names, so that it can be found and broken. For this the chain
has to be more than a sign that there is a circle somewhere: it has to be a way that can be walked.
The first name stands in the source at hand, every name is included by the template of the name in
front of it, and the way ends at a name that it has passed before, the first time that this
happens.

Names become active one after the other on the way down, and the invariant is that they are such a
way so far, to whichever of the names at hand comes next. Where the search stops, this name is one
of the active ones. Nothing has to be said about names that are finished, or cannot be entered,
since the search takes nothing down for them. Expansion reports the chain that the search would
have found, so one induction is enough for both.

A chain ends on its circle, but it need not begin there. The template that a source includes may
only lead to the circle, and then it does not include itself, whatever the hint of the report says
about it. What includes itself is the last name of the chain.

## Main definitions

* `Scope.IsWay`: Names that lead from nodes down through inclusions.
* `Scope.GoesRound`: A way that ends at a name passed before.
* `Diagnostic.IsAt`: The place that a diagnostic points at.

## Theorems

* `goesRound_of_searchCycle`, `goesRound_of_cycleFrom?`: What the search reports goes round.
* `goesRound_of_expand`: So does what expansion stops at.
* `exists_inclusion_of_circle`: A circle in a report belongs to an inclusion of the source.
* `circles_genuine`: The chains are genuine, and reported exactly where there is a circle.
* `circle_at_last`: The last name of a chain lies on a circle.
-/

namespace Letterpress

open Relation

/-- Names that lead down from nodes: the nodes include the first, and each includes the next. -/
structure Scope.IsWay (scope : Scope) (top : List Node) (way : List String) : Prop where
  entered : ∃ i ∈ inclusions top, way.head? = some i.name
  linked : way.IsChain scope.Includes

/-- A way of two names or more that ends at a name which it has passed before, and passes no other
    name twice. -/
structure Scope.GoesRound (scope : Scope) (top : List Node) (chain : List String) : Prop
    extends Scope.IsWay scope top chain where
  long : 2 ≤ chain.length
  distinct : chain.dropLast.Nodup
  closed : ∃ name ∈ chain.dropLast, chain.getLast? = some name

/-- The diagnostic points at a stretch of a source. -/
def Diagnostic.IsAt (d : Diagnostic) (source : String) (span : Span) : Prop :=
  d.offset = span.start ∧ d.range = (LineTable.ofSource source).range span

section

variable {scope : Scope} {top : List Node}

theorem isWay_singleton {i : Inclusion} (hi : i ∈ inclusions top) : scope.IsWay top [i.name] where
  entered := ⟨i, hi, rfl⟩
  linked := .singleton _

/-- A way goes on with anything that its last name includes. -/
theorem Scope.IsWay.append {active : List String} {name other : String}
    (h : scope.IsWay top (active ++ [name])) (hincludes : scope.Includes name other) :
    scope.IsWay top (active ++ [name] ++ [other]) where
  entered := by
    rcases h.entered with ⟨i, hi, hhead⟩
    exact ⟨i, hi, by rw [List.head?_append, hhead, Option.some_or]⟩
  linked := by
    refine h.linked.append (.singleton _) ?_
    intro last hlast next hnext
    rw [List.getLast?_concat] at hlast
    cases hlast
    cases hnext
    exact hincludes

/-- A way that meets a name again goes round. -/
theorem Scope.IsWay.goesRound {active : List String} {name : String}
    (h : scope.IsWay top (active ++ [name])) (hdistinct : active.Nodup) (hmem : name ∈ active) :
    scope.GoesRound top (active ++ [name]) where
  toIsWay := h
  long := by
    have hpos := List.length_pos_of_mem hmem
    rw [List.length_append, List.length_singleton]
    omega
  distinct := by rwa [List.dropLast_concat]
  closed := ⟨name, by rwa [List.dropLast_concat], List.getLast?_concat⟩

theorem Scope.GoesRound.mono {ns : List Node} {chain : List String}
    (h : scope.GoesRound top chain) (hsubset : inclusions top ⊆ inclusions ns) :
    scope.GoesRound ns chain where
  entered := by
    rcases h.entered with ⟨i, hi, hhead⟩
    exact ⟨i, hsubset hi, hhead⟩
  linked := h.linked
  long := h.long
  distinct := h.distinct
  closed := h.closed

/-- On a way every name leads to all that come after it. -/
theorem Scope.IsWay.pairwise {way : List String} (h : scope.IsWay top way) :
    way.Pairwise (TransGen scope.Includes) :=
  List.isChain_iff_pairwise.mp (h.linked.imp fun _ _ => .single)

/-- A way that goes round leads from its first name to its last one, and from there back to it. -/
theorem Scope.GoesRound.exists_last {chain : List String} {name : String}
    (h : scope.GoesRound top chain) (hhead : chain.head? = some name) :
    ∃ last, chain.getLast? = some last ∧ TransGen scope.Includes name last ∧
      TransGen scope.Includes last last := by
  rcases h.closed with ⟨last, hmem, hlast⟩
  have hsplit : chain = chain.dropLast ++ [last] :=
    (List.dropLast_append_getLast? last hlast).symm
  have hpairwise := h.pairwise
  rw [hsplit, List.pairwise_append] at hpairwise
  -- All names in front of the last one lead to it, and it is among them.
  have hleads : ∀ other ∈ chain.dropLast, TransGen scope.Includes other last :=
    fun other hother => hpairwise.2.2 other hother last List.mem_cons_self
  refine ⟨last, hlast, hleads name ?_, hleads last hmem⟩
  rw [hsplit, List.head?_append_of_ne_nil _ (List.ne_nil_of_mem hmem)] at hhead
  exact List.mem_of_head? hhead

/-- The search reports a way that goes round, whatever it has finished before, if the active names
    are a way to each of the names at hand. -/
theorem goesRound_of_searchCycle {active finished names chain : List String}
    (hdistinct : active.Nodup) (hways : ∀ name ∈ names, scope.IsWay top (active ++ [name]))
    (h : searchCycle scope active finished names = .error chain) : scope.GoesRound top chain := by
  fun_induction searchCycle scope active finished names generalizing chain with
  | case1 => cases h
  | case2 active finished name rest hactive =>
      cases h
      exact (hways name List.mem_cons_self).goesRound hdistinct hactive
  | case3 active finished name rest _ _ ih =>
      exact ih hdistinct (List.forall_mem_cons.mp hways).2 h
  | case4 active finished name rest _ _ _ ih =>
      exact ih hdistinct (List.forall_mem_cons.mp hways).2 h
  | case5 active finished name rest hactive _ inner hinner found hfound ih =>
      cases h
      -- The name is new, so it makes the way longer by one.
      have hnew : (active ++ [name]).Nodup :=
        List.Nodup.append hdistinct (List.nodup_singleton name)
          (List.disjoint_singleton.mpr hactive)
      refine ih hnew ?_ hfound
      intro other hother
      have hincludes : scope.Includes name other := (mem_includedNames_iff hinner).mp hother
      exact (hways name List.mem_cons_self).append hincludes
  | case6 active finished name rest _ _ inner hinner found _ _ ih =>
      exact ih hdistinct (List.forall_mem_cons.mp hways).2 h

theorem goesRound_of_cycleFrom? {i : Inclusion} {chain : List String}
    (h : cycleFrom? scope i.name = some chain) : scope.GoesRound [.inclusion i] chain := by
  have hway : scope.IsWay [.inclusion i] [i.name] := isWay_singleton List.mem_cons_self
  unfold cycleFrom? at h
  cases hsearch : searchCycle scope [] [] [i.name] with
  | ok found =>
      rw [hsearch] at h
      cases h
  | error chain' =>
      rw [hsearch] at h
      cases h
      exact goesRound_of_searchCycle .nil (List.forall_mem_singleton.mpr hway) hsearch

/-- Expansion stops at a circle with a way that goes round. -/
theorem goesRound_of_expand {ns : List Node} {chain : List String}
    (h : expand scope [] ns = .error (.circularInclusion chain)) : scope.GoesRound ns chain := by
  have hsearch : searchCycle scope [] [] ((inclusions ns).map (·.name)) = .error chain :=
    searchCycle_of_expand (isBelow_nil scope _) (List.forall_mem_nil _) h
  refine goesRound_of_searchCycle .nil (fun name hname => ?_) hsearch
  rcases List.mem_map.mp hname with ⟨i, hi, rfl⟩
  exact isWay_singleton hi

/-- A circle in a report was found from an inclusion of the source, and points at it. -/
theorem exists_inclusion_of_circle {sample : Option Value} {source : String} {ns : List Node}
    {d : Diagnostic} {name : String} {chain : List String} (hread : readTemplate source = .ok ns)
    (hd : d ∈ analyze scope sample source) (hfinding : d.finding = .circularInclusion name chain) :
    ∃ i ∈ inclusions ns, i.name = name ∧ cycleFrom? scope i.name = some chain ∧
      d.IsAt source i.span := by
  rcases mem_analyze_iff.mp hd with ⟨s, hs, rfl⟩
  unfold sightings at hs
  simp only [hread, List.mem_append, List.mem_flatMap] at hs
  -- No circle is found at a placeholder, so it was found at an inclusion.
  rcases hs with ⟨p, _, hs⟩ | ⟨i, hi, hs⟩
  · have hcode := not_circular_of_mem_placeholderSightings hs
    rw [show s.finding = _ from hfinding] at hcode
    exact absurd rfl hcode
  · refine ⟨i, hi, ?_⟩
    rw [← span_of_mem_inclusionSightings hs]
    unfold inclusionSightings at hs
    split at hs
    · split at hs
      · next chain' hcycle =>
          rw [List.mem_singleton.mp hs] at hfinding ⊢
          cases hfinding
          exact ⟨rfl, hcycle, rfl, rfl⟩
      · cases hs
    · rw [List.mem_singleton.mp hs] at hfinding
      cases hfinding

theorem isCircle_iff {f : Finding} :
    f.isCircle = true ↔ ∃ name chain, f = .circularInclusion name chain := by
  unfold Finding.isCircle Finding.code
  cases f <;> simp

/-- Inclusions that begin at the same place are the same. -/
theorem inclusion_eq_of_start {source : String} {ns : List Node} {i j : Inclusion}
    (hread : readTemplate source = .ok ns) (hi : i ∈ inclusions ns) (hj : j ∈ inclusions ns)
    (hstart : i.span.start = j.span.start) : i = j := by
  have hdistinct : ((inclusions ns).map (·.span.start)).Nodup := by
    rw [List.Nodup, List.pairwise_map]
    exact (pairwise_inclusions hread).imp Nat.ne_of_lt
  exact List.inj_on_of_nodup_map hdistinct hi hj hstart

/-- An inclusion of a registered template is reported as a circle exactly if it leads to one. -/
theorem exists_circle_at_iff {sample : Option Value} {source : String} {ns : List Node}
    {i : Inclusion} (hread : readTemplate source = .ok ns) (hi : i ∈ inclusions ns)
    (hregistered : scope.templates.contains i.name = true) :
    (∃ d ∈ analyze scope sample source, d.finding.isCircle = true ∧ d.IsAt source i.span) ↔
      scope.LeadsToCircle i.name := by
  constructor
  · rintro ⟨d, hd, hcircle, hat⟩
    rcases isCircle_iff.mp hcircle with ⟨name, chain, hfinding⟩
    rcases exists_inclusion_of_circle hread hd hfinding with ⟨j, hj, _, hcycle, hat'⟩
    -- The diagnostic was found at the inclusion that it points at, and at no other one.
    have hsame : i = j := inclusion_eq_of_start hread hi hj (hat.1.symm.trans hat'.1)
    rw [hsame]
    exact leadsToCircle_of_cycleFrom? hcycle
  · intro hleads
    cases hcycle : cycleFrom? scope i.name with
    | none => exact absurd hleads (cycleFrom?_eq_none_iff.mp hcycle)
    | some chain =>
        have hs : (⟨.circularInclusion i.name chain, i.span⟩ : Sighting) ∈
            sightings scope sample source := by
          unfold sightings
          rw [hread]
          refine List.mem_append_right _ (List.mem_flatMap.mpr ⟨i, hi, ?_⟩)
          unfold inclusionSightings
          rw [if_pos hregistered, hcycle]
          exact List.mem_cons_self
        exact ⟨_, mem_analyze_iff.mpr ⟨_, hs, rfl⟩, rfl, rfl, rfl⟩

theorem goesRound_of_report {sample : Option Value} {source : String} {d : Diagnostic}
    {name : String} {chain : List String} (hd : d ∈ analyze scope sample source)
    (hfinding : d.finding = .circularInclusion name chain) :
    ∃ ns i, readTemplate source = .ok ns ∧ i ∈ inclusions ns ∧ i.name = name ∧
      d.IsAt source i.span ∧ chain.head? = some name ∧ scope.GoesRound ns chain := by
  cases hread : readTemplate source with
  | error e =>
      -- A source that cannot be read has another finding, and no other one.
      rcases mem_analyze_iff.mp hd with ⟨s, hs, rfl⟩
      unfold sightings at hs
      rw [hread] at hs
      rw [List.mem_singleton.mp hs] at hfinding
      cases hfinding
  | ok ns =>
      rcases exists_inclusion_of_circle hread hd hfinding with ⟨i, hi, hname, hcycle, hat⟩
      have hround : scope.GoesRound [.inclusion i] chain := goesRound_of_cycleFrom? hcycle
      rcases hround.entered with ⟨j, hj, hhead⟩
      rw [List.mem_singleton.mp hj, hname] at hhead
      have hsubset : inclusions [.inclusion i] ⊆ inclusions ns := by
        intro k hk
        rwa [List.mem_singleton.mp hk]
      exact ⟨ns, i, rfl, hi, hname, hat, hhead, hround.mono hsubset⟩

end

/-- Circles are reported truthfully. The chain that stops a source from being compiled, and each
    chain in the report on a source, leads from an inclusion of the source down to a name that it
    has passed before, and in a report this is the inclusion that the diagnostic points at. And a
    report points at an inclusion of a registered template in this way exactly if a template that
    leads back to itself can be reached from there. -/
theorem circles_genuine (scope : Scope) (sample : Option Value) (source : String) :
    (∀ chain, compileSource scope source = .error (.circularInclusion chain) →
        ∃ ns, readTemplate source = .ok ns ∧ scope.GoesRound ns chain) ∧
      (∀ d ∈ analyze scope sample source, ∀ name chain,
        d.finding = .circularInclusion name chain →
          ∃ ns i, readTemplate source = .ok ns ∧ i ∈ inclusions ns ∧ i.name = name ∧
            d.IsAt source i.span ∧ chain.head? = some name ∧ scope.GoesRound ns chain) ∧
      ∀ ns, readTemplate source = .ok ns →
        ∀ i ∈ inclusions ns, scope.templates.contains i.name = true →
          ((∃ d ∈ analyze scope sample source, d.finding.isCircle = true ∧
            d.IsAt source i.span) ↔ scope.LeadsToCircle i.name) := by
  refine ⟨fun chain hcompile => ?_, fun d hd name chain => goesRound_of_report hd,
    fun ns hread i hi => exists_circle_at_iff hread hi⟩
  cases hread : readTemplate source with
  | error e =>
      rw [compileSource_of_error hread] at hcompile
      cases hcompile
  | ok ns =>
      rw [compileSource_of_read hread, compile_eq_error_iff] at hcompile
      exact ⟨ns, rfl, goesRound_of_expand hcompile⟩

/-- A scope in which one template includes itself, and another one only leads to it. -/
def spiral : Scope where
  filters := .empty
  templates := .ofList [("entry", "\x7b>ring\x7d"), ("ring", "\x7b>ring\x7d")]
  options := {}

/-- A source that includes the template beside the circle. -/
def approach : String := "\x7b>entry\x7d"

theorem readTemplate_approach :
    readTemplate approach = .ok [.inclusion ⟨"entry", ⟨0, 8⟩⟩] := by
  decide +kernel

theorem registered?_entry : spiral.registered? "entry" = some [.inclusion ⟨"ring", ⟨0, 7⟩⟩] := by
  decide +kernel

theorem registered?_ring : spiral.registered? "ring" = some [.inclusion ⟨"ring", ⟨0, 7⟩⟩] := by
  decide +kernel

theorem compileSource_approach :
    compileSource spiral approach = .error (.circularInclusion ["entry", "ring", "ring"]) := by
  have h₁ : spiral.enter [] "entry" = .ok _ := enter_eq_ok_iff.mpr ⟨by decide, registered?_entry⟩
  have h₂ : spiral.enter ["entry"] "ring" = .ok _ :=
    enter_eq_ok_iff.mpr ⟨by decide, registered?_ring⟩
  have h₃ : spiral.enter ["entry", "ring"] "ring" =
      .error (.circularInclusion ["entry", "ring", "ring"]) := if_pos (by decide)
  rw [compileSource_of_read readTemplate_approach, compile_eq_error_iff]
  simp only [expand_inclusion, h₁, h₂, h₃, List.nil_append, List.cons_append]

theorem exists_circle_approach : ∃ d ∈ analyze spiral none approach,
    d.finding = .circularInclusion "entry" ["entry", "ring", "ring"] := by
  have hexpand := compileSource_approach
  rw [compileSource_of_read readTemplate_approach, compile_eq_error_iff] at hexpand
  have hcycle := cycleFrom?_of_expand hexpand
  have hs : (⟨.circularInclusion "entry" ["entry", "ring", "ring"], ⟨0, 8⟩⟩ : Sighting) ∈
      sightings spiral none approach := by
    unfold sightings
    rw [readTemplate_approach]
    refine List.mem_append_right _ (List.mem_flatMap.mpr ⟨_, List.mem_cons_self, ?_⟩)
    unfold inclusionSightings
    rw [if_pos (contains_of_registered? registered?_entry), hcycle]
    exact List.mem_cons_self
  exact ⟨_, mem_analyze_iff.mpr ⟨_, hs, rfl⟩, rfl⟩

/-- The chain is the same twice, from the entry down to the ring. -/
theorem circles_genuine_approach :
    compileSource spiral approach = .error (.circularInclusion ["entry", "ring", "ring"]) ∧
      (∃ ns, readTemplate approach = .ok ns ∧
        spiral.GoesRound ns ["entry", "ring", "ring"]) ∧
      (∃ d ∈ analyze spiral none approach, ∃ ns i, readTemplate approach = .ok ns ∧
        i ∈ inclusions ns ∧ i.name = "entry" ∧ d.IsAt approach i.span ∧
        spiral.GoesRound ns ["entry", "ring", "ring"]) ∧
      spiral.LeadsToCircle "entry" := by
  rcases circles_genuine spiral none approach with ⟨hcompile, hreport, hexact⟩
  rcases exists_circle_approach with ⟨d, hd, hfinding⟩
  rcases hreport d hd _ _ hfinding with ⟨ns, i, hread, hi, hname, hat, _, hround⟩
  have hregistered : spiral.templates.contains i.name = true := by
    rw [hname]
    exact contains_of_registered? registered?_entry
  have hleads := (hexact ns hread i hi hregistered).mp
    ⟨d, hd, isCircle_iff.mpr ⟨_, _, hfinding⟩, hat⟩
  rw [hname] at hleads
  exact ⟨compileSource_approach, hcompile _ compileSource_approach,
    ⟨d, hd, ns, i, hread, hi, hname, hat, hround⟩, hleads⟩

/-- What the hint on a circle says of the included template is true of the last name of the chain:
    it can be reached from the included template, and it eventually includes itself. The included
    template itself does so if the last name leads back to it, as it does where the chain ends
    with the name that it began with. -/
theorem circle_at_last {scope : Scope} {sample : Option Value} {source : String} {d : Diagnostic}
    {name : String} {chain : List String} (hd : d ∈ analyze scope sample source)
    (hfinding : d.finding = .circularInclusion name chain) :
    d.finding.hint = some ("template \"" ++ name ++ "\" eventually includes itself") ∧
      ∃ last, chain.getLast? = some last ∧ TransGen scope.Includes name last ∧
        TransGen scope.Includes last last ∧
        (ReflTransGen scope.Includes last name → TransGen scope.Includes name name) := by
  rcases goesRound_of_report hd hfinding with ⟨_, _, _, _, _, _, hhead, hround⟩
  rcases hround.exists_last hhead with ⟨last, hlast, hleads, hcircle⟩
  refine ⟨by rw [hfinding]; rfl, last, hlast, hleads, hcircle, fun hback => ?_⟩
  exact hleads.trans_left hback

theorem circle_at_last_approach : ∃ d ∈ analyze spiral none approach,
    d.finding = .circularInclusion "entry" ["entry", "ring", "ring"] ∧
      TransGen spiral.Includes "entry" "ring" ∧ TransGen spiral.Includes "ring" "ring" := by
  rcases exists_circle_approach with ⟨d, hd, hfinding⟩
  rcases circle_at_last hd hfinding with ⟨_, last, hlast, hleads, hcircle, _⟩
  cases hlast
  exact ⟨d, hd, hfinding, hleads, hcircle⟩

/-- The hint can be wrong: nothing but the ring can be reached from the entry. -/
theorem entry_beside_circle : ∃ d ∈ analyze spiral none approach,
    d.finding.hint = some "template \"entry\" eventually includes itself" ∧
      ¬ TransGen spiral.Includes "entry" "entry" := by
  rcases exists_circle_approach with ⟨d, hd, hfinding⟩
  refine ⟨d, hd, by rw [hfinding]; rfl, fun hback => ?_⟩
  have hentry : ∀ other, spiral.Includes "entry" other → other = "ring" :=
    fun _ h => List.mem_singleton.mp ((mem_map_name_iff registered?_entry).mpr h)
  have hring : ∀ other, spiral.Includes "ring" other → other = "ring" :=
    fun _ h => List.mem_singleton.mp ((mem_map_name_iff registered?_ring).mpr h)
  have hreached : ∀ other, TransGen spiral.Includes "entry" other → other = "ring" := by
    intro other hpath
    induction hpath with
    | single hstep => exact hentry _ hstep
    | tail _ hstep ih =>
        rw [ih] at hstep
        exact hring _ hstep
  exact absurd (hreached "entry" hback) (by decide)

end Letterpress
