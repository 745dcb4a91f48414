import Letterpress.Proofs.Agreement
import Letterpress.Proofs.Refusal

/-!
# Absence

Given sample data, an analysis says which keys are missing. It decides that for each placeholder
on its own, before there is a plan, and it sorts what it finds. Rendering goes through the plan,
stops at the first fault, and knows about missing keys only from the policy of the plan. The two
share nothing but the options, and yet the report is what rendering runs into: where missing keys
are errors, and no filter gets in the way, rendering with the same data fails exactly if there is
a missing key in the report, and then with the first one.

On both sides stands the same list, the keys of the placeholders that have no value, in document
order. The report is this list because sorting leaves the findings of one sort in the order of
the source. Rendering comes to its first item because a placeholder with a value gives a text and
one without a value ends the walk.

## Main definitions

* `Finding.missing?`: The key that a finding says to be missing.
* `absentKeys`: The keys of the placeholders without a value.
* `IsStoppedBy`: What comes out is a text, or the first of the keys.
* `Scope.IsPrompt`: The filters of nodes are known, and none may have to wait.
* `Scope.Works`: No filter fails for a placeholder with a value.

## Theorems

* `filter_missing?_sightings`: Missing keys are found at placeholders only.
* `missing?_analyze`: The missing keys of a report are the keys of placeholders without a value.
* `eq_of_interpretPlaceholder_missingKey`: The missing key of a placeholder is its own.
* `mem_absentKeys_of_interprets`: What nodes miss is missing.
* `isStoppedBy_of_works`: If filters work, nodes go as far as the first key that is missing.
* `exists_compile_of_isPrompt`: Sources without inclusions compile if their filters are known.
* `absences_foretold`: Missing keys in a report are those that rendering runs into.
-/

namespace Letterpress

/-- The key that a finding says to be missing. -/
def Finding.missing? : Finding → Option String
  | .missingKey key => some key
  | _ => none

/-- The keys of the placeholders without a value in the data, in document order, each as often as
    it stands there. -/
def absentKeys (context : Value) (ns : List Node) : List String :=
  ((placeholders ns).filter fun p => (context.lookup p.path).isNone).map Placeholder.key

/-- All filters that nodes name are known, and none of them may have to wait. -/
def Scope.IsPrompt (scope : Scope) (ns : List Node) : Prop :=
  ∀ p ∈ placeholders ns, ∀ call ∈ p.filters,
    ∃ f, scope.filters.filter? call.name = some f ∧ f.isWaiting = false

/-- If there is a value for a placeholder, none of its filters fails. -/
def Scope.Works (scope : Scope) (context : Value) (p : Placeholder) : Prop :=
  ∀ v, context.lookup p.path = some v →
    ∃ w, p.filters.foldlM (applyUse scope.filters p.key) v = .ok w

/-- What comes out is a text if no keys are missing, and the first of them if some are. -/
def IsStoppedBy : List String → Except Fault String → Prop
  | [], r => ∃ s, r = .ok s
  | key :: _, r => r = .error (.missingKey key)

theorem refusesAbsence_iff {o : Options} :
    o.refusesAbsence = true ↔ o.strict = true ∨ o.whenAbsent = .error := by
  unfold Options.refusesAbsence Options.effective
  rw [beq_iff_eq]
  by_cases hstrict : o.strict = true
  · simp [hstrict, AbsencePolicy.kind]
  · rw [if_neg hstrict, or_iff_right hstrict]
    cases o.whenAbsent <;> simp [AbsencePolicy.kind]

section

variable {scope : Scope} {sample : Option Value} {source : String} {ns : List Node}

theorem isSome_missing?_iff {f : Finding} :
    f.missing?.isSome = true ↔ f.code = "missing-key" := by
  cases f <;> simp [Finding.missing?, Finding.code]

theorem filter_missing?_eq_nil {ss : List Sighting}
    (h : ∀ s ∈ ss, s.finding.code ≠ "missing-key") :
    ss.filter (·.finding.missing?.isSome) = [] :=
  List.filter_eq_nil_iff.mpr fun s hs hmissing => h s hs (isSome_missing?_iff.mp hmissing)

/-- A finding about a placeholder that says a key to be missing is about its absence. -/
theorem filter_missing?_placeholderSightings (p : Placeholder) :
    (placeholderSightings scope sample p).filter (·.finding.missing?.isSome) =
      absenceSightings scope sample p := by
  have hcalls : (p.filters.flatMap (callSightings scope)).filter
      (·.finding.missing?.isSome) = [] := by
    refine filter_missing?_eq_nil fun s hs => ?_
    rcases List.mem_flatMap.mp hs with ⟨call, _, hs⟩
    rcases code_of_mem_callSightings hs with hcode | hcode
    · rw [hcode]
      decide
    · rw [hcode]
      decide
  have hshape : (shapeSightings scope sample p).filter (·.finding.missing?.isSome) = [] := by
    refine filter_missing?_eq_nil fun s hs => ?_
    rw [code_of_mem_shapeSightings hs]
    decide
  have habsence : (absenceSightings scope sample p).filter (·.finding.missing?.isSome) =
      absenceSightings scope sample p := by
    rw [List.filter_eq_self]
    intro s hs
    exact isSome_missing?_iff.mpr (code_of_mem_absenceSightings hs)
  unfold placeholderSightings
  rw [List.filter_append, List.filter_append, hcalls, hshape, habsence, List.nil_append,
    List.nil_append]

/-- Missing keys are found at placeholders, and nowhere else. -/
theorem filter_missing?_sightings (hread : readTemplate source = .ok ns) :
    (sightings scope sample source).filter (·.finding.missing?.isSome) =
      (placeholders ns).flatMap (absenceSightings scope sample) := by
  have hinclusions : ((inclusions ns).flatMap (inclusionSightings scope)).filter
      (·.finding.missing?.isSome) = [] := by
    refine filter_missing?_eq_nil fun s hs => ?_
    rcases List.mem_flatMap.mp hs with ⟨i, _, hs⟩
    rcases code_of_mem_inclusionSightings hs with hcode | hcode
    · rw [hcode]
      decide
    · rw [hcode]
      decide
  unfold sightings
  rw [hread]
  simp only [List.filter_append, hinclusions, List.append_nil, List.filter_flatMap,
    filter_missing?_placeholderSightings]

/-- Where the options refuse absence, each placeholder without a value is found. -/
theorem flatMap_absenceSightings {context : Value}
    (hrefuses : scope.options.refusesAbsence = true) (ps : List Placeholder) :
    ps.flatMap (absenceSightings scope (some context)) =
      (ps.filter fun p => (context.lookup p.path).isNone).map
        fun p => ⟨.missingKey p.key, p.span⟩ := by
  induction ps with
  | nil => rfl
  | cons p ps ih =>
      rw [List.flatMap_cons, ih, absenceSightings, hrefuses, Bool.true_and, List.filter_cons]
      by_cases hnone : (context.lookup p.path).isNone = true
      · rw [if_pos hnone, if_pos hnone, List.map_cons, List.singleton_append]
      · rw [if_neg hnone, if_neg hnone, List.nil_append]

theorem filterMap_filter_missing? (fs : List Finding) :
    (fs.filter (·.missing?.isSome)).filterMap Finding.missing? =
      fs.filterMap Finding.missing? := by
  rw [List.filterMap_filter]
  refine List.filterMap_congr fun f _ => ?_
  cases hmissing : f.missing? <;> rfl

/-- The missing keys of a report are those of the placeholders without a value, in document
    order. -/
theorem missing?_analyze {context : Value} (hread : readTemplate source = .ok ns)
    (hrefuses : scope.options.refusesAbsence = true) :
    (analyze scope (some context) source).filterMap (·.finding.missing?) =
      absentKeys context ns := by
  have hfound := @filter_missing?_sightings scope (some context) source ns hread
  rw [flatMap_absenceSightings hrefuses] at hfound
  -- Sorting only leaves these findings alone because they are in the order of the source already.
  have hordered : ((sightings scope (some context) source).filter
      (·.finding.missing?.isSome)).Pairwise fun s t => s.span.start ≤ t.span.start := by
    rw [hfound, List.pairwise_map]
    exact ((pairwise_placeholders hread).filter _).imp Nat.le_of_lt
  calc (analyze scope (some context) source).filterMap (·.finding.missing?)
      _ = (((analyze scope (some context) source).map (·.finding)).filter
            (·.missing?.isSome)).filterMap Finding.missing? := by
        rw [filterMap_filter_missing?, List.filterMap_map]
        rfl
      _ = (((sightings scope (some context) source).map (·.finding)).filter
            (·.missing?.isSome)).filterMap Finding.missing? := by
        rw [filter_analyze (p := fun f => f.missing?.isSome) hordered]
      _ = ((sightings scope (some context) source).filter
            (·.finding.missing?.isSome)).filterMap (·.finding.missing?) := by
        rw [List.filter_map, List.filterMap_map]
        rfl
      _ = absentKeys context ns := by
        rw [hfound, List.filterMap_map]
        exact congrFun List.filterMap_eq_map _

theorem applyUse_ne_missingKey {table : FilterTable} {key path : String} {v : Value}
    {call : FilterUse} : applyUse table key v call ≠ .error (.missingKey path) := by
  unfold applyUse
  split
  · exact fun h => nomatch h
  · split
    · exact fun h => nomatch h
    · exact fun h => nomatch h

/-- Filters that fail do not say that a key is missing. -/
theorem foldlM_ne_missingKey {table : FilterTable} {key path : String}
    {calls : List FilterUse} {v : Value} :
    calls.foldlM (applyUse table key) v ≠ .error (.missingKey path) := by
  induction calls generalizing v with
  | nil => exact fun h => nomatch h
  | cons call calls ih =>
      rw [List.foldlM_cons]
      cases hcall : applyUse table key v call with
      | error f =>
          rintro ⟨rfl⟩
          exact applyUse_ne_missingKey hcall
      | ok w => exact ih

theorem absence_of_refusesAbsence {o : Options} (hrefuses : o.refusesAbsence = true)
    (key : String) : absence o key = .error (.missingKey key) := by
  unfold absence
  by_cases hstrict : o.strict = true
  · rw [if_pos hstrict]
  · rw [if_neg hstrict, (refusesAbsence_iff.mp hrefuses).resolve_left hstrict]

variable {context : Value}

theorem interpretPlaceholder_of_lookup_none {p : Placeholder}
    (hrefuses : scope.options.refusesAbsence = true) (hnone : context.lookup p.path = none) :
    interpretPlaceholder scope context p = .error (.missingKey p.key) := by
  unfold interpretPlaceholder
  rw [seek_eq_lookup, hnone]
  exact absence_of_refusesAbsence hrefuses p.key

theorem Scope.Works.exists_text {p : Placeholder} (hworks : scope.Works context p)
    {v : Value} (hsome : context.lookup p.path = some v) :
    ∃ s, interpretPlaceholder scope context p = .ok s := by
  rcases hworks v hsome with ⟨w, hw⟩
  refine ⟨w.display, ?_⟩
  unfold interpretPlaceholder
  rw [seek_eq_lookup, hsome]
  simp only [hw, Except.map]

/-- If a placeholder says that a key is missing, the key is its own, and it is missing. -/
theorem eq_of_interpretPlaceholder_missingKey {p : Placeholder} {path : String}
    (h : interpretPlaceholder scope context p = .error (.missingKey path)) :
    context.lookup p.path = none ∧ path = p.key := by
  unfold interpretPlaceholder at h
  rw [seek_eq_lookup] at h
  cases hlookup : context.lookup p.path with
  | some v =>
      rw [hlookup] at h
      exact absurd (eq_error_of_map_error h) foldlM_ne_missingKey
  | none =>
      rw [hlookup] at h
      refine ⟨rfl, ?_⟩
      simp only [absence] at h
      split at h
      · cases h
        rfl
      · split at h
        · cases h
        · cases h
          rfl
        · cases h

theorem absentKeys_placeholder_of_none {p : Placeholder} (hnone : context.lookup p.path = none)
    (rest : List Node) :
    absentKeys context (.placeholder p :: rest) = p.key :: absentKeys context rest := by
  simp only [absentKeys, placeholders, List.filterMap_cons, List.filter_cons, hnone,
    Option.isNone_none, if_true, List.map_cons]

theorem absentKeys_placeholder_of_some {p : Placeholder} {v : Value}
    (hsome : context.lookup p.path = some v) (rest : List Node) :
    absentKeys context (.placeholder p :: rest) = absentKeys context rest := by
  simp [absentKeys, placeholders, hsome]

/-- A key that nodes without inclusions say to be missing is missing. -/
theorem mem_absentKeys_of_interprets {r : Except Fault String} {path : String}
    (hmeaning : Interprets scope context ns r) (hinclusions : inclusions ns = [])
    (hr : r = .error (.missingKey path)) : path ∈ absentKeys context ns := by
  induction hmeaning with
  | done => cases hr
  | text _ ih => exact ih hinclusions (eq_error_of_map_error hr)
  | @placeholder p rest s r hp _ ih =>
      have hrest := ih hinclusions (eq_error_of_map_error hr)
      cases hlookup : context.lookup p.path with
      | none =>
          rw [absentKeys_placeholder_of_none hlookup]
          exact List.mem_cons_of_mem _ hrest
      | some v => rwa [absentKeys_placeholder_of_some hlookup]
  | placeholderFault hp =>
      cases hr
      rcases eq_of_interpretPlaceholder_missingKey hp with ⟨hnone, rfl⟩
      rw [absentKeys_placeholder_of_none hnone]
      exact List.mem_cons_self
  | inclusion => cases hinclusions
  | inclusionFault => cases hinclusions

theorem IsStoppedBy.map {keys : List String} {r : Except Fault String}
    (h : IsStoppedBy keys r) (s : String) : IsStoppedBy keys (r.map (s ++ ·)) := by
  cases keys with
  | nil =>
      rcases h with ⟨t, rfl⟩
      exact ⟨s ++ t, rfl⟩
  | cons key keys =>
      cases h
      rfl

/-- Where absence is refused and filters work, nodes without inclusions go as far as the first key
    that is missing. -/
theorem isStoppedBy_of_works {r : Except Fault String}
    (hmeaning : Interprets scope context ns r) (hinclusions : inclusions ns = [])
    (hrefuses : scope.options.refusesAbsence = true)
    (hworks : ∀ p ∈ placeholders ns, scope.Works context p) :
    IsStoppedBy (absentKeys context ns) r := by
  induction hmeaning with
  | done => exact ⟨"", rfl⟩
  | @text s span rest r _ ih => exact (ih hinclusions hworks).map s
  | @placeholder p rest s r hp _ ih =>
      rcases List.forall_mem_cons.mp hworks with ⟨_, hrest⟩
      cases hlookup : context.lookup p.path with
      | none =>
          -- Without a value there would have been a fault instead of a text.
          rw [interpretPlaceholder_of_lookup_none hrefuses hlookup] at hp
          cases hp
      | some v =>
          rw [absentKeys_placeholder_of_some hlookup]
          exact (ih hinclusions hrest).map s
  | @placeholderFault p rest f hp =>
      rcases List.forall_mem_cons.mp hworks with ⟨hwork, _⟩
      cases hlookup : context.lookup p.path with
      | none =>
          rw [interpretPlaceholder_of_lookup_none hrefuses hlookup] at hp
          cases hp
          rw [absentKeys_placeholder_of_none hlookup]
          rfl
      | some v =>
          -- With a value there would have been a text, since the filters work.
          rcases hwork.exists_text hlookup with ⟨s, hs⟩
          rw [hs] at hp
          cases hp
  | inclusion => cases hinclusions
  | inclusionFault => cases hinclusions

/-- Without inclusions nothing spreads. -/
theorem Scope.Spreads.eq_placeholders {ps : List Placeholder} (hspreads : scope.Spreads ns ps)
    (hinclusions : inclusions ns = []) : ps = placeholders ns := by
  induction hspreads with
  | nil => rfl
  | text _ ih => exact ih hinclusions
  | placeholder _ ih => exact congrArg _ (ih hinclusions)
  | inclusion => cases hinclusions

theorem Scope.IsPrompt.knows (hprompt : scope.IsPrompt ns) : scope.Knows ns := by
  intro p hp call hcall
  rcases hprompt p hp call hcall with ⟨f, hf, _⟩
  exact contains_iff_filter?.mpr ⟨f, hf⟩

/-- In lists that are paired, what stands on the right has a partner on the left. -/
theorem exists_mem_left_of_forall₂ {α β : Type} {R : α → β → Prop} {xs : List α} {ys : List β}
    (h : List.Forall₂ R xs ys) {y : β} (hy : y ∈ ys) : ∃ x ∈ xs, R x y := by
  induction h with
  | nil => cases hy
  | @cons x y' xs ys hxy _ ih =>
      rcases List.mem_cons.mp hy with rfl | hy
      · exact ⟨x, List.mem_cons_self, hxy⟩
      · rcases ih hy with ⟨x', hx', hxy'⟩
        exact ⟨x', List.mem_cons_of_mem _ hx', hxy'⟩

/-- Nodes without inclusions have a plan if their filters are known, and if those answer at once,
    so do the holes of the plan. -/
theorem exists_compile_of_isPrompt (hread : readTemplate source = .ok ns)
    (hinclusions : inclusions ns = []) (hprompt : scope.IsPrompt ns) :
    ∃ plan, compileSource scope source = .ok plan ∧ ∀ h ∈ plan.holes, h.IsImmediate := by
  have hopens : ∀ i ∈ inclusions ns, scope.Opens [] i.name := by
    rw [hinclusions]
    exact List.forall_mem_nil _
  rcases exists_compile_iff.mpr (exists_expand_iff.mpr ⟨hprompt.knows, hopens⟩) with
    ⟨plan, hplan⟩
  rw [← compileSource_of_read hread] at hplan
  refine ⟨plan, hplan, ?_⟩
  rcases forall₂_holeOf_of_compileSource hplan with ⟨ns', ps, hread', hspreads, hholes⟩
  rw [hread] at hread'
  cases hread'
  rw [hspreads.eq_placeholders hinclusions] at hholes
  intro h hh s hs
  -- Every step of a hole is a filter of a placeholder, found by its name.
  rcases exists_mem_left_of_forall₂ hholes hh with ⟨p, hp, hole⟩
  rcases exists_mem_left_of_forall₂ (isResolved_of_holeOf hole).2 hs with ⟨call, hcall, hresolved⟩
  rcases hprompt p hp call hcall with ⟨f, hf, hwait⟩
  rw [hresolved.2.2] at hf
  cases hf
  exact hwait

end

/-- Missing keys in a report are those that rendering runs into. For a source without inclusions
    whose filters are known and answer at once, and options that make missing keys an error, the
    report for some data names the keys of the placeholders that have no value in these data, in
    document order and as often as they occur. There is a plan, and when it is filled in with the
    same data, it says of no other key that it is missing. If moreover no filter fails for a
    placeholder with a value, it is filled in exactly if nothing is missing, and otherwise it names
    the first key of the report. -/
theorem absences_foretold {scope : Scope} {source : String} {ns : List Node}
    (hread : readTemplate source = .ok ns) (hinclusions : inclusions ns = [])
    (hprompt : scope.IsPrompt ns)
    (hrefuses : scope.options.strict = true ∨ scope.options.whenAbsent = .error)
    (context : Value) :
    (analyze scope (some context) source).filterMap (·.finding.missing?) =
        absentKeys context ns ∧
      ∃ plan, compileSource scope source = .ok plan ∧
        (∀ key, plan.render context = .error (.missingKey key) → key ∈ absentKeys context ns) ∧
        ((∀ p ∈ placeholders ns, scope.Works context p) →
          ((∃ f, plan.render context = .error f) ↔ absentKeys context ns ≠ []) ∧
            ∀ key rest, absentKeys context ns = key :: rest →
              plan.render context = .error (.missingKey key)) := by
  have hrefuses := refusesAbsence_iff.mpr hrefuses
  rcases exists_compile_of_isPrompt hread hinclusions hprompt with ⟨plan, hplan, himmediate⟩
  refine ⟨missing?_analyze hread hrefuses, plan, hplan, ?_⟩
  rw [compileSource_of_read hread] at hplan
  have hmeaning := interprets_render hplan himmediate context
  refine ⟨fun key hkey => mem_absentKeys_of_interprets hmeaning hinclusions hkey, fun hworks => ?_⟩
  have hstopped := isStoppedBy_of_works hmeaning hinclusions hrefuses hworks
  -- The keys say what stops the plan: nothing if there are none, and the first one otherwise.
  cases habsent : absentKeys context ns with
  | nil =>
      rw [habsent] at hstopped
      rcases hstopped with ⟨s, hs⟩
      simp [hs]
  | cons key rest =>
      rw [habsent] at hstopped
      have hfirst : plan.render context = .error (.missingKey key) := hstopped
      simp [hfirst]

/-- A scope in which missing keys are errors, with one filter. -/
def formScope : Scope where
  filters := Dictionary.empty.insert "shout" ⟨shout, .caller⟩
  templates := .empty
  options := { whenAbsent := .error }

/-- A form with four places to fill in, two of them with the same key. -/
def form : String := "\x7byou|shout\x7d\x7bgone\x7d\x7ba.b\x7d\x7bgone\x7d"

/-- The nodes of the form. -/
def formNodes : List Node :=
  [.placeholder ⟨["you"], [⟨"shout", [], ⟨4, 10⟩⟩], ⟨0, 11⟩⟩,
    .placeholder ⟨["gone"], [], ⟨11, 17⟩⟩, .placeholder ⟨["a", "b"], [], ⟨17, 22⟩⟩,
    .placeholder ⟨["gone"], [], ⟨22, 28⟩⟩]

/-- Data in which one path leads through null. -/
def formData : Value := .record [("you", .text "me"), ("a", .null)]

theorem absences_foretold_form :
    readTemplate form = .ok formNodes ∧ inclusions formNodes = [] ∧
      formScope.IsPrompt formNodes ∧ formScope.options.whenAbsent = .error ∧
      (∀ p ∈ placeholders formNodes, formScope.Works formData p) ∧
      (analyze formScope (some formData) form).filterMap (·.finding.missing?) =
        ["gone", "a.b", "gone"] ∧
      ∃ plan, compileSource formScope form = .ok plan ∧
        (∃ f, plan.render formData = .error f) ∧
        plan.render formData = .error (.missingKey "gone") := by
  have hread : readTemplate form = .ok formNodes := by decide +kernel
  have hprompt : formScope.IsPrompt formNodes := by
    refine List.forall_mem_cons.mpr ⟨List.forall_mem_singleton.mpr ⟨shout, rfl, rfl⟩, ?_⟩
    simp
  have hworks : ∀ p ∈ placeholders formNodes, formScope.Works formData p := by
    refine List.forall_mem_cons.mpr ⟨fun v hv => ?_, ?_⟩
    · cases hv
      exact ⟨.text "me!", rfl⟩
    · have hnone : ∀ p ∈ (placeholders formNodes).tail, formData.lookup p.path = none := by decide
      intro p hp v hv
      rw [hnone p hp] at hv
      cases hv
  have habsent : absentKeys formData formNodes = ["gone", "a.b", "gone"] := by decide
  rcases absences_foretold hread rfl hprompt (Or.inr rfl) formData with
    ⟨hreport, plan, hplan, _, hrender⟩
  rcases hrender hworks with ⟨hfails, hfirst⟩
  refine ⟨hread, rfl, hprompt, rfl, hworks, hreport.trans habsent, plan, hplan, ?_, ?_⟩
  · exact hfails.mpr (habsent ▸ List.cons_ne_nil _ _)
  · exact hfirst _ _ habsent

end Letterpress
