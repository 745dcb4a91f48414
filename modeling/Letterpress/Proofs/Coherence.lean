import Letterpress.Proofs.EngineRun

/-!
# Coherence

What comes from the cache of an engine is what compiling anew would give. This holds at any time,
whatever was done with the engine before: a plan never outlives the templates, filters and hooks
that it was made with.

It cannot hold without conditions. The fingerprint of a request knows filters by their names and
a callback by its sort, so requests with the same fingerprint must mean the same filters and the
same callback by it. `Unambiguous` says so, and the rest of the options is found to be settled by
the fingerprint, but for the size of the cache, which does not matter for a plan. And a plugin may
look at its notebook, which changes all the time; what it does to a source and which filters it
contributes must not depend on it. That is `Plugin.Steady`.

The invariant of a run is that every entry of the cache belongs to some request, and that the
engine at rest compiles this request to the plan of the entry. Nothing but a change to templates
or plugins can break that, and then the cache is emptied. In between, entries only get lost,
except for one that has just been compiled.

## Main definitions

* `Options.withoutSize`: Options without the size of the cache.
* `Plugin.Steady`, `Host.Steady`: What plugins do before rendering does not depend on notebooks.
* `Unambiguous`: Requests with the same fingerprint mean the same functions by it.
* `Engine.Coherent`: The cache holds what its keys compile to.

## Theorems

* `Unambiguous.withoutSize_eq`: A fingerprint settles all of the options that matter for a plan.
* `expand_congr`: An expansion depends on filters and templates only.
* `Engine.planAnew_fst_eq_rested`: With steady plugins, compiling does not depend on notebooks.
* `Cache.mem_of_mem_insert`, `Cache.insert_fst`: What an insertion can add and answer.
* `Engine.Coherent.of_entries`: Losing entries does no harm.
* `Engine.Coherent.plan_eq`: What the cache holds for a request is what it compiles to.
* `Engine.coherent_compile`: Compiling keeps an engine coherent, and answers as without the cache.
* `Engine.coherent_perform`, `Engine.coherent_run`: So does everything else, in any order.
* `compile_eq_planAnew`: Compiling answers as without the cache after any run.
-/

namespace Letterpress

universe u v

/-- The options as far as they matter for a plan. -/
def Options.withoutSize (o : Options) : Options := { o with cacheSize := none }

/-- The view as far as it may matter for what a plugin does before rendering. -/
def PluginView.withoutSize (v : PluginView) : PluginView :=
  { v with options := v.options.withoutSize }

/-- What a plugin does to a source, and which filters it contributes, depends on the source and
    on what the plugin sees, but neither on its notebook nor on the size of the cache. -/
structure Plugin.Steady (p : Plugin) : Prop where
  filters : ∀ view notes, (p.filters view notes).1 = (p.filters view.withoutSize .empty).1
  onSource : ∀ text view notes,
    (p.onSource text view notes).1 = (p.onSource text view.withoutSize .empty).1

/-- All plugins are steady. -/
def Host.Steady (h : Host) : Prop := ∀ g ∈ h.guests, g.plugin.Steady

/-- Among the requests, those with the same fingerprint agree in what the fingerprint does not
    show: in the filter that goes by a name, and in the callback, if there is one. -/
def Unambiguous (requested : String → Options → Prop) : Prop :=
  ∀ s o s' o', requested s o → requested s' o' → Fingerprint.of s o = Fingerprint.of s' o' →
    (∀ name f f', o.filters.get? name = some f → o'.filters.get? name = some f' → f = f') ∧
      ∀ f f', o.whenAbsent = .callback f → o'.whenAbsent = .callback f' → f = f'

theorem AbsencePolicy.eq_of_kind_eq {m m' : AbsencePolicy} (hkind : m.kind = m'.kind)
    (hcallback : ∀ f f', m = .callback f → m' = .callback f' → f = f') : m = m' := by
  cases m with
  | keep =>
      cases m' with
      | keep => rfl
      | error => cases hkind
      | callback f' => cases hkind
  | error =>
      cases m' with
      | keep => cases hkind
      | error => rfl
      | callback f' => cases hkind
  | callback f =>
      cases m' with
      | keep => cases hkind
      | error => cases hkind
      | callback f' => rw [hcallback f f' rfl rfl]

/-- Requests with the same fingerprint have the same options, but for the size of the cache. -/
theorem Unambiguous.withoutSize_eq {requested : String → Options → Prop}
    (h : Unambiguous requested) {s s' : String} {o o' : Options} (hs : requested s o)
    (hs' : requested s' o') (hprint : Fingerprint.of s o = Fingerprint.of s' o') :
    o.withoutSize = o'.withoutSize := by
  rcases h s o s' o' hs hs' hprint with ⟨hbodies, hcallback⟩
  have hlocale : o.locale = o'.locale := congrArg Fingerprint.locale hprint
  have hstrict : o.strict = o'.strict := congrArg Fingerprint.strict hprint
  have habsent : o.whenAbsent = o'.whenAbsent :=
    AbsencePolicy.eq_of_kind_eq (congrArg Fingerprint.whenAbsent hprint) hcallback
  have hfilters : o.filters = o'.filters :=
    Dictionary.eq_of_names_eq (congrArg Fingerprint.filters hprint) hbodies
  unfold Options.withoutSize
  rw [hlocale, hstrict, habsent, hfilters]

theorem Host.chain_fst_eq_rested
    {hook hook' : Plugin → String → Notebook → Except String String × Notebook}
    {guests : List Guest}
    (h : ∀ g ∈ guests, ∀ text, (hook g.plugin text g.notes).1 = (hook' g.plugin text .empty).1)
    (text : String) :
    (chain hook text guests).1 = (chain hook' text (guests.map Guest.rested)).1 := by
  induction guests generalizing text with
  | nil => rfl
  | cons g rest ih =>
      rcases g with ⟨p, notes⟩
      have hfirst := h ⟨p, notes⟩ List.mem_cons_self text
      have hrest := ih fun g hg => h g (List.mem_cons_of_mem _ hg)
      simp only [List.map_cons, Guest.rested, chain]
      rcases hhook : hook p text notes with ⟨answer, after⟩
      rcases hhook' : hook' p text .empty with ⟨answer', after'⟩
      simp only [hhook, hhook'] at hfirst
      subst hfirst
      cases answer with
      | error reason => rfl
      | ok passed => exact hrest passed

theorem Host.withoutSize_view (h : Host) (options : Options) (p : Plugin) :
    (h.view options p).withoutSize = h.rested.view options.withoutSize p := rfl

theorem Host.passSource_fst_eq_rested {h : Host} (hsteady : h.Steady) (source : String)
    (options : Options) :
    (h.passSource source options).1 = (h.rested.passSource source options.withoutSize).1 := by
  refine chain_fst_eq_rested (fun g hg text => ?_) source
  rw [(hsteady g hg).onSource, withoutSize_view]

theorem Host.contributions_fst_eq_rested {h : Host} (hsteady : h.Steady) (options : Options) :
    (h.contributions options).1 = (h.rested.contributions options.withoutSize).1 := by
  have hguests : h.rested.guests = h.guests.map Guest.rested := rfl
  simp only [contributions, hguests, List.foldl_map, Guest.rested]
  refine List.foldl_ext _ _ _ fun merged g hg => ?_
  rw [(hsteady g hg).filters, withoutSize_view]

theorem Host.steady_rested (h : Host) : h.rested.Steady ↔ h.Steady := by
  unfold Steady rested
  rw [List.forall_mem_map]
  rfl

theorem Host.rested_rested (h : Host) : h.rested.rested = h.rested := by
  unfold rested
  rw [List.map_map]
  rfl

theorem Host.Steady.of_rested_eq {h h' : Host} (hsteady : h.Steady)
    (hrested : h'.rested = h.rested) : h'.Steady := by
  rw [← steady_rested, hrested, steady_rested]
  exact hsteady

theorem Host.Steady.add {h : Host} (hsteady : h.Steady) {p : Plugin} (hp : p.Steady) :
    (h.add p).Steady := by
  intro g hg
  rcases List.mem_append.mp (List.mem_mergeSort.mp hg) with hg | hg
  · exact hsteady g (List.mem_of_mem_eraseP hg)
  · rw [List.mem_singleton.mp hg]
    exact hp

theorem Host.Steady.remove {h : Host} (hsteady : h.Steady) (name : String) :
    (h.remove name).2.Steady :=
  fun g hg => hsteady g (List.mem_of_mem_filter hg)

theorem expand_congr {scope scope' : Scope} (hfilters : scope.filters = scope'.filters)
    (htemplates : scope.templates = scope'.templates) (active : List String) (ns : List Node) :
    expand scope active ns = expand scope' active ns := by
  have henter : ∀ active name, scope.enter active name = scope'.enter active name := by
    intro active name
    unfold Scope.enter
    rw [htemplates]
  have hhole : ∀ p, scope.holeOf p = scope'.holeOf p := by
    intro p
    unfold Scope.holeOf
    rw [hfilters]
  fun_induction expand scope active ns with
  | case1 => rw [expand]
  | case2 active s span rest f hrest ih => rw [expand, ← ih, hrest]
  | case3 active s span rest ps hrest ih => rw [expand, ← ih, hrest]
  | case4 active p rest f hp => rw [expand, ← hhole, hp]
  | case5 active p rest h hp f hrest ih => rw [expand, ← hhole, hp, ← ih, hrest]
  | case6 active p rest h hp ps hrest ih => rw [expand, ← hhole, hp, ← ih, hrest]
  | case7 active i rest f hi => rw [expand_inclusion, ← henter, hi]
  | case8 active i rest inner hi f hinner ih =>
      simp only [expand_inclusion, ← henter, hi, ← ih, hinner]
  | case9 active i rest inner hi ps hinner f hrest ih₁ ih₂ =>
      simp only [expand_inclusion, ← henter, hi, ← ih₁, hinner, ← ih₂, hrest]
  | case10 active i rest inner hi ps hinner qs hrest ih₁ ih₂ =>
      simp only [expand_inclusion, ← henter, hi, ← ih₁, hinner, ← ih₂, hrest]

theorem compileSource_congr {scope scope' : Scope} (hfilters : scope.filters = scope'.filters)
    (htemplates : scope.templates = scope'.templates)
    (habsent : scope.options.effective = scope'.options.effective) (source : String) :
    compileSource scope source = compileSource scope' source := by
  simp only [compileSource, compile, expand_congr hfilters htemplates, habsent]

namespace Cache

variable {κ : Type u} {α : Type v}

theorem mem_of_mem_resize {c : Cache κ α} {capacity : Nat} {entry : CacheEntry κ α}
    (h : entry ∈ (c.resize capacity).entries) : entry ∈ c.entries := by
  simp only [resize] at h
  split at h
  · cases h
  · exact h

variable [DecidableEq κ]

theorem mem_of_find? {c : Cache κ α} {key : κ} {item : α} (h : c.find? key = some item) :
    ∃ entry ∈ c.entries, entry.key = key ∧ entry.item = item := by
  rw [find?, Option.map_eq_some_iff] at h
  rcases h with ⟨entry, hfind, hitem⟩
  exact ⟨entry, List.mem_of_find?_eq_some hfind, by simpa using List.find?_some hfind, hitem⟩

/-- A use changes times only. -/
theorem mem_of_mem_use {c : Cache κ α} {key : κ} {entry : CacheEntry κ α}
    (h : entry ∈ (c.use key).entries) :
    ∃ old ∈ c.entries, old.key = entry.key ∧ old.item = entry.item := by
  rcases List.mem_map.mp h with ⟨old, hold, heq⟩
  refine ⟨old, hold, ?_⟩
  rw [← heq]
  split
  · exact ⟨rfl, rfl⟩
  · exact ⟨rfl, rfl⟩

/-- An insertion adds nothing but what is inserted. -/
theorem mem_of_mem_insert {c : Cache κ α} {key : κ} {item : α} {entry : CacheEntry κ α}
    (h : entry ∈ (c.insert key item).2.entries) :
    (∃ old ∈ c.entries, old.key = entry.key ∧ old.item = entry.item) ∨
      entry.key = key ∧ entry.item = item := by
  by_cases hzero : c.capacity = 0
  · rw [insert_of_no_capacity hzero] at h
    exact Or.inl ⟨entry, h, rfl, rfl⟩
  · cases hfind : c.find? key with
    | some existing =>
        rw [insert_of_known hzero hfind] at h
        exact Or.inl (mem_of_mem_use h)
    | none =>
        rw [insert_of_absent hzero hfind] at h
        rcases List.mem_cons.mp h with rfl | hkept
        · exact Or.inr ⟨rfl, rfl⟩
        · exact Or.inl (mem_of_mem_use ((shrinkTo_sublist _ _).subset hkept))

/-- An insertion answers with what is inserted, or with what was there before. -/
theorem insert_fst (c : Cache κ α) (key : κ) (item : α) :
    (c.insert key item).1 = item ∨
      ∃ entry ∈ c.entries, entry.key = key ∧ entry.item = (c.insert key item).1 := by
  by_cases hzero : c.capacity = 0
  · rw [insert_of_no_capacity hzero]
    exact Or.inl rfl
  · cases hfind : c.find? key with
    | some existing =>
        rw [insert_of_known hzero hfind]
        exact Or.inr (mem_of_find? hfind)
    | none =>
        rw [insert_of_absent hzero hfind]
        exact Or.inl rfl

end Cache

namespace Engine

/-- With steady plugins, what a source compiles to does not depend on any notebook, nor on the
    size of the cache. -/
theorem planAnew_fst_eq_rested {e : Engine} (hsteady : e.host.Steady) (source : String)
    (options : Options) :
    (e.planAnew source options).1 = (e.rested.planAnew source options.withoutSize).1 := by
  have hpassed := Host.passSource_fst_eq_rested hsteady source options
  -- The plugins contribute after their hooks have run, and have other notebooks then.
  have hhost := e.host.rested_passSource source options
  have hhost' := e.host.rested.rested_passSource source options.withoutSize
  rw [Host.rested_rested] at hhost'
  have hcontributed : ((e.host.passSource source options).2.contributions options).1 =
      ((e.rested.host.passSource source options.withoutSize).2.contributions
        options.withoutSize).1 := by
    rw [Host.contributions_fst_eq_rested (hsteady.of_rested_eq hhost), hhost]
    have hsteady' := hsteady.of_rested_eq hhost'
    exact ((Host.contributions_fst_eq_rested hsteady' options.withoutSize).trans
      (by rw [hhost']; rfl)).symm
  have hscope : ∀ filters text, compileSource (e.scope options filters) text =
      compileSource (e.rested.scope options.withoutSize filters) text := by
    intro filters text
    apply compileSource_congr
    · rfl
    · rfl
    · rfl
  rw [planAnew_fst, planAnew_fst, hcontributed, hpassed, funext (hscope _)]
  rfl

/-- What a source compiles to is the same for engines that are the same at rest. -/
theorem planAnew_fst_congr {e e' : Engine} (hsteady : e.host.Steady)
    (hrested : e'.rested = e.rested) (source : String) (options : Options) :
    (e'.planAnew source options).1 = (e.planAnew source options).1 := by
  have hsteady' : e'.host.Steady := hsteady.of_rested_eq (congrArg Engine.host hrested)
  rw [planAnew_fst_eq_rested hsteady, planAnew_fst_eq_rested hsteady', hrested]

/-- All plugins are steady, and every entry of the cache belongs to a request, which the engine at
    rest compiles to the plan of the entry. -/
structure Coherent (requested : String → Options → Prop) (e : Engine) : Prop where
  steady : e.host.Steady
  entries : ∀ entry ∈ e.cache.entries, ∃ source options, requested source options ∧
    Fingerprint.of source options = entry.key ∧
    (e.rested.planAnew source options.withoutSize).1 = .ok entry.item.plan

variable {requested : String → Options → Prop}

/-- An engine stays coherent as long as its templates and plugins stay the same and its cache holds
    nothing that was not there before, except perhaps for other times. -/
theorem Coherent.of_entries {e e' : Engine} (h : e.Coherent requested)
    (hrested : e'.rested = e.rested)
    (hentries : ∀ entry' ∈ e'.cache.entries, ∃ entry ∈ e.cache.entries,
      entry.key = entry'.key ∧ entry.item = entry'.item) : e'.Coherent requested where
  steady := h.steady.of_rested_eq (congrArg Engine.host hrested)
  entries := by
    intro entry' hentry'
    rcases hentries entry' hentry' with ⟨entry, hentry, hkey, hitem⟩
    rcases h.entries entry hentry with ⟨source, options, hrequested, hprint, hplan⟩
    refine ⟨source, options, hrequested, hprint.trans hkey, ?_⟩
    rw [hrested, hplan, hitem]

/-- An engine whose cache stays the same stays coherent in the same way. -/
theorem Coherent.of_cache {e e' : Engine} (h : e.Coherent requested)
    (hrested : e'.rested = e.rested) (hcache : e'.cache = e.cache) : e'.Coherent requested := by
  refine h.of_entries hrested fun entry hentry => ⟨entry, ?_, rfl, rfl⟩
  rwa [hcache] at hentry

/-- With an empty cache, only the plugins count. -/
theorem coherent_forget {e : Engine} (hsteady : e.host.Steady) : e.forget.Coherent requested where
  steady := hsteady
  entries := by
    intro entry hentry
    cases hentry

theorem coherent_fitCache {e : Engine} (h : e.Coherent requested) (options : Options) :
    (e.fitCache options).Coherent requested := by
  refine h.of_entries (rested_fitCache e options) fun entry hentry => ⟨entry, ?_, rfl, rfl⟩
  unfold fitCache at hentry
  split at hentry
  · exact hentry
  · split at hentry
    · exact hentry
    · exact Cache.mem_of_mem_resize hentry

theorem coherent_asked {e : Engine} (h : e.Coherent requested) (source : String)
    (options : Options) : (e.asked source options).Coherent requested :=
  (coherent_fitCache h options).of_entries rfl fun _ hentry => Cache.mem_of_mem_use hentry

theorem coherent_planAnew {e : Engine} (h : e.Coherent requested) (source : String)
    (options : Options) : (e.planAnew source options).2.Coherent requested :=
  h.of_cache (rested_planAnew e source options) (cache_planAnew e source options)

/-- Whatever the cache holds for a request is what the request compiles to. -/
theorem Coherent.plan_eq {e : Engine} (h : e.Coherent requested)
    (hunambiguous : Unambiguous requested) {source : String} {options : Options}
    (hrequested : requested source options) {entry : CacheEntry Fingerprint Instance}
    (hentry : entry ∈ e.cache.entries) (hprint : Fingerprint.of source options = entry.key) :
    (e.planAnew source options).1 = .ok entry.item.plan := by
  -- The entry was made for another request, perhaps with another size of the cache.
  rcases h.entries entry hentry with ⟨source', options', hrequested', hprint', hplan⟩
  have hsame : Fingerprint.of source options = Fingerprint.of source' options' :=
    hprint.trans hprint'.symm
  have hsource : source = source' := congrArg Fingerprint.source hsame
  have hoptions := hunambiguous.withoutSize_eq hrequested hrequested' hsame
  rw [planAnew_fst_eq_rested h.steady, hsource, hoptions, hplan]

/-- Putting the plan of a request into the cache does no harm, and the plan that the cache holds
    then is the same. -/
theorem coherent_insert {e : Engine} (h : e.Coherent requested)
    (hunambiguous : Unambiguous requested) {source : String} {options : Options}
    (hrequested : requested source options) {plan : Plan}
    (hplan : (e.planAnew source options).1 = .ok plan) (serial next : Nat) :
    let kept := e.cache.insert (Fingerprint.of source options) ⟨serial, plan⟩
    ({ e with cache := kept.2, nextSerial := next } : Engine).Coherent requested ∧
      kept.1.plan = plan := by
  intro kept
  refine ⟨⟨h.steady, fun entry hentry => ?_⟩, ?_⟩
  · rcases Cache.mem_of_mem_insert hentry with ⟨old, hold, hkey, hitem⟩ | ⟨hkey, hitem⟩
    · rw [← hkey, ← hitem]
      exact h.entries old hold
    · refine ⟨source, options, hrequested, hkey.symm, ?_⟩
      rw [hitem, ← hplan]
      exact (planAnew_fst_eq_rested h.steady source options).symm
  · rcases Cache.insert_fst e.cache (Fingerprint.of source options) ⟨serial, plan⟩ with
      hnew | ⟨entry, hentry, hkey, hitem⟩
    · exact congrArg Instance.plan hnew
    · have hknown := h.plan_eq hunambiguous hrequested hentry hkey.symm
      rw [hplan, hitem] at hknown
      exact (Except.ok.inj hknown).symm

/-- Compiling a request keeps an engine coherent, and answers as without the cache. -/
theorem coherent_compile {e : Engine} (h : e.Coherent requested)
    (hunambiguous : Unambiguous requested) {source : String} {options : Options}
    (hrequested : requested source options) :
    (e.compile source options).2.Coherent requested ∧
      (e.compile source options).1.map Instance.plan = (e.planAnew source options).1 := by
  have hfit := coherent_fitCache h options
  have hasked := coherent_asked h source options
  have hanew := planAnew_fst_congr h.steady (rested_asked e source options) source options
  cases hfind : (e.fitCache options).cache.find? (Fingerprint.of source options) with
  | some i =>
      -- What was found was put in for a request with the same fingerprint.
      rcases Cache.mem_of_find? hfind with ⟨entry, hentry, hkey, hitem⟩
      have hknown := hfit.plan_eq hunambiguous hrequested hentry hkey.symm
      rw [planAnew_fst_congr h.steady (rested_fitCache e options), hitem] at hknown
      rw [compile_of_hit hfind]
      exact ⟨hasked, hknown.symm⟩
  | none =>
      have hplanned := coherent_planAnew hasked source options
      rcases hplan : (e.asked source options).planAnew source options with ⟨f | plan, e'⟩
      · rw [hplan] at hplanned hanew
        rw [compile_of_fault hfind hplan]
        exact ⟨hplanned, hanew⟩
      -- The plugins have just written into their notebooks, but they are steady: compiling once
      -- more would give the same plan.
      · have hrested := rested_planAnew (e.asked source options) source options
        rw [hplan] at hplanned hanew hrested
        have hagain := planAnew_fst_congr hasked.steady hrested source options
        rw [hplan] at hagain
        rcases coherent_insert hplanned hunambiguous hrequested hagain e'.nextSerial
          (e'.nextSerial + 1) with ⟨hcoherent, hkept⟩
        rw [compile_of_plan hfind hplan]
        refine ⟨hcoherent, ?_⟩
        rw [← hanew]
        exact congrArg Except.ok hkept

theorem coherent_finish {e : Engine} (h : e.Coherent requested) (output : Except Fault String)
    (options : Options) : (e.finish output options).2.Coherent requested :=
  h.of_cache (rested_finish e output options) (cache_finish e output options)

/-- One action keeps an engine coherent. -/
theorem coherent_perform {e : Engine} (h : e.Coherent requested)
    (hunambiguous : Unambiguous requested) {a : Action}
    (hrequest : ∀ source options, a.request? = some (source, options) → requested source options)
    (hplugin : ∀ p, a.plugin? = some p → p.Steady) : (e.perform a).Coherent requested := by
  cases a with
  | addTemplate name source => exact coherent_forget h.steady
  | removeTemplate name => exact coherent_forget h.steady
  | removeAllTemplates => exact coherent_forget h.steady
  | addPlugin p => exact coherent_forget (h.steady.add (hplugin p rfl))
  | removePlugin name => exact coherent_forget (h.steady.remove name)
  | forget => exact coherent_forget h.steady
  | compile source options => exact (coherent_compile h hunambiguous (hrequest _ _ rfl)).1
  | render source context options =>
      rw [perform, render_eq]
      exact coherent_finish (coherent_compile h hunambiguous (hrequest _ _ rfl)).1 _ _
  | renderWaiting source context options =>
      rw [perform, renderWaiting_eq]
      exact coherent_finish (coherent_compile h hunambiguous (hrequest _ _ rfl)).1 _ _
  | analyze source options sample =>
      exact h.of_cache (rested_analyze e source options sample) rfl

/-- A new engine has no plugins, and nothing in its cache. -/
theorem coherent_of_isNew {e : Engine} (h : e.IsNew) : e.Coherent requested := by
  have hempty : e.host.guests = [] ∧ e.cache.entries = [] := by
    rcases h with rfl | ⟨settings, rfl⟩
    · exact ⟨rfl, rfl⟩
    · exact ⟨rfl, rfl⟩
  rcases hempty with ⟨hguests, hentries⟩
  refine ⟨?_, ?_⟩
  · intro g hg
    rw [hguests] at hg
    cases hg
  · intro entry hentry
    rw [hentries] at hentry
    cases hentry

theorem coherent_run {e : Engine} (h : e.Coherent requested)
    (hunambiguous : Unambiguous requested) {actions : List Action}
    (hrequests : ∀ a ∈ actions, ∀ source options, a.request? = some (source, options) →
      requested source options)
    (hplugins : ∀ a ∈ actions, ∀ p, a.plugin? = some p → p.Steady) :
    (e.run actions).Coherent requested := by
  induction actions generalizing e with
  | nil => exact h
  | cons a rest ih =>
      have hfirst := coherent_perform h hunambiguous (hrequests a List.mem_cons_self)
        (hplugins a List.mem_cons_self)
      exact ih hfirst (fun b hb => hrequests b (List.mem_cons_of_mem _ hb))
        (fun b hb => hplugins b (List.mem_cons_of_mem _ hb))

end Engine

/-- The cache never answers with anything else than compiling anew would give. After any run of a
    new engine, every entry of the cache has the fingerprint of a request, and all requests with
    this fingerprint compile to the very plan of the entry with the templates and plugins as they
    are now. So compiling a request has the same outcome with and without the cache: the same
    fault, or the same plan, which renders in the same way for every context, at once or with
    waiting. -/
theorem compile_eq_planAnew {requested : String → Options → Prop}
    (hunambiguous : Unambiguous requested) {start : Engine} (hstart : start.IsNew)
    {actions : List Engine.Action}
    (hrequests : ∀ a ∈ actions, ∀ source options, a.request? = some (source, options) →
      requested source options)
    (hplugins : ∀ a ∈ actions, ∀ p, a.plugin? = some p → p.Steady) :
    let e := start.run actions
    (∀ entry ∈ e.cache.entries,
      (∃ source options, requested source options ∧
        Fingerprint.of source options = entry.key) ∧
      ∀ source options, requested source options → Fingerprint.of source options = entry.key →
        (e.planAnew source options).1 = .ok entry.item.plan) ∧
      ∀ source options, requested source options →
        (e.compile source options).1.map Instance.plan = (e.planAnew source options).1 := by
  intro e
  -- Coherence holds of a new engine and is kept by every action, and it says all of this.
  have hcoherent : e.Coherent requested :=
    Engine.coherent_run (Engine.coherent_of_isNew hstart) hunambiguous hrequests hplugins
  refine ⟨fun entry hentry => ⟨?_, ?_⟩, ?_⟩
  · rcases hcoherent.entries entry hentry with ⟨source, options, hrequested, hprint, _⟩
    exact ⟨source, options, hrequested, hprint⟩
  · intro source options hrequested hprint
    exact hcoherent.plan_eq hunambiguous hrequested hentry hprint
  · intro source options hrequested
    exact (Engine.coherent_compile hcoherent hunambiguous hrequested).2

/-- Contributes a filter that marks a value, whatever it saw and noted before. -/
def marker : Plugin where
  name := "marker"
  filters := fun _ notes =>
    (.ofList [("mark", .immediate fun v _ => .ok (.text (v.display ++ "!")))], notes)

/-- Compiles a template, with either size of the cache, before and after it is replaced. -/
def replacement : List Engine.Action :=
  [.addPlugin marker, .addTemplate "card" "Hello", .compile "\x7b>card\x7d" {},
    .addTemplate "card" "Hello \x7bname|mark\x7d",
    .render "\x7b>card\x7d" (.text "") { cacheSize := some 1 }]

/-- The requests of `replacement`. -/
def replacementRequest (source : String) (options : Options) : Prop :=
  source = "\x7b>card\x7d" ∧ (options = {} ∨ options = { cacheSize := some 1 })

theorem compile_eq_planAnew_replacement :
    Unambiguous replacementRequest ∧ marker.Steady ∧
      ((({} : Engine).run replacement).compile "\x7b>card\x7d" {}).1.map Instance.plan =
        ((({} : Engine).run replacement).planAnew "\x7b>card\x7d" {}).1 := by
  have hplain : ∀ source options, replacementRequest source options →
      options.filters = .empty ∧ options.whenAbsent = .keep := by
    rintro source options ⟨_, rfl | rfl⟩
    · exact ⟨rfl, rfl⟩
    · exact ⟨rfl, rfl⟩
  have hunambiguous : Unambiguous replacementRequest := by
    intro s o s' o' hs hs' _
    refine ⟨fun name f f' hf _ => ?_, fun f f' hf _ => ?_⟩
    · rw [(hplain s o hs).1] at hf
      cases hf
    · rw [(hplain s o hs).2] at hf
      cases hf
  have hsteady : marker.Steady := ⟨fun _ _ => rfl, fun _ _ _ => rfl⟩
  have hrequests : ∀ a ∈ replacement, ∀ source options,
      a.request? = some (source, options) → replacementRequest source options := by
    simp only [replacement, List.forall_mem_cons, Engine.Action.request?, Option.some.injEq,
      Prod.mk.injEq]
    refine ⟨by simp, by simp, ?_, by simp, ?_, by simp⟩
    · rintro source options ⟨rfl, rfl⟩
      exact ⟨rfl, Or.inl rfl⟩
    · rintro source options ⟨rfl, rfl⟩
      exact ⟨rfl, Or.inr rfl⟩
  have hplugins : ∀ a ∈ replacement, ∀ p, a.plugin? = some p → p.Steady := by
    simp only [replacement, List.forall_mem_cons, Engine.Action.plugin?, Option.some.injEq]
    refine ⟨?_, by simp, by simp, by simp, by simp, by simp⟩
    rintro p rfl
    exact hsteady
  refine ⟨hunambiguous, hsteady, ?_⟩
  exact (compile_eq_planAnew hunambiguous (Or.inl rfl) hrequests hplugins).2 _ _
    ⟨rfl, Or.inl rfl⟩

end Letterpress
