import Letterpress.Proofs.Retention
import Letterpress.Proofs.Turns

/-!
# Notebooks

What the hooks of plugins leave behind. A hook has its own notebook and no other, so all that a
plugin can find in it is what its own turns have left there. How often there was a turn, and with
which text, is therefore something that a plugin can know, and a turn too many would show.

A chain of hooks is described by what each plugin gets. There is a sequence of texts: the first is
the one that comes in, and each plugin turns one into the next, reading its notebook and leaving
another one. A refusal comes from a single plugin. All in front of it had their turns, and all
behind it are as they were, so everything is to be found at the same place before and after. That
is `Host.Relay`. It leaves nothing open: there is one relay for a text, and it is what the chain of
hooks does.

An engine lets its plugins have their turns only if the cache does not know a source. Then each
has one turn with the source, and if none refuses, one more to contribute filters. Whether the
changed source can be compiled does not matter for that. Adding a plugin to an engine, or removing
one, does not look into the notebooks of the others. Here it is needed that no name occurs twice,
as only one plugin is taken out for one that comes in. So this is a result about the runs of an
engine, and not about any plugins.

## Main definitions

* `Host.Hook`, `Host.sourceHook`, `Host.outputHook`: A hook of each plugin.
* `Host.HadTurns`: The first plugins had a turn, one after another, and none refused.
* `Host.Relay`: What a chain of hooks makes of a text and of the notebooks.
* `Host.Relays`: The plugins of a host pass a text on in this way.
* `Host.contribution`, `Host.afterFilters`: What a plugin contributes, and how that leaves it.
* `Engine.Consults`: What a request does to plugins, if the cache does not know the source.

## Theorems

* `Host.Relay.cons`, `Host.relay_chain`: A chain of hooks is a relay.
* `Host.Relay.chain_eq`: There is no other relay.
* `Engine.consults_compile`: Compiling consults the plugins if the cache does not know the source.
* `Engine.isOrderly_perform`, `Engine.isOrderly_run`: No name occurs twice.
* `notebooks_isolated`: Plugins write into their own notebooks, in their own turns.
-/

namespace Letterpress

namespace Host

/-- A hook of each plugin, which changes a text. -/
abbrev Hook := Plugin → String → Notebook → Except String String × Notebook

section Chain

variable {hook : Hook}

/-- Each of the first `n` plugins was given the text at its own place and its own notebook. It made
    the next text of the one, and left the other as it is found afterwards. -/
def HadTurns (hook : Hook) (texts : Nat → String) (before after : List Guest) (n : Nat) : Prop :=
  ∀ i < n, ∃ p notes notes', before[i]? = some ⟨p, notes⟩ ∧
    hook p (texts i) notes = (.ok (texts (i + 1)), notes') ∧ after[i]? = some ⟨p, notes'⟩

/-- What a chain of hooks makes of a text and of the notebooks. Either all plugins had their turns,
    or those in front of one that refused. That one keeps what it noted, and those behind it are
    as they were. -/
inductive Relay (hook : Hook) (text : String) (before : List Guest) :
    Except Fault String → List Guest → Prop
  | passed {after : List Guest} (texts : Nat → String) (hfirst : texts 0 = text)
      (hturns : HadTurns hook texts before after before.length)
      (hlength : after.length = before.length) :
      Relay hook text before (.ok (texts before.length)) after
  | refused {after : List Guest} (texts : Nat → String) (hfirst : texts 0 = text) (i : Nat)
      (hturns : HadTurns hook texts before after i) {p : Plugin} {notes notes' : Notebook}
      {reason : String} (hbefore : before[i]? = some ⟨p, notes⟩)
      (hrefusal : hook p (texts i) notes = (.error reason, notes'))
      (hafter : after[i]? = some ⟨p, notes'⟩) (hbehind : ∀ j, i < j → after[j]? = before[j]?) :
      Relay hook text before (.error (.pluginFailed p.name reason)) after

/-- The texts with one more in front. -/
def textsFrom (text : String) (texts : Nat → String) : Nat → String
  | 0 => text
  | i + 1 => texts i

variable {text : String} {texts : Nat → String} {p : Plugin} {notes notes' : Notebook}
  {before after : List Guest}

theorem HadTurns.cons {n : Nat} (hturn : hook p text notes = (.ok (texts 0), notes'))
    (hturns : HadTurns hook texts before after n) :
    HadTurns hook (textsFrom text texts) (⟨p, notes⟩ :: before) (⟨p, notes'⟩ :: after) (n + 1) := by
  intro i hi
  cases i with
  | zero => exact ⟨p, notes, notes', rfl, hturn, rfl⟩
  | succ i => exact hturns i (Nat.lt_of_succ_lt_succ hi)

/-- A plugin that has its turn before a chain is the first one of a longer chain. -/
theorem Relay.cons {next : String} {result : Except Fault String}
    (hturn : hook p text notes = (.ok next, notes')) (h : Relay hook next before result after) :
    Relay hook text (⟨p, notes⟩ :: before) result (⟨p, notes'⟩ :: after) := by
  cases h with
  | passed texts hfirst hturns hlength =>
      rw [← hfirst] at hturn
      exact .passed (textsFrom text texts) rfl (hturns.cons hturn) (congrArg (· + 1) hlength)
  | refused texts hfirst i hturns hbefore hrefusal hafter hbehind =>
      rw [← hfirst] at hturn
      refine .refused (textsFrom text texts) rfl (i + 1) (hturns.cons hturn) hbefore hrefusal
        hafter fun j hj => ?_
      cases j with
      | zero => exact absurd hj (Nat.not_lt_zero _)
      | succ j => exact hbehind j (Nat.lt_of_succ_lt_succ hj)

theorem relay_chain (hook : Hook) (text : String) (guests : List Guest) :
    Relay hook text guests (chain hook text guests).1 (chain hook text guests).2 := by
  induction guests generalizing text with
  | nil =>
      have hnone : HadTurns hook (fun _ => text) [] [] 0 := fun i hi => absurd hi i.not_lt_zero
      exact .passed (fun _ => text) rfl hnone rfl
  | cons g rest ih =>
      rcases g with ⟨p, notes⟩
      rcases hturn : hook p text notes with ⟨reason | next, notes'⟩
      · have hnone : HadTurns hook (fun _ => text) (⟨p, notes⟩ :: rest) (⟨p, notes'⟩ :: rest) 0 :=
          fun i hi => absurd hi i.not_lt_zero
        simp only [chain, hturn]
        refine .refused (fun _ => text) rfl 0 hnone rfl hturn rfl fun j hj => ?_
        cases j with
        | zero => exact absurd hj (Nat.lt_irrefl 0)
        | succ j => rfl
      · simp only [chain, hturn]
        exact (ih next).cons hturn

/-- There is but one relay for a text, so the description leaves nothing open. -/
theorem Relay.chain_eq {result : Except Fault String} (h : Relay hook text before result after) :
    chain hook text before = (result, after) := by
  induction before generalizing text result after with
  | nil =>
      cases h with
      | passed texts hfirst _ hlength =>
          rw [List.eq_nil_of_length_eq_zero hlength, ← hfirst]
          rfl
      | refused _ _ _ _ hbefore => cases hbefore
  | cons g rest ih =>
      -- Either way something is left in the first place.
      rcases after with _ | ⟨g', after⟩
      · cases h with
        | passed _ _ _ hlength => cases hlength
        | refused _ _ i hturns _ _ hafter => cases hafter
      cases h with
      | passed texts hfirst hturns hlength =>
          rcases hturns 0 (Nat.succ_pos _) with ⟨p, notes, notes', hg, hturn, hg'⟩
          cases Option.some.inj hg
          cases Option.some.inj hg'
          have hrest := ih (.passed (fun i => texts (i + 1)) rfl
            (fun i hi => hturns (i + 1) (Nat.succ_lt_succ hi)) (Nat.succ.inj hlength))
          rw [← hfirst]
          simp only [chain, hturn, hrest]
          rfl
      | refused texts hfirst i hturns hbefore hrefusal hafter hbehind =>
          rw [← hfirst]
          cases i with
          | zero =>
              cases Option.some.inj hbefore
              cases Option.some.inj hafter
              have hrest : after = rest :=
                List.ext_getElem? fun j => hbehind (j + 1) (Nat.succ_pos j)
              simp only [chain, hrefusal, hrest]
          | succ i =>
              rcases hturns 0 (Nat.succ_pos _) with ⟨p, notes, notes', hg, hturn, hg'⟩
              cases Option.some.inj hg
              cases Option.some.inj hg'
              have hrest := ih (.refused (fun i => texts (i + 1)) rfl i
                (fun j hj => hturns (j + 1) (Nat.succ_lt_succ hj)) hbefore hrefusal hafter
                fun j hj => hbehind (j + 1) (Nat.succ_lt_succ hj))
              simp only [chain, hturn, hrest]

/-- The plugins pass a text on in a relay, which changes nothing about them but notebooks. -/
def Relays (h : Host) (hook : Hook) (text : String) (outcome : Except Fault String × Host) :
    Prop :=
  Relay hook text h.guests outcome.1 outcome.2.guests ∧ outcome.2.names = h.names

theorem relays_iff {h : Host} {outcome : Except Fault String × Host} :
    h.Relays hook text outcome ↔
      outcome = ((chain hook text h.guests).1, ⟨(chain hook text h.guests).2, h.names⟩) := by
  constructor
  · rintro ⟨hrelay, hnames⟩
    rw [hrelay.chain_eq, ← hnames]
  · rintro rfl
    exact ⟨relay_chain hook text h.guests, rfl⟩

end Chain

/-- The hooks that change a source, with what they see. -/
def sourceHook (h : Host) (options : Options) : Hook :=
  fun p text => p.onSource text (h.view options p)

/-- The hooks that change an output, with what they see. -/
def outputHook (h : Host) (options : Options) : Hook :=
  fun p text => p.onOutput text (h.view options p)

/-- The filters that a plugin contributes. -/
def contribution (h : Host) (options : Options) (g : Guest) : FilterSet :=
  (g.plugin.filters (h.view options g.plugin) g.notes).1

/-- A plugin when it has contributed its filters. -/
def afterFilters (h : Host) (options : Options) (g : Guest) : Guest :=
  ⟨g.plugin, (g.plugin.filters (h.view options g.plugin) g.notes).2⟩

theorem contributions_eq (h : Host) (options : Options) :
    h.contributions options =
      ((h.guests.map (h.contribution options)).foldl Dictionary.merge .empty,
        { h with guests := h.guests.map (h.afterFilters options) }) := by
  simp only [contributions, List.foldl_map, List.map_map]
  rfl

/-- Notebooks have no part in whether names are in order. -/
theorem IsOrderly.of_rested_eq {h h' : Host} (horderly : h.IsOrderly)
    (heq : h'.rested = h.rested) : h'.IsOrderly := by
  have hnames : h'.rested.names = h.rested.names := congrArg Host.names heq
  have hguests := congrArg (fun r : Host => r.guests.map (·.plugin.name)) heq
  simp only [rested, List.map_map] at hguests
  exact ⟨hnames.trans (horderly.names_eq.trans hguests.symm), hnames ▸ horderly.nodup⟩

end Host

namespace Engine

theorem isOrderly_of_rested_eq {e e' : Engine} (horderly : e.host.IsOrderly)
    (heq : e'.rested = e.rested) : e'.host.IsOrderly :=
  horderly.of_rested_eq (congrArg Engine.host heq)

/-- No action breaks the order of names: it adds a plugin, removes one, or leaves the plugins as
    they are, but for their notebooks. -/
theorem isOrderly_perform {e : Engine} (horderly : e.host.IsOrderly) (a : Action) :
    (e.perform a).host.IsOrderly := by
  cases a with
  | addPlugin p => exact horderly.add p
  | removePlugin name => exact horderly.remove name
  | compile source options => exact isOrderly_of_rested_eq horderly (rested_compile _ _ _)
  | render source context options =>
      rw [perform, render_eq]
      exact isOrderly_of_rested_eq horderly ((rested_finish _ _ _).trans (rested_compile _ _ _))
  | renderWaiting source context options =>
      rw [perform, renderWaiting_eq]
      exact isOrderly_of_rested_eq horderly ((rested_finish _ _ _).trans (rested_compile _ _ _))
  | analyze source options sample =>
      exact isOrderly_of_rested_eq horderly (rested_analyze _ _ _ _)
  | addTemplate name source => exact horderly
  | removeTemplate name => exact horderly
  | removeAllTemplates => exact horderly
  | forget => exact horderly

theorem isOrderly_run {e : Engine} (horderly : e.host.IsOrderly) (actions : List Action) :
    (e.run actions).host.IsOrderly := by
  induction actions generalizing e with
  | nil => exact horderly
  | cons a rest ih => exact ih (isOrderly_perform horderly a)

theorem isOrderly_of_isNew {e : Engine} (h : e.IsNew) : e.host.IsOrderly := by
  rcases h with rfl | ⟨settings, rfl⟩
  · exact Host.isOrderly_empty
  · exact Host.isOrderly_empty

/-- Asking the cache changes nothing else. -/
theorem asked_eq (e : Engine) (source : String) (options : Options) :
    e.asked source options = { e with cache := (e.asked source options).cache } := by
  unfold asked fitCache
  split
  · rfl
  · split
    · rfl
    · rfl

theorem host_asked (e : Engine) (source : String) (options : Options) :
    (e.asked source options).host = e.host := by
  rw [asked_eq]

theorem templates_asked (e : Engine) (source : String) (options : Options) :
    (e.asked source options).templates = e.templates := by
  rw [asked_eq]

/-- What a request is answered with and how it leaves the plugins, if the cache does not know the
    source. Every plugin has one turn with the source, in order, until one of them refuses. If none
    does, every plugin has one turn to contribute its filters, whether or not the source that was
    passed on can be compiled with them. -/
inductive Consults (e : Engine) (source : String) (options : Options) :
    Except Fault Instance → Host → Prop
  | refused {f : Fault} {host : Host}
      (hrelays : e.host.Relays (e.host.sourceHook options) source (.error f, host)) :
      Consults e source options (.error f) host
  | passed {text : String} {host : Host} {answer : Except Fault Instance}
      (hrelays : e.host.Relays (e.host.sourceHook options) source (.ok text, host))
      (hplan : answer.map Instance.plan = compileSource (e.scope options
        ((host.guests.map (host.contribution options)).foldl Dictionary.merge .empty)) text) :
      Consults e source options answer
        { host with guests := host.guests.map (host.afterFilters options) }

/-- What was compiled just now is what the cache answers with, as it knew nothing of it. -/
theorem insert_fst_of_absent {c : Cache Fingerprint Instance} {key : Fingerprint}
    (habsent : c.find? key = none) (i : Instance) : (c.insert key i).1 = i := by
  by_cases hzero : c.capacity = 0
  · rw [Cache.insert_of_no_capacity hzero]
  · rw [Cache.insert_of_absent hzero habsent]

theorem find?_asked_of_absent {e : Engine} {source : String} {options : Options}
    (h : (e.fitCache options).cache.find? (Fingerprint.of source options) = none) :
    (e.asked source options).cache.find? (Fingerprint.of source options) = none := by
  rw [← h, Cache.find?, Cache.find?, asked, use_entries_of_absent h]

theorem consults_compile {e : Engine} {source : String} {options : Options}
    (h : (e.fitCache options).cache.find? (Fingerprint.of source options) = none) :
    e.Consults source options (e.compile source options).1 (e.compile source options).2.host := by
  have hrelays : e.host.Relays (e.host.sourceHook options) source
    (e.host.passSource source options) := Host.relays_iff.mpr rfl
  rcases hpassed : e.host.passSource source options with ⟨f | text, host⟩
  · rw [hpassed] at hrelays
    have hplan : (e.asked source options).planAnew source options =
        (.error f, { e.asked source options with host := host }) := by
      simp only [planAnew, host_asked, hpassed]
    rw [compile_of_fault h hplan]
    exact .refused hrelays
  · rw [hpassed] at hrelays
    generalize hanew : compileSource (e.scope options
      ((host.guests.map (host.contribution options)).foldl Dictionary.merge .empty)) text = made
    have hplan : (e.asked source options).planAnew source options =
        (made, { e.asked source options with
          host := { host with guests := host.guests.map (host.afterFilters options) } }) := by
      rw [← hanew]
      simp only [planAnew, host_asked, hpassed, Host.contributions_eq, scope, templates_asked]
    cases made with
    | error f =>
        rw [compile_of_fault h hplan]
        exact .passed hrelays hanew.symm
    | ok plan =>
        rw [compile_of_plan h hplan]
        -- Hooks have no access to the cache, so it still does not know the source.
        have hkept := insert_fst_of_absent (find?_asked_of_absent h)
        refine .passed hrelays ?_
        rw [hanew]
        exact congrArg (Except.ok ∘ Instance.plan) (hkept _)

end Engine

/-- Plugins write into their own notebooks, in their own turns. For any plugins, passing a source
    or an output on is a relay of their hooks. After any run of an engine no two plugins have the
    same name. A request that the cache can answer leaves all plugins as they are; any other one
    consults them, each once. A plugin that is added begins with an empty notebook and takes the
    place of the one of its name, and one that is removed goes; all others are as they were. -/
theorem notebooks_isolated {start : Engine} (hstart : start.IsNew)
    (history : List Engine.Action) :
    let e := start.run history
    (∀ (h : Host) (text : String) (options : Options) (outcome : Except Fault String × Host),
      (h.Relays (h.sourceHook options) text outcome ↔ outcome = h.passSource text options) ∧
        (h.Relays (h.outputHook options) text outcome ↔ outcome = h.passOutput text options)) ∧
      (e.host.guests.map (·.plugin.name)).Nodup ∧
      (∀ source options,
        (∀ i, (e.fitCache options).cache.find? (Fingerprint.of source options) = some i →
          (e.compile source options).1 = .ok i ∧ (e.compile source options).2.host = e.host) ∧
          ((e.fitCache options).cache.find? (Fingerprint.of source options) = none →
            e.Consults source options (e.compile source options).1
              (e.compile source options).2.host)) ∧
      (∀ p g, g ∈ (e.addPlugin p).host.guests ↔
        g = ⟨p, .empty⟩ ∨ g ∈ e.host.guests ∧ g.plugin.name ≠ p.name) ∧
      ∀ name g, g ∈ (e.removePlugin name).2.host.guests ↔
        g ∈ e.host.guests ∧ g.plugin.name ≠ name := by
  intro e
  have horderly : e.host.IsOrderly := Engine.isOrderly_run (Engine.isOrderly_of_isNew hstart) _
  -- Names do not repeat in any run, and that is all that adding a plugin needs.
  refine ⟨fun h text options outcome => ⟨Host.relays_iff, Host.relays_iff⟩, ?_,
    fun source options => ⟨fun i hi => ?_, Engine.consults_compile⟩,
    fun p g => horderly.mem_add_iff, fun name g => Host.mem_remove_iff⟩
  · rw [← horderly.names_eq]
    exact horderly.nodup
  · rw [Engine.compile_of_hit hi]
    exact ⟨rfl, Engine.host_asked e source options⟩

/-- Adds a word to what is noted. -/
def noted (word : String) (notes : Notebook) : Notebook :=
  notes.insert "turns" (.text (((notes.get? "turns").elim "" Value.display) ++ word))

/-- Notes each of its turns, and does nothing else. -/
def diarist : Plugin where
  name := "diarist"
  filters := fun _ notes => (.empty, noted "filters" notes)
  onSource := fun text _ notes => (.ok text, noted "source" notes)

theorem notebooks_isolated_diarist :
    let next := (({} : Engine).run [.addPlugin diarist]).compile "a" {}
    next.2.host.guests = [⟨diarist, noted "filters" (noted "source" .empty)⟩] ∧
      ∃ i, next.1 = .ok i ∧ (next.2.compile "a" {}).1 = .ok i ∧
        (next.2.compile "a" {}).2.host = next.2.host := by
  intro next
  have hguests : (({} : Engine).run [.addPlugin diarist]).host.guests = [⟨diarist, .empty⟩] :=
    List.mergeSort_singleton _
  have hmade : next.2.host.guests = [⟨diarist, noted "filters" (noted "source" .empty)⟩] ∧
      ∃ i, next.1 = .ok i := by
    have hconsults : Engine.Consults _ "a" {} next.1 next.2.host :=
      ((notebooks_isolated (Or.inl rfl) [.addPlugin diarist]).2.2.1 "a" {}).2 rfl
    generalize next.1 = answer, next.2.host = host at hconsults ⊢
    cases hconsults with
    | refused hrelays =>
        have hchain := hrelays.1.chain_eq
        rw [hguests] at hchain
        cases hchain
    | passed hrelays hplan =>
        have hchain := hrelays.1.chain_eq
        rw [hguests] at hchain
        cases congrArg Prod.fst hchain
        have hread : readTemplate "a" = .ok [.text "a" ⟨0, 1⟩] := by decide +kernel
        simp only [compileSource, compile, hread, expand] at hplan
        refine ⟨congrArg (List.map _) (congrArg Prod.snd hchain).symm, ?_⟩
        cases answer with
        | error f => cases hplan
        | ok i => exact ⟨i, rfl⟩
  rcases hmade with ⟨hnotes, i, hi⟩
  refine ⟨hnotes, i, hi, ?_⟩
  -- The request has just been answered, so the cache knows it.
  rcases Engine.exists_mirrors_of_isNew (Or.inl rfl) with ⟨l₀, hl₀⟩
  rcases Engine.exists_mirrors_run hl₀ [.addPlugin diarist] with ⟨l, hl⟩
  rcases Engine.exists_holds_compile hl (by decide) hi with ⟨l', hl', _, hholds⟩
  have hfind : next.2.cache.find? (Fingerprint.of "a" {}) = some i := by
    rw [hl'.find?_eq, hholds.find?_eq List.not_mem_nil]
  exact ((notebooks_isolated (Or.inl rfl) [.addPlugin diarist, .compile "a" {}]).2.2.1 "a" {}).1
    i hfind

end Letterpress
