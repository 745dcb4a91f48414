import Letterpress.Engine
import Mathlib.Data.List.Basic

/-!
# Engine Runs

What happens to an engine over time. A run is a list of actions, each of which is one of the
things that can be asked of an engine, in any order and with any options.

An engine has two sides that a run treats differently. What a source compiles to is decided by
the templates and the plugins, which only a few actions change, and each of those also empties
the cache. Everything else is there to be used up: the cache fills and loses entries, its clock
moves on, plugins write into their notebooks. `Engine.rested` keeps the first side only. Compiling,
rendering and analysing leave it alone, and so does emptying the cache, whether or not they
succeed.

Compiling goes the same way for both outcomes of the look-up until the cache has been asked.
`Engine.asked` is the engine at this point.

## Main definitions

* `Engine.Action`: Something to ask of an engine.
* `Engine.perform`, `Engine.run`: The engine after one action, and after several.
* `Engine.IsNew`: An engine before its first action.
* `Host.rested`, `Engine.rested`: The side of an engine that decides what a source compiles to.
* `Engine.asked`: The engine when the cache has been asked for a source.

## Theorems

* `Host.rested_passSource`, `Host.rested_passOutput`, `Host.rested_contributions`: A hook changes
  nothing but notebooks.
* `Engine.compile_of_hit`, `Engine.compile_of_fault`, `Engine.compile_of_plan`: The three
  outcomes of compiling.
* `Engine.render_eq`, `Engine.renderWaiting_eq`: Rendering compiles first, and goes on with the
  engine that it has then.
* `Engine.rested_compile`, `Engine.rested_finish`, `Engine.rested_analyze`: Using an engine leaves
  its templates and plugins alone.
-/

namespace Letterpress

/-- A plugin with nothing in its notebook. -/
def Guest.rested (g : Guest) : Guest := ⟨g.plugin, .empty⟩

namespace Host

/-- The plugins with nothing in their notebooks. -/
def rested (h : Host) : Host := { h with guests := h.guests.map Guest.rested }

theorem rested_chain (hook : Plugin → String → Notebook → Except String String × Notebook)
    (text : String) (guests : List Guest) :
    (chain hook text guests).2.map Guest.rested = guests.map Guest.rested := by
  induction guests generalizing text with
  | nil => rfl
  | cons g rest ih =>
      rcases g with ⟨p, notes⟩
      simp only [chain]
      split
      · rfl
      · rw [List.map_cons, ih]
        rfl

theorem rested_passSource (h : Host) (source : String) (options : Options) :
    (h.passSource source options).2.rested = h.rested :=
  congrArg (Host.mk · h.names) (rested_chain _ source h.guests)

theorem rested_passOutput (h : Host) (output : String) (options : Options) :
    (h.passOutput output options).2.rested = h.rested :=
  congrArg (Host.mk · h.names) (rested_chain _ output h.guests)

theorem rested_contributions (h : Host) (options : Options) :
    (h.contributions options).2.rested = h.rested := by
  unfold contributions rested
  simp only [List.map_map]
  rfl

end Host

namespace Engine

/-- Something to ask of an engine. -/
inductive Action where
  | addTemplate (name source : String)
  | removeTemplate (name : String)
  | removeAllTemplates
  | addPlugin (p : Plugin)
  | removePlugin (name : String)
  | forget
  | compile (source : String) (options : Options)
  | render (source : String) (context : Value) (options : Options)
  | renderWaiting (source : String) (context : Value) (options : Options)
  | analyze (source : String) (options : Options) (sample : Option Value)

namespace Action

/-- The source that an action compiles, and the options that it does so with. -/
def request? : Action → Option (String × Options)
  | .compile source options => some (source, options)
  | .render source _ options => some (source, options)
  | .renderWaiting source _ options => some (source, options)
  | _ => none

/-- The plugin that an action adds. -/
def plugin? : Action → Option Plugin
  | .addPlugin p => some p
  | _ => none

end Action

/-- The engine after an action. -/
def perform (e : Engine) : Action → Engine
  | .addTemplate name source => e.addTemplate name source
  | .removeTemplate name => (e.removeTemplate name).2
  | .removeAllTemplates => e.removeAllTemplates
  | .addPlugin p => e.addPlugin p
  | .removePlugin name => (e.removePlugin name).2
  | .forget => e.forget
  | .compile source options => (e.compile source options).2
  | .render source context options => (e.render source context options).2
  | .renderWaiting source context options => (e.renderWaiting source context options).2
  | .analyze source options sample => (e.analyze source options sample).2

/-- The engine after some actions. -/
def run (e : Engine) (actions : List Action) : Engine := actions.foldl perform e

/-- An engine before its first action, with settings or without. -/
def IsNew (e : Engine) : Prop := e = {} ∨ ∃ settings, e = ofSettings settings

/-- The templates and plugins of an engine, and nothing else of it. -/
def rested (e : Engine) : Engine := { templates := e.templates, host := e.host.rested }

theorem rested_eq {e e' : Engine} (htemplates : e.templates = e'.templates)
    (hhost : e.host.rested = e'.host.rested) : e.rested = e'.rested := by
  unfold rested
  rw [htemplates, hhost]

theorem rested_fitCache (e : Engine) (options : Options) :
    (e.fitCache options).rested = e.rested := by
  unfold fitCache
  split
  · rfl
  · split
    · rfl
    · rfl

/-- What a source compiles to: the hooks pass it on, and the filters come from the plugins as
    they are after that. -/
theorem planAnew_fst (e : Engine) (source : String) (options : Options) :
    (e.planAnew source options).1 =
      (e.host.passSource source options).1.bind
        (compileSource
          (e.scope options ((e.host.passSource source options).2.contributions options).1)) := by
  unfold planAnew
  simp only []
  split
  · next f h =>
      rw [h]
      rfl
  · next passed h =>
      rw [h]
      rfl

theorem rested_planAnew (e : Engine) (source : String) (options : Options) :
    (e.planAnew source options).2.rested = e.rested := by
  unfold planAnew
  simp only []
  split
  · exact rested_eq rfl (Host.rested_passSource _ _ _)
  · next passed _ =>
      refine rested_eq rfl ?_
      rw [Host.rested_contributions, Host.rested_passSource]

theorem cache_planAnew (e : Engine) (source : String) (options : Options) :
    (e.planAnew source options).2.cache = e.cache := by
  unfold planAnew
  simp only []
  split
  · rfl
  · rfl

theorem rested_finish (e : Engine) (output : Except Fault String) (options : Options) :
    (e.finish output options).2.rested = e.rested := by
  unfold finish
  split
  · rfl
  · exact rested_eq rfl (Host.rested_passOutput _ _ _)

theorem cache_finish (e : Engine) (output : Except Fault String) (options : Options) :
    (e.finish output options).2.cache = e.cache := by
  unfold finish
  split
  · rfl
  · rfl

theorem rested_analyze (e : Engine) (source : String) (options : Options)
    (sample : Option Value) : (e.analyze source options sample).2.rested = e.rested := by
  unfold analyze
  refine rested_eq rfl ?_
  simp only []
  rw [Host.rested_contributions, Host.rested_passSource]

/-- The engine when the cache, at the size that the options ask for, has been asked for a
    source. -/
def asked (e : Engine) (source : String) (options : Options) : Engine :=
  let e := e.fitCache options
  { e with cache := e.cache.use (Fingerprint.of source options) }

theorem rested_asked (e : Engine) (source : String) (options : Options) :
    (e.asked source options).rested = e.rested :=
  e.rested_fitCache options

/-- The engine has the item in its cache already. -/
theorem compile_of_hit {e : Engine} {source : String} {options : Options} {i : Instance}
    (h : (e.fitCache options).cache.find? (Fingerprint.of source options) = some i) :
    e.compile source options = (.ok i, e.asked source options) := by
  unfold compile
  simp only [Cache.get, h]
  rfl

theorem compile_of_fault {e e' : Engine} {source : String} {options : Options} {f : Fault}
    (h : (e.fitCache options).cache.find? (Fingerprint.of source options) = none)
    (hplan : (e.asked source options).planAnew source options = (.error f, e')) :
    e.compile source options = (.error f, e') := by
  unfold asked at hplan
  unfold compile
  simp only [Cache.get, h, hplan]

theorem compile_of_plan {e e' : Engine} {source : String} {options : Options} {plan : Plan}
    (h : (e.fitCache options).cache.find? (Fingerprint.of source options) = none)
    (hplan : (e.asked source options).planAnew source options = (.ok plan, e')) :
    e.compile source options =
      let kept := e'.cache.insert (Fingerprint.of source options) ⟨e'.nextSerial, plan⟩
      (.ok kept.1, { e' with cache := kept.2, nextSerial := e'.nextSerial + 1 }) := by
  unfold asked at hplan
  unfold compile
  simp only [Cache.get, h, hplan]

theorem rested_compile (e : Engine) (source : String) (options : Options) :
    (e.compile source options).2.rested = e.rested := by
  have hplanned := rested_planAnew (e.asked source options) source options
  cases h : (e.fitCache options).cache.find? (Fingerprint.of source options) with
  | some i =>
      rw [compile_of_hit h]
      exact rested_asked e source options
  | none =>
      rcases hplan : (e.asked source options).planAnew source options with ⟨f | plan, e'⟩
      · rw [hplan] at hplanned
        rw [compile_of_fault h hplan]
        exact hplanned.trans (rested_asked e source options)
      · rw [hplan] at hplanned
        rw [compile_of_plan h hplan]
        exact hplanned.trans (rested_asked e source options)

theorem render_eq (e : Engine) (source : String) (context : Value) (options : Options) :
    e.render source context options =
      (e.compile source options).2.finish
        ((e.compile source options).1.bind fun i => i.plan.render context) options := by
  unfold render
  split
  · next f e' h =>
      rw [h]
      rfl
  · next i e' h =>
      rw [h]
      rfl

theorem renderWaiting_eq (e : Engine) (source : String) (context : Value) (options : Options) :
    e.renderWaiting source context options =
      (e.compile source options).2.finish
        ((e.compile source options).1.bind fun i => (i.plan.renderWaiting context).result)
        options := by
  unfold renderWaiting
  split
  · next f e' h =>
      rw [h]
      rfl
  · next i e' h =>
      rw [h]
      rfl

end Engine

end Letterpress
