import Letterpress.Analysis.Report
import Letterpress.Cache
import Letterpress.Plugin
import Letterpress.Settings
import Letterpress.Template.Rendering

/-!
# Engines

Brings everything together: named templates, plugins, a cache of compiled templates, and
default options. An engine is a value, and everything that can be done with one answers with
the engine that it has become.

A compiled template is an instance with a number of its own, so that a template from the cache
can be told from one that was made anew. Everything that could change what a source compiles
to, which is any change to the templates or the plugins, empties the cache.

## Main definitions

* `Instance`: A compiled template.
* `Engine`: Templates, plugins, cache and options.
* `Engine.planAnew`: Compiles without the cache.
* `Engine.compile`: Compiles with the cache.
* `Engine.render`, `Engine.renderWaiting`: Compiles and renders.
* `Engine.analyze`: Analyses a source.
-/

namespace Letterpress

/-- A compiled template, numbered by when it was made. -/
structure Instance where
  serial : Nat
  plan : Plan

/-- Templates, plugins, a cache and default options. -/
structure Engine where
  templates : Dictionary String := .empty
  host : Host := .empty
  cache : Cache Fingerprint Instance := { capacity := usualCacheSize }
  defaults : Options := {}
  nextSerial : Nat := 0

namespace Engine

/-- The engine with the given settings. -/
def ofSettings (s : Settings) : Engine :=
  { templates := s.templates, cache := { capacity := s.cacheSize }, defaults := s.options }

/-- Gives the cache the size that options ask for, if they ask for another one. -/
def fitCache (e : Engine) (options : Options) : Engine :=
  match options.cacheSize with
  | none => e
  | some size => if e.cache.capacity = size then e else { e with cache := e.cache.resize size }

/-- What a template can refer to, with the filters that plugins contribute. -/
def scope (e : Engine) (options : Options) (contributed : FilterSet) : Scope :=
  ⟨.gather options.locale contributed options.filters, e.templates, options⟩

/-- Compiles a source without the cache. The plugins first change the source, and contribute
    their filters only if none of them refused. -/
def planAnew (e : Engine) (source : String) (options : Options) : Except Fault Plan × Engine :=
  let (passed, host) := e.host.passSource source options
  let e := { e with host := host }
  match passed with
  | .error f => (.error f, e)
  | .ok source =>
    let (contributed, host) := e.host.contributions options
    let e := { e with host := host }
    (compileSource (e.scope options contributed) source, e)

/-- Compiles a source, unless the cache holds what it compiles to. -/
def compile (e : Engine) (source : String) (options : Options) : Except Fault Instance × Engine :=
  let e := e.fitCache options
  let key := Fingerprint.of source options
  let (hit, cache) := e.cache.get key
  let e := { e with cache := cache }
  match hit with
  | some i => (.ok i, e)
  | none =>
    let (made, e) := e.planAnew source options
    match made with
    | .error f => (.error f, e)
    | .ok plan =>
      let (i, cache) := e.cache.insert key ⟨e.nextSerial, plan⟩
      (.ok i, { e with cache := cache, nextSerial := e.nextSerial + 1 })

/-- Lets the plugins change an output, if there is one. -/
def finish (e : Engine) (output : Except Fault String) (options : Options) :
    Except Fault String × Engine :=
  match output with
  | .error f => (.error f, e)
  | .ok s =>
    let (passed, host) := e.host.passOutput s options
    (passed, { e with host := host })

/-- Compiles a source and renders it at once. -/
def render (e : Engine) (source : String) (context : Value) (options : Options) :
    Except Fault String × Engine :=
  match e.compile source options with
  | (.error f, e) => (.error f, e)
  | (.ok i, e) => e.finish (i.plan.render context) options

/-- Compiles a source and renders it with waiting. The plugins get the output after all of the
    waiting. -/
def renderWaiting (e : Engine) (source : String) (context : Value) (options : Options) :
    Except Fault String × Engine :=
  match e.compile source options with
  | (.error f, e) => (.error f, e)
  | (.ok i, e) => e.finish (i.plan.renderWaiting context).result options

/-- Analyses a source as the plugins change it, or as it is if one of them refuses. -/
def analyze (e : Engine) (source : String) (options : Options) (sample : Option Value) :
    List Diagnostic × Engine :=
  let (passed, host) := e.host.passSource source options
  let source :=
    match passed with
    | .ok s => s
    | .error _ => source
  let (contributed, host) := host.contributions options
  let e := { e with host := host }
  (Letterpress.analyze (e.scope options contributed) sample source, e)

/-- Empties the cache. -/
def forget (e : Engine) : Engine := { e with cache := e.cache.clear }

/-- Adds a template, in place of any that has its name. -/
def addTemplate (e : Engine) (name source : String) : Engine :=
  { e with templates := e.templates.insert name source }.forget

/-- Removes a template, and says whether there was one of that name. -/
def removeTemplate (e : Engine) (name : String) : Bool × Engine :=
  (e.templates.contains name, { e with templates := e.templates.erase name }.forget)

/-- Removes all templates. -/
def removeAllTemplates (e : Engine) : Engine := { e with templates := .empty }.forget

/-- Adds a plugin, in place of any that has its name. -/
def addPlugin (e : Engine) (p : Plugin) : Engine :=
  { e with host := e.host.add p }.forget

/-- Removes a plugin, and says whether there was one of that name. -/
def removePlugin (e : Engine) (name : String) : Bool × Engine :=
  let (found, host) := e.host.remove name
  (found, { e with host := host }.forget)

end Engine

end Letterpress
