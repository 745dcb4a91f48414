import Letterpress.Fault
import Letterpress.Options
import Letterpress.Text.Quoted

/-!
# Plugins

A plugin takes part in three places: it contributes filters, it may change a source before it
is compiled, and it may change an output after rendering. Each plugin has a notebook of its
own, which its hooks read and write and no other plugin sees. What a hook sees of the rest of
the world is a `PluginView`.

Plugins take their turns in the order of their priorities, and in the order of arrival where
these are equal. Adding a plugin under a known name replaces the former one, notebook and all,
and counts as a new arrival.

## Main definitions

* `Plugin`: A name, a priority and three hooks.
* `Host`: The plugins with their notebooks, in order, and the list of their names.
* `Host.add`, `Host.remove`: Adds and removes a plugin.
* `Host.contributions`: All contributed filters.
* `Host.passSource`, `Host.passOutput`: The chains of hooks that change a text.
-/

namespace Letterpress

/-- What a plugin remembers from one turn to the next. -/
abbrev Notebook := Dictionary Value

/-- What a hook sees: the name of its plugin, the options in force, and the names of all
    plugins in order. -/
structure PluginView where
  name : String
  options : Options
  plugins : List String

namespace PluginView

/-- The names of the other plugins, in order. -/
def others (v : PluginView) : List String := v.plugins.filter (· ≠ v.name)

/-- There is another plugin with this name. -/
def hasOther (v : PluginView) (name : String) : Bool :=
  name != v.name && v.plugins.contains name

end PluginView

/-- A hook that changes a text, or refuses with a reason. What it notes is kept in both
    cases. -/
abbrev TextHook := String → PluginView → Notebook → Except String String × Notebook

/-- A plugin. A hook that is not given changes nothing. -/
structure Plugin where
  name : String
  priority : Int := 0
  filters : PluginView → Notebook → FilterSet × Notebook := fun _ notes => (.empty, notes)
  onSource : TextHook := fun text _ notes => (.ok text, notes)
  onOutput : TextHook := fun text _ notes => (.ok text, notes)

/-- A plugin with its notebook. -/
structure Guest where
  plugin : Plugin
  notes : Notebook

/-- The first guest may have its turn before the second. -/
def Guest.mayPrecede (g g' : Guest) : Bool := g.plugin.priority ≤ g'.plugin.priority

/-- The plugins in the order of their turns, and the list of names that is shown to hooks. The
    list is kept beside the plugins, so that it need not be made anew for every turn. -/
structure Host where
  guests : List Guest
  names : List String

namespace Host

/-- No plugins. -/
def empty : Host := ⟨[], []⟩

/-- There are no plugins. -/
def isEmpty (h : Host) : Bool := h.guests.isEmpty

/-- Adds a plugin, with nothing in its notebook, behind all others of its priority. A plugin of the
    same name is taken out before. -/
def add (h : Host) (p : Plugin) : Host :=
  let arrived : Guest := ⟨p, .empty⟩
  let others := h.guests.eraseP (·.plugin.name = p.name)
  let guests := (others ++ [arrived]).mergeSort Guest.mayPrecede
  ⟨guests, guests.map (·.plugin.name)⟩

/-- Removes a plugin, and says whether there was one of that name. -/
def remove (h : Host) (name : String) : Bool × Host :=
  let kept := h.guests.filter (·.plugin.name ≠ name)
  (kept.length != h.guests.length, ⟨kept, h.names.filter (· ≠ name)⟩)

/-- What the hooks of a plugin see. -/
def view (h : Host) (options : Options) (p : Plugin) : PluginView :=
  ⟨p.name, options, h.names⟩

/-- Lets every plugin contribute its filters. A later plugin overrides an earlier one. -/
def contributions (h : Host) (options : Options) : FilterSet × Host :=
  let answers := h.guests.map fun g =>
    (g.plugin, g.plugin.filters (h.view options g.plugin) g.notes)
  (answers.foldl (fun merged (_, contributed, _) => merged.merge contributed) .empty,
    { h with guests := answers.map fun (p, _, notes) => ⟨p, notes⟩ })

/-- Passes a text through one hook of each plugin in order. A refusal ends the chain; the
    plugins behind it do not get a turn. -/
def chain (hook : Plugin → String → Notebook → Except String String × Notebook)
    (text : String) : List Guest → Except Fault String × List Guest
  | [] => (.ok text, [])
  | ⟨p, notes⟩ :: rest =>
    match hook p text notes with
    | (.error reason, notes) => (.error (.pluginFailed p.name reason), ⟨p, notes⟩ :: rest)
    | (.ok text, notes) =>
      let (result, rest) := chain hook text rest
      (result, ⟨p, notes⟩ :: rest)

/-- Lets every plugin change a source. -/
def passSource (h : Host) (source : String) (options : Options) : Except Fault String × Host :=
  let (result, guests) := chain (fun p text => p.onSource text (h.view options p)) source h.guests
  (result, { h with guests := guests })

/-- Lets every plugin change an output. -/
def passOutput (h : Host) (output : String) (options : Options) : Except Fault String × Host :=
  let (result, guests) := chain (fun p text => p.onOutput text (h.view options p)) output h.guests
  (result, { h with guests := guests })

/-- The plugins in one line. -/
def summary (h : Host) : String :=
  "PluginHost \x7b plugins: " ++ Text.quotedList h.names ++ " \x7d"

end Host

end Letterpress
