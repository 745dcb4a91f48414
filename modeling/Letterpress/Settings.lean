import Letterpress.Options
import Letterpress.Toml

/-!
# Settings

The settings of an engine: the locale, what happens to missing values, the size of the cache,
and templates that are registered from the start. They can be read from a document, in which
every setting may be left out and nothing else may stand.

## Main definitions

* `Policy`: What settings can say about missing values.
* `Settings`: All settings.
* `Settings.ofJson?`, `Settings.ofText?`: Reads settings from a document or a text.
* `Settings.ofFile`: Reads settings from the contents of a file.
* `Settings.options`: The options that settings stand for.
-/

namespace Letterpress

/-- What settings can say about missing values. A function cannot be written down. -/
inductive Policy where
  | keep
  | error
  deriving DecidableEq, Repr

namespace Policy

/-- The name of a policy in settings. -/
def name : Policy → String
  | .keep => "keep"
  | .error => "error"

/-- The policy with a name. -/
def ofName? (s : String) : Option Policy :=
  if s = "keep" then some .keep else if s = "error" then some .error else none

/-- The policy of a document: its name, or its name as the only field of a record, without
    content. -/
def ofJson? : Json → Option Policy
  | .text s => ofName? s
  | .record [(s, .null)] => ofName? s
  | _ => none

/-- The handling of missing values that a policy stands for. -/
def whenAbsent : Policy → AbsencePolicy
  | .keep => .keep
  | .error => .error

end Policy

/-- The settings of an engine. -/
structure Settings where
  locale : String := usualLocale
  whenAbsent : Policy := .keep
  strict : Bool := false
  cacheSize : Nat := usualCacheSize
  templates : Dictionary String := .empty

namespace Settings

/-- A record of texts. -/
def textsOf? : Json → Option (Dictionary String)
  | .record fields =>
    fields.foldlM (fun d (name, j) =>
      match j with
      | .text s => some (d.insert name s)
      | _ => none) Dictionary.empty
  | _ => none

/-- Changes one setting. -/
def set? (s : Settings) (name : String) (j : Json) : Option Settings :=
  match name, j with
  | "locale", .text t => some { s with locale := t }
  | "on_missing", j => (Policy.ofJson? j).map fun p => { s with whenAbsent := p }
  | "strict_keys", .bool b => some { s with strict := b }
  | "cache_size", .whole i =>
    if 0 ≤ i ∧ i < Number.twoTo 64 then some { s with cacheSize := i.toNat } else none
  | "templates", j => (textsOf? j).map fun ts => { s with templates := ts }
  | _, _ => none

/-- The settings of a document. -/
def ofJson? : Json → Option Settings
  | .record fields => fields.foldlM (fun s (name, j) => s.set? name j) {}
  | _ => none

/-- The settings of a text. -/
def ofText? (source : String) : Option Settings :=
  (Toml.read source).bind ofJson?

/-- Why a file has no contents. -/
inductive FileFault where
  | notFound
  | isDirectory
  deriving DecidableEq, Repr

/-- The wording of a fault with a file. -/
def FileFault.text : FileFault → String
  | .notFound => "No such file or directory (os error 2)"
  | .isDirectory => "Is a directory (os error 21)"

/-- Why settings could not be read from a file. -/
inductive LoadError where
  | unreadable (path : String) (fault : FileFault)
  | malformed (path : String)
  deriving DecidableEq, Repr

/-- The wording of an error, as far as it does not depend on what is wrong in the text. -/
def LoadError.message : LoadError → String
  | .unreadable path fault => "读取 " ++ path ++ " 失败：" ++ fault.text
  | .malformed path => "解析 " ++ path ++ " 失败"

/-- Reads settings from the contents of the file with a path. -/
def ofFile (path : String) (contents : Except FileFault String) : Except LoadError Settings :=
  match contents with
  | .error fault => .error (.unreadable path fault)
  | .ok source =>
    match ofText? source with
    | some s => .ok s
    | none => .error (.malformed path)

/-- The options that settings stand for. -/
def options (s : Settings) : Options :=
  { locale := s.locale, whenAbsent := s.whenAbsent.whenAbsent, strict := s.strict }

/-- All settings are as they are without a document. -/
def isDefault (s : Settings) : Bool :=
  s.locale == usualLocale && s.whenAbsent == .keep && !s.strict &&
    s.cacheSize == usualCacheSize && s.templates.isEmpty

end Settings

end Letterpress
