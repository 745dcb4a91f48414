/-!
# Template Nodes

What a template consists of once it has been read: literal text, placeholders, and inclusions
of other templates by name. Every node knows the stretch of source that it was read from, so
that messages can point at it.

## Main definitions

* `Span`: A stretch of source between two byte offsets.
* `FilterUse`: A filter with its arguments.
* `Placeholder`: A path and the filters for its value.
* `Node`: Text, a placeholder or an inclusion.
* `placeholders`, `inclusions`: The nodes of one sort, in document order.
-/

namespace Letterpress

/-- A stretch of source, from one byte offset up to another. -/
structure Span where
  start : Nat
  stop : Nat
  deriving DecidableEq, Repr, Inhabited

namespace Span

/-- The number of bytes. -/
def length (s : Span) : Nat := s.stop - s.start

/-- The span holds no bytes. -/
def isEmpty (s : Span) : Bool := s.start == s.stop

end Span

/-- A filter as a template calls it. The span runs from the pipe to the last argument. -/
structure FilterUse where
  name : String
  args : List String
  span : Span
  deriving DecidableEq, Repr

/-- A place in a template that a value is put into. -/
structure Placeholder where
  path : List String
  filters : List FilterUse
  span : Span
  deriving DecidableEq, Repr

/-- The names of a path with points between them. -/
def dotted (path : List String) : String := ".".intercalate path

namespace Placeholder

/-- The path as it is written. -/
def key (p : Placeholder) : String := dotted p.path

end Placeholder

/-- The inclusion of another template in the place of the node. -/
structure Inclusion where
  name : String
  span : Span
  deriving DecidableEq, Repr

/-- A node of a template. -/
inductive Node where
  | text (value : String) (span : Span)
  | placeholder (p : Placeholder)
  | inclusion (i : Inclusion)
  deriving DecidableEq, Repr

namespace Node

/-- The stretch of source that the node was read from. -/
def span : Node → Span
  | .text _ span => span
  | .placeholder p => p.span
  | .inclusion i => i.span

end Node

/-- The placeholders of a template, in document order. -/
def placeholders (nodes : List Node) : List Placeholder :=
  nodes.filterMap fun
    | .placeholder p => some p
    | _ => none

/-- The inclusions of a template, in document order. -/
def inclusions (nodes : List Node) : List Inclusion :=
  nodes.filterMap fun
    | .inclusion i => some i
    | _ => none

end Letterpress
