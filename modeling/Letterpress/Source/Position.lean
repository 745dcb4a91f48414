import Letterpress.Template.Cursor
import Letterpress.Template.Node

/-!
# Positions

Lines and columns of a source. Everything inside the library works with byte offsets; people
want lines and columns, both counted from one, and columns counted in characters. A line ends
with a line feed and with nothing else.

Any offset has a position. One beyond the end is taken for the end, and one inside of a
character for the beginning of that character.

## Main definitions

* `Position`, `Range`: A line and a column, in the order of the text; two positions.
* `LineTable`: A source with the offsets at which its lines begin.
* `LineTable.position`, `LineTable.range`: Where an offset or a span lies.
-/

namespace Letterpress

/-- A line and a column, from one. -/
structure Position where
  line : Nat
  column : Nat
  deriving DecidableEq, Repr

/-- Positions are in the order of their lines, and on one line in the order of their columns. -/
instance : LE Position where
  le p q := p.line < q.line ∨ p.line = q.line ∧ p.column ≤ q.column

instance : LT Position where
  lt p q := p.line < q.line ∨ p.line = q.line ∧ p.column < q.column

instance (p q : Position) : Decidable (p ≤ q) :=
  inferInstanceAs (Decidable (p.line < q.line ∨ p.line = q.line ∧ p.column ≤ q.column))

instance (p q : Position) : Decidable (p < q) :=
  inferInstanceAs (Decidable (p.line < q.line ∨ p.line = q.line ∧ p.column < q.column))

/-- From one position to another. -/
structure Range where
  start : Position
  stop : Position
  deriving DecidableEq, Repr

/-- The offsets behind the line feeds among characters that begin at `offset`. -/
def startsFrom (offset : Nat) : List Char → List Nat
  | [] => []
  | c :: rest =>
    let next := offset + c.utf8Size
    if c = '\n' then next :: startsFrom next rest else startsFrom next rest

/-- The greatest character boundary that is at most `limit`, among characters that begin at
    `offset`. -/
def boundaryFrom (limit offset : Nat) : List Char → Nat
  | [] => offset
  | c :: rest =>
    let next := offset + c.utf8Size
    if next ≤ limit then boundaryFrom limit next rest else offset

/-- How many of the characters begin at or behind `low` and before `high`. The characters
    begin at `offset`. -/
def countFrom (low high offset : Nat) : List Char → Nat
  | [] => 0
  | c :: rest =>
    let later := countFrom low high (offset + c.utf8Size) rest
    if low ≤ offset ∧ offset < high then later + 1 else later

/-- A source with the offsets at which its lines begin. -/
structure LineTable where
  chars : List Char
  starts : List Nat
  deriving Repr

namespace LineTable

/-- Finds the lines of a source. The first line begins at the beginning. -/
def ofSource (source : String) : LineTable :=
  ⟨source.toList, 0 :: startsFrom 0 source.toList⟩

/-- The number of lines. -/
def size (index : LineTable) : Nat := index.starts.length

/-- The line and column of an offset. -/
def position (index : LineTable) (offset : Nat) : Position :=
  let o := boundaryFrom offset 0 index.chars
  let before := index.starts.takeWhile (· ≤ o)
  ⟨before.length, countFrom (before.getLastD 0) o 0 index.chars + 1⟩

/-- The positions of both ends of a span. -/
def range (index : LineTable) (span : Span) : Range :=
  ⟨index.position span.start, index.position span.stop⟩

end LineTable

end Letterpress
