/-!
# Edit Distance

How many insertions, deletions and substitutions of single characters lead from one text to
another. The table of the distances between all pairs of initial pieces is filled row by row,
and only one row is kept.

## Main definitions

* `nextRow`: The next row of the table, from the row above it.
* `distance`: The edit distance of two texts.
-/

namespace Letterpress

namespace Text

/-- Fills a row from left to right. The entry to the left and the entry diagonally above are
    carried along; `above` holds the entries above the remaining columns. -/
def rowFrom (c : Char) : Nat → Nat → List Char → List Nat → List Nat
  | left, diagonal, d :: ds, above :: rest =>
    let entry := min (min (left + 1) (above + 1)) (if c == d then diagonal else diagonal + 1)
    entry :: rowFrom c entry above ds rest
  | _, _, _, _ => []

/-- The row after one more character of the first text. Its first entry counts the
    characters of the first text. -/
def nextRow (target : List Char) (row : List Nat) (c : Char) : List Nat :=
  match row with
  | [] => []
  | first :: rest => (first + 1) :: rowFrom c (first + 1) first target rest

/-- The edit distance of two texts, counted in characters. -/
def distance (a b : String) : Nat :=
  let target := b.toList
  let start := List.range (target.length + 1)
  ((a.toList.foldl (nextRow target) start).getLast?).getD 0

end Text

end Letterpress
