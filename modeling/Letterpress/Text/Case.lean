import Letterpress.Text.CaseTable
import Letterpress.Text.Letter

/-!
# Letter Case

The upper and lower case of a text, in every script and independent of any language. Most
letters map to one letter, a few to several: the upper case of a sharp s is two letters, and
the lower case of a dotted capital I is an i and a combining dot.

One letter depends on where it stands. A Greek capital sigma becomes a final sigma at the end
of a word, that is after a letter with case and not before one, looking through the
characters that a word carries along (apostrophes, accents). Every other letter is mapped on
its own.

## Main definitions

* `upperOf`, `lowerOf`: The upper and lower case of one character.
* `toUpper`, `toLower`: The upper and lower case of a text.
* `capitalize`: A text with its first character in upper case.
* `asciiUpper`, `asciiLower`: The mappings that leave all but ASCII letters alone.
-/

namespace Letterpress

namespace Text

namespace CaseRun

/-- The code point belongs to the run. -/
def covers (run : CaseRun) (n : Nat) : Bool :=
  run.first ≤ n && n ≤ run.last && (n - run.first) % run.stride == 0

/-- The character that a covered code point maps to. -/
def apply (run : CaseRun) (n : Nat) : Char :=
  Char.ofNat (n + run.distance).toNat

end CaseRun

/-- The image of one character under a case mapping: its expansion if it has one, the run
    that covers it otherwise, and itself if there is neither. -/
def mapCase (expansions : List (Nat × List Nat)) (runs : List CaseRun) (c : Char) : List Char :=
  match expansions.lookup c.toNat with
  | some ns => ns.map Char.ofNat
  | none =>
    match runs.find? (·.covers c.toNat) with
    | some run => [run.apply c.toNat]
    | none => [c]

/-- The upper case of one character. -/
def upperOf (c : Char) : List Char :=
  if c.toNat < 0x80 then [c.toUpper] else mapCase upperExpansions upperRuns c

/-- The lower case of one character on its own. -/
def lowerOf (c : Char) : List Char :=
  if c.toNat < 0x80 then [c.toLower] else mapCase lowerExpansions lowerRuns c

/-- The first character that is not ignorable has case. It decides whether a word goes on in
    the direction of the list. -/
def meetsCased (cs : List Char) : Bool :=
  match cs.dropWhile (belongs caseIgnorableBoundaries ·.toNat) with
  | [] => false
  | c :: _ => belongs casedBoundaries c.toNat

/-- The Greek capital sigma. -/
def sigma : Char := 'Σ'

/-- The lower case of the remaining characters. The characters before them come nearest
    first. -/
def lowerFrom (before : List Char) : List Char → List Char
  | [] => []
  | c :: rest =>
    let image :=
      if c == sigma then
        if meetsCased before && !meetsCased rest then ['ς'] else ['σ']
      else lowerOf c
    image ++ lowerFrom (c :: before) rest

/-- The text in upper case. -/
def toUpper (s : String) : String :=
  String.ofList (s.toList.flatMap upperOf)

/-- The text in lower case. -/
def toLower (s : String) : String :=
  String.ofList (lowerFrom [] s.toList)

/-- The text with its first character in upper case and the others as they are. -/
def capitalize (s : String) : String :=
  match s.toList with
  | [] => ""
  | c :: rest => String.ofList (upperOf c ++ rest)

/-- The text with its ASCII letters in upper case. -/
def asciiUpper (s : String) : String :=
  String.ofList (s.toList.map Char.toUpper)

/-- The text with its ASCII letters in lower case. -/
def asciiLower (s : String) : String :=
  String.ofList (s.toList.map Char.toLower)

end Text

end Letterpress
