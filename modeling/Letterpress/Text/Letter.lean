import Letterpress.Text.LetterTable

/-!
# Letters and Digits

Which characters a name may be made of. A name in a template starts with a letter of any
script, and goes on with letters and digits of any script, so the ASCII classes of core are
not enough. ASCII is decided without the tables: nearly all names are ASCII, and a closed
statement about an ASCII character then needs no table either.

## Main definitions

* `isLetter`: The property Alphabetic.
* `isNumeral`: The general category Number.
* `isAlphanumeric`: A letter or a numeral.
-/

namespace Letterpress

namespace Text

/-- Membership in a table of boundaries: the number of boundaries at or below the code
    point is odd. -/
def belongs (boundaries : List Nat) (n : Nat) : Bool :=
  (boundaries.takeWhile (· ≤ n)).length % 2 == 1

/-- The Unicode property Alphabetic. -/
def isLetter (c : Char) : Bool :=
  if c.toNat < 0x80 then c.isAlpha else belongs alphabeticBoundaries c.toNat

/-- The Unicode general category Number: decimal digits, letter numbers such as Roman
    numerals, and other numbers such as fractions and superscripts. -/
def isNumeral (c : Char) : Bool :=
  if c.toNat < 0x80 then c.isDigit else belongs numericBoundaries c.toNat

/-- A letter or a numeral of any script. -/
def isAlphanumeric (c : Char) : Bool :=
  isLetter c || isNumeral c

end Text

end Letterpress
