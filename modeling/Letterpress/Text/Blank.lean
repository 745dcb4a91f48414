/-!
# Blank Characters

White space in the sense of Unicode, and what it means to trim it. Core's
`Char.isWhitespace` knows the ASCII blanks only, while a template may be written with
no-break spaces or ideographic spaces around its pipes. The zero-width space and the byte
order mark are not white space and stay. The property is that of Unicode 17.0, and has not
changed since 6.3.

## Main definitions

* `isBlank`: The property White_Space.
* `trim`: A text without the blanks at either end.
-/

namespace Letterpress

namespace Text

/-- The Unicode property White_Space. -/
def isBlank (c : Char) : Bool :=
  let n := c.toNat
  (9 ≤ n && n ≤ 13) || n == 0x20 || n == 0x85 || n == 0xA0 || n == 0x1680 ||
    (0x2000 ≤ n && n ≤ 0x200A) || n == 0x2028 || n == 0x2029 || n == 0x202F || n == 0x205F ||
    n == 0x3000

/-- The characters without the blanks in front of them. -/
def trimLeft (cs : List Char) : List Char :=
  cs.dropWhile isBlank

/-- The characters without the blanks behind them. -/
def trimRight (cs : List Char) : List Char :=
  (cs.reverse.dropWhile isBlank).reverse

/-- The text without the blanks at either end. -/
def trim (s : String) : String :=
  String.ofList (trimRight (trimLeft s.toList))

end Text

end Letterpress
