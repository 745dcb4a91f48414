import Letterpress.Text.Letter
import Letterpress.Text.VisibleTable

/-!
# Quoted Text

A text between double quotes, written so that every character can be told apart: quotes and
backslashes are escaped, the common controls have short escapes, and a character without a
visible form of its own, or one that would attach itself to its neighbour, is written by its
number. Summaries of templates and of plugin lists show names this way.

## Main definitions

* `quoted`: The quoted form of a text.
* `quotedList`: The quoted forms of several texts in brackets.
-/

namespace Letterpress

namespace Text

/-- The escape of one character inside quotes. -/
def escapeOf (c : Char) : String :=
  match c with
  | '\x00' => "\\0"
  | '\t' => "\\t"
  | '\n' => "\\n"
  | '\r' => "\\r"
  | '"' => "\\\""
  | '\\' => "\\\\"
  | _ =>
    let n := c.toNat
    if belongs extendingBoundaries n || belongs hiddenBoundaries n then
      "\\u\x7b" ++ String.ofList (Nat.toDigits 16 n) ++ "\x7d"
    else c.toString

/-- The text between double quotes, with everything ambiguous escaped. -/
def quoted (s : String) : String :=
  "\"" ++ String.join (s.toList.map escapeOf) ++ "\""

/-- The quoted texts between square brackets, with a comma and a space between them. -/
def quotedList (texts : List String) : String :=
  "[" ++ ", ".intercalate (texts.map quoted) ++ "]"

end Text

end Letterpress
