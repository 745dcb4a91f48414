/-!
# Reading Errors

Why a source is not a template, and where that shows. The offset is the place where reading
could not go on, with two exceptions: text in quotes that is never closed is reported at its
opening quote, since that is what needs mending, and an unknown escape at its backslash.

## Main definitions

* `ReadFault`: What is wrong.
* `ReadError`: What is wrong, and at which offset.
-/

namespace Letterpress

/-- What is wrong with a source. -/
inductive ReadFault where
  | identifierExpected
  | placeholderUnclosed (key : String)
  | inclusionUnclosed (name : String)
  | commaExpected
  | quoteUnclosed
  | escapeUnfinished
  | escapeUnknown (c : Char)
  deriving DecidableEq, Repr

/-- The wording of a fault. -/
def ReadFault.text : ReadFault → String
  | .identifierExpected => "Expected identifier"
  | .placeholderUnclosed key => "Expected '\x7d' to close placeholder \"" ++ key ++ "\""
  | .inclusionUnclosed name => "Expected '\x7d' to close include \"" ++ name ++ "\""
  | .commaExpected => "Expected ',' after quoted argument"
  | .quoteUnclosed => "Unterminated string"
  | .escapeUnfinished => "Unexpected end of input in escape sequence"
  | .escapeUnknown c => "Invalid escape sequence: \\" ++ c.toString

/-- What is wrong with a source, and at which byte offset. -/
structure ReadError where
  fault : ReadFault
  offset : Nat
  deriving DecidableEq, Repr

namespace ReadError

/-- The wording of the fault. -/
def text (e : ReadError) : String := e.fault.text

/-- The wording of the fault, with its offset. -/
def message (e : ReadError) : String := e.text ++ s!" (at offset {e.offset})"

end ReadError

end Letterpress
