/-!
# Replacing Text

Every occurrence of one text by another. Occurrences are found from the left and do not
overlap, and the replacement is not searched again. The empty text occurs at both ends and
between every two characters, so replacing it puts the replacement at all these places.

## Main definitions

* `replaceAll`: The text with all occurrences replaced.
-/

namespace Letterpress

namespace Text

/-- Replaces the occurrences of a non-empty pattern. The first `skip` characters belong to an
    occurrence that was already replaced, and are dropped. -/
def replaceFrom (pattern substitute : List Char) : Nat → List Char → List Char
  | _, [] => []
  | skip + 1, _ :: rest => replaceFrom pattern substitute skip rest
  | 0, c :: rest =>
    if pattern.isPrefixOf (c :: rest) then
      substitute ++ replaceFrom pattern substitute (pattern.length - 1) rest
    else c :: replaceFrom pattern substitute 0 rest

/-- Every occurrence of the pattern in the text gives way to the substitute. -/
def replaceAll (s pattern substitute : String) : String :=
  String.ofList <|
    if pattern.isEmpty then
      substitute.toList ++ s.toList.flatMap (fun c => c :: substitute.toList)
    else replaceFrom pattern.toList substitute.toList 0 s.toList

end Text

end Letterpress
