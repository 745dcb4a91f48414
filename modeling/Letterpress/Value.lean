import Letterpress.Calendar.Pattern
import Letterpress.Json
import Letterpress.Number.Reading
import Letterpress.Text.Blank

/-!
# Values

The data that a template is filled in with, and that passes from filter to filter. A value is
stringified once, at the end of its chain of filters, and the rules are lenient: every value
has a text and every value has a number, if only an undefined one.

A path looks a value up step by step. Null counts as missing on the way and at the end, so
that a missing field and a field without content are treated alike.

## Main definitions

* `Value`: A value.
* `Value.kind`: The name of the sort of a value.
* `Value.display`, `Value.shown`: The text of a value, by itself and as an item of a list.
* `Value.asNumber`: The number of a value.
* `Value.get?`, `Value.lookup`: Fields and paths.
* `Value.toJson`, `Value.ofJson`: Between values and JSON documents.
-/

namespace Letterpress

open Calendar (Instant)

/-- A value that a template works on. The fields of a record are sorted by name. -/
inductive Value where
  | null
  | bool (b : Bool)
  | number (x : Float)
  | text (s : String)
  | date (t : Instant)
  | list (items : List Value)
  | record (fields : List (String × Value))
  deriving Inhabited

namespace Value

/-- The name of the sort of a value, as error messages use it. -/
def kind : Value → String
  | .null => "null"
  | .bool _ => "boolean"
  | .number _ => "number"
  | .text _ => "string"
  | .date _ => "date"
  | .list _ => "array"
  | .record _ => "object"

/-- The value is null. -/
def isNull : Value → Bool
  | .null => true
  | _ => false

/-- A field of a record. -/
def get? (key : String) : Value → Option Value
  | .record fields => Entries.get? key fields
  | _ => none

/-- The value at the end of a path. Each step has to lead to a field that is not null; without
    steps the value itself is found, whatever it is. -/
def lookup : List String → Value → Option Value
  | [], v => some v
  | key :: path, v =>
    match v.get? key with
    | none => none
    | some .null => none
    | some w => w.lookup path

mutual

/-- The text of a value. A list shows its items with commas between them, and a record does
    not show its fields. -/
def display : Value → String
  | .null => "null"
  | .bool true => "true"
  | .bool false => "false"
  | .number x => Number.text x
  | .text s => s
  | .date t => t.longText
  | .list items => displayItems true items
  | .record _ => "[object Object]"

/-- The items of a list one after another, each behind a comma unless it is the first. A null
    item is left blank. -/
def displayItems (isFirst : Bool) : List Value → String
  | [] => ""
  | v :: rest =>
    (if isFirst then "" else ",") ++ (if v.isNull then "" else display v) ++
      displayItems false rest

end

/-- The text of an item of a list. -/
def shown : Value → String
  | .null => ""
  | v => v.display

/-- The number of a text: zero if there is nothing but blanks, and undefined if it is not the
    text of a number. -/
def numberOfText (s : String) : Float :=
  let trimmed := Text.trim s
  if trimmed.isEmpty then 0 else (Number.float? trimmed).getD (0 / 0)

/-- The number of a value. A list of one item counts as the text of that item. -/
def asNumber : Value → Float
  | .null => 0
  | .bool b => if b then 1 else 0
  | .number x => x
  | .text s => numberOfText s
  | .date t => Number.ofInt t.toMillis
  | .list [] => 0
  | .list [v] => numberOfText v.display
  | .list _ => 0 / 0
  | .record _ => 0 / 0

/-- Whole numbers of a size below this are written as whole numbers. -/
def wholeLimit : Nat := Number.twoTo 53

/-- The document of a number: a whole number if it is one of a moderate size. -/
def numberToJson (x : Float) : Json :=
  match (Number.exact x).integer? with
  | some i => if i.natAbs < wholeLimit then .whole i else .decimal x
  | none => Json.ofFloat x

mutual

/-- The document of a value. A date becomes its timestamp with milliseconds. -/
def toJson : Value → Json
  | .null => .null
  | .bool b => .bool b
  | .number x => numberToJson x
  | .text s => .text s
  | .date t => .text (t.timestamp .millis "Z")
  | .list items => .list (toJsonItems items)
  | .record fields => .record (toJsonFields fields)

/-- The documents of the items of a list. -/
def toJsonItems : List Value → List Json
  | [] => []
  | v :: rest => toJson v :: toJsonItems rest

/-- The documents of the fields of a record. -/
def toJsonFields : List (String × Value) → List (String × Json)
  | [] => []
  | (k, v) :: rest => (k, toJson v) :: toJsonFields rest

end

mutual

/-- The value of a document. -/
def ofJson : Json → Value
  | .null => .null
  | .bool b => .bool b
  | .whole i => .number (Number.ofInt i)
  | .decimal x => .number x
  | .text s => .text s
  | .list items => .list (ofJsonItems items)
  | .record fields => .record (ofJsonFields fields)

/-- The values of the items of a list. -/
def ofJsonItems : List Json → List Value
  | [] => []
  | j :: rest => ofJson j :: ofJsonItems rest

/-- The values of the fields of a record. -/
def ofJsonFields : List (String × Json) → List (String × Value)
  | [] => []
  | (k, j) :: rest => (k, ofJson j) :: ofJsonFields rest

end

end Value

end Letterpress
