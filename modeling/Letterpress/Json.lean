import Letterpress.Dictionary
import Letterpress.Number.Text

/-!
# JSON

Documents of the JSON data model and their compact text. Whole numbers and other numbers are
kept apart, because they are written differently: a whole number has no point, while any other
number always shows that it is one. Objects are sorted entries, so a document has one text.

A number that is not whole is written with the fewest digits that read back, and an exact tie
between two of them goes to the even one. It is positional as long as its leading digit stands
at most sixteen places before the point and at most five behind it.

## Main definitions

* `Json`: A document.
* `Json.render`: The compact text of a document.
* `Json.decimalText`: The text of a number that is not given as a whole number.
* `Json.ofFloat`: The document of a number on its own.
* `Json.quote`: The text of a string.
-/

namespace Letterpress

/-- A JSON document. -/
inductive Json where
  | null
  | bool (b : Bool)
  | whole (i : Int)
  | decimal (x : Float)
  | text (s : String)
  | list (items : List Json)
  | record (fields : List (String × Json))
  deriving Inhabited

namespace Json

/-- The text of a number that is not given as a whole number. Without a finite value there is
    no such text, and null takes its place. -/
def decimalText (x : Float) : String :=
  match Number.exact x with
  | .finite negative m q =>
    Number.signed negative <|
      if m = 0 then "0.0"
      else
        let d := Number.shortest .toEven m q
        let e := Number.leadingExponent d
        if -5 ≤ e ∧ e < 16 then
          if 0 ≤ d.exponent then Number.positional d ++ ".0" else Number.positional d
        else Number.scientific d
  | _ => "null"

/-- The document of a number on its own. Only a finite number has one other than null. -/
def ofFloat (x : Float) : Json :=
  if (Number.exact x).isFinite then .decimal x else .null

/-- One character inside a string. Quotes, backslashes and control characters are escaped, and
    everything else stands for itself. -/
def escape (c : Char) : List Char :=
  match c with
  | '"' => ['\\', '"']
  | '\\' => ['\\', '\\']
  | '\x08' => ['\\', 'b']
  | '\t' => ['\\', 't']
  | '\n' => ['\\', 'n']
  | '\x0c' => ['\\', 'f']
  | '\r' => ['\\', 'r']
  | _ =>
    if c.toNat < 0x20 then
      ['\\', 'u', '0', '0', Nat.digitChar (c.toNat / 16), Nat.digitChar (c.toNat % 16)]
    else [c]

/-- A string between quotes. -/
def quote (s : String) : String :=
  "\"" ++ String.ofList (s.toList.flatMap escape) ++ "\""

mutual

/-- The compact text of a document. -/
def render : Json → String
  | .null => "null"
  | .bool true => "true"
  | .bool false => "false"
  | .whole i => toString i
  | .decimal x => decimalText x
  | .text s => quote s
  | .list items => "[" ++ ",".intercalate (renderItems items) ++ "]"
  | .record fields => "\x7b" ++ ",".intercalate (renderFields fields) ++ "\x7d"

/-- The texts of the items of a list. -/
def renderItems : List Json → List String
  | [] => []
  | j :: rest => render j :: renderItems rest

/-- The texts of the fields of a record. -/
def renderFields : List (String × Json) → List String
  | [] => []
  | (k, j) :: rest => (quote k ++ ":" ++ render j) :: renderFields rest

end

end Json

end Letterpress
