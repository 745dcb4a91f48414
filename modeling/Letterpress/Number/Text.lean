import Letterpress.Number.Shortest

/-!
# Number Text

How a number is written when it is stringified: the shortest digits that read back, in plain
positional form for sizes from a millionth up to (not including) ten to the twenty-first, and
with an exponent outside of that range. A whole number has no point, and the sign of a
negative zero is dropped.

## Main definitions

* `positional`: A decimal without an exponent.
* `scientific`: A decimal with one digit before the point and an exponent.
* `text`: The text of a number.
* `positionalText`: The text of a finite number without any exponent.
-/

namespace Letterpress

namespace Number

/-- A decimal in positional form, filled up with zeros on whichever side the point is. -/
def positional (d : Decimal) : String :=
  let digits := Nat.toDigits 10 d.digits
  String.ofList <|
    if 0 ≤ d.exponent then digits ++ List.replicate d.exponent.toNat '0'
    else
      let places := (-d.exponent).toNat
      if places < digits.length then
        digits.take (digits.length - places) ++ '.' :: digits.drop (digits.length - places)
      else '0' :: '.' :: (List.replicate (places - digits.length) '0' ++ digits)

/-- The exponent of the leading digit. -/
def leadingExponent (d : Decimal) : Int :=
  d.exponent + (digitCount d.digits - 1 : Nat)

/-- A decimal in scientific form. The exponent always has a sign. -/
def scientific (d : Decimal) : String :=
  let point (ds : List Char) : List Char :=
    match ds with
    | first :: second :: rest => first :: '.' :: second :: rest
    | ds => ds
  let e := leadingExponent d
  String.ofList (point (Nat.toDigits 10 d.digits)) ++ "e" ++ (if e < 0 then "-" else "+") ++
    toString e.natAbs

/-- A minus sign in front of a text when the flag is set. -/
def signed (negative : Bool) (s : String) : String :=
  if negative then "-" ++ s else s

/-- The text of a number. -/
def text (x : Float) : String :=
  match exact x with
  | .nan => "NaN"
  | .infinite negative => signed negative "Infinity"
  | .finite negative m q =>
    if m = 0 then "0"
    else
      let d := shortest .up m q
      let e := leadingExponent d
      signed negative (if -6 ≤ e ∧ e < 21 then positional d else scientific d)

/-- The text of a number without any exponent, however long it gets. The sign of a negative
    zero is kept. -/
def positionalText (x : Float) : String :=
  match exact x with
  | .nan => "NaN"
  | .infinite negative => signed negative "inf"
  | .finite negative m q =>
    signed negative (if m = 0 then "0" else positional (shortest .up m q))

end Number

end Letterpress
