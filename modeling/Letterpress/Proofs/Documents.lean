import Letterpress.Proofs.Integers
import Letterpress.Value

/-!
# Values and Their Documents

A value that is made into a document and back is the same value. Two things cannot come back as they
were. A date is a text in its document, and a number without a finite value is null there. Where
none of these occur, at any depth, nothing else is lost: the items of a list stay in their order,
the fields of a record keep their names and places, and texts are not touched.

Numbers take one of two ways, depending on whether they are integers of a moderate size. Any other
number is kept as it is. An integer comes back as the float that has its value, and the two ways
meet without a gap since an integer that is taken for one always fits into a mantissa. The sign of a
zero does not come back. It makes no difference, as numbers are compared as numbers.

## Main definitions

* `Value.equal`: Values are equal.
* `Value.IsPlain`: A value without dates, and without numbers that are not finite.

## Theorems

* `list_beq_iff`, `record_beq_iff`: Equal lists and records have equal parts in the same places.
* `numberToJson_cases`: The two ways of a number.
* `document_roundtrip`: A value comes back from its document, and how its numbers do.
-/

namespace Letterpress

namespace Value

mutual

/-- Equality of values, with numbers compared as numbers: the two zeros are equal, and an undefined
    number is not equal to itself. -/
def equal : Value → Value → Bool
  | .null, .null => true
  | .bool b, .bool c => b == c
  | .number x, .number y => x == y
  | .text s, .text t => s == t
  | .date t, .date u => t == u
  | .list items, .list others => equalItems items others
  | .record fields, .record others => equalFields fields others
  | _, _ => false

/-- Equality of lists, item by item. -/
def equalItems : List Value → List Value → Bool
  | [], [] => true
  | v :: items, w :: others => equal v w && equalItems items others
  | _, _ => false

/-- Equality of records, name by name and field by field. -/
def equalFields : List (String × Value) → List (String × Value) → Bool
  | [], [] => true
  | (k, v) :: fields, (l, w) :: others => k == l && equal v w && equalFields fields others
  | _, _ => false

end

instance : BEq Value where
  beq := equal

/-- There is neither a date in the value nor a number that is not finite, at any depth. -/
inductive IsPlain : Value → Prop where
  | null : IsPlain .null
  | bool (b : Bool) : IsPlain (.bool b)
  | number {x : Float} (hx : (Number.exact x).isFinite = true) : IsPlain (.number x)
  | text (s : String) : IsPlain (.text s)
  | list {items : List Value} (hitems : ∀ v ∈ items, IsPlain v) : IsPlain (.list items)
  | record {fields : List (String × Value)} (hfields : ∀ f ∈ fields, IsPlain f.2) :
      IsPlain (.record fields)

variable {items others : List Value} {fields rest : List (String × Value)}

/-- Equal lists have equal items in the same places. -/
theorem list_beq_iff :
    (list items == list others) = true ↔
      List.Forall₂ (fun v w => (v == w) = true) items others := by
  change equal (list items) (list others) = true ↔ _
  rw [equal]
  induction items generalizing others with
  | nil => cases others <;> simp [equalItems]
  | cons v items ih =>
      cases others with
      | nil => simp [equalItems]
      | cons w others =>
          rw [equalItems, Bool.and_eq_true, ih, List.forall₂_cons]
          rfl

/-- Equal records have the same names in the same places, with equal values. -/
theorem record_beq_iff :
    (record fields == record rest) = true ↔
      List.Forall₂ (fun f g => f.1 = g.1 ∧ (f.2 == g.2) = true) fields rest := by
  change equal (record fields) (record rest) = true ↔ _
  rw [equal]
  induction fields generalizing rest with
  | nil => cases rest <;> simp [equalFields]
  | cons f fields ih =>
      cases rest with
      | nil => simp [equalFields]
      | cons g rest =>
          rw [equalFields, Bool.and_eq_true, Bool.and_eq_true, ih, List.forall₂_cons, beq_iff_eq]
          rfl

theorem ofJsonItems_toJsonItems :
    ofJsonItems (toJsonItems items) = items.map (fun v => ofJson v.toJson) := by
  induction items with
  | nil => rfl
  | cons v items ih => rw [toJsonItems, ofJsonItems, ih, List.map_cons]

theorem ofJsonFields_toJsonFields :
    ofJsonFields (toJsonFields fields) = fields.map (fun f => (f.1, ofJson f.2.toJson)) := by
  induction fields with
  | nil => rfl
  | cons f fields ih => rw [toJsonFields, ofJsonFields, ih, List.map_cons]

/-- A finite number is written as an integer if it is one of a moderate size, and otherwise as what
    it is. -/
theorem numberToJson_cases {x : Float} (hx : (Number.exact x).isFinite = true) :
    (∃ i : Int, (Number.exact x).integer? = some i ∧ i.natAbs < wholeLimit ∧
        numberToJson x = .whole i) ∨
      ((∀ i : Int, (Number.exact x).integer? = some i → wholeLimit ≤ i.natAbs) ∧
        numberToJson x = .decimal x) := by
  unfold numberToJson
  split
  · next i hi =>
      split
      · next hsize => exact .inl ⟨i, hi, hsize, rfl⟩
      · next hsize =>
          refine .inr ⟨fun j hj => ?_, rfl⟩
          rw [← Option.some.inj (hi.symm.trans hj)]
          exact Nat.not_lt.mp hsize
  · next hi =>
      refine .inr ⟨fun j hj => ?_, by rw [Json.ofFloat, if_pos hx]⟩
      rw [hi] at hj
      cases hj

theorem number_roundtrip {x : Float} (hx : (Number.exact x).isFinite = true) :
    (ofJson (numberToJson x) == number x) = true := by
  rcases numberToJson_cases hx with ⟨i, hi, hsize, hwhole⟩ | ⟨-, hdecimal⟩
  · rw [hwhole, ofJson]
    exact Number.beq_ofInt hi hsize
  · rw [hdecimal, ofJson]
    refine Number.beq_self fun hnan => ?_
    rw [hnan] at hx
    cases hx

theorem ofJson_toJson {v : Value} (hv : v.IsPlain) : (ofJson v.toJson == v) = true := by
  -- Lists and records are made into documents part by part, so each part comes back to its place.
  induction hv with
  | null => rfl
  | bool b => cases b <;> rfl
  | number hx => exact number_roundtrip hx
  | text s => exact beq_self_eq_true s
  | list _ ih =>
      rw [toJson, ofJson, ofJsonItems_toJsonItems, list_beq_iff, List.forall₂_map_left_iff]
      exact List.forall₂_same.mpr ih
  | record _ ih =>
      rw [toJson, ofJson, ofJsonFields_toJsonFields, record_beq_iff, List.forall₂_map_left_iff]
      exact List.forall₂_same.mpr fun f hf => ⟨rfl, ih f hf⟩

/-- A value without dates, and without numbers that are not finite, comes back from its document. A
    number in it takes the way of the integers if it is one below two to the fifty-third in size,
    and comes back as a number equal to it. Any other number is kept as it is. -/
theorem document_roundtrip {v : Value} (hv : v.IsPlain) :
    (ofJson v.toJson == v) = true ∧
      ∀ x : Float, (Number.exact x).isFinite = true →
        (∃ i : Int, (Number.exact x).integer? = some i ∧ i.natAbs < 2 ^ 53 ∧
            (number x).toJson = .whole i ∧
              ∃ y, ofJson (.whole i) = number y ∧ (y == x) = true) ∨
          ((∀ i : Int, (Number.exact x).integer? = some i → 2 ^ 53 ≤ i.natAbs) ∧
            (number x).toJson = .decimal x ∧ ofJson (.decimal x) = number x) := by
  refine ⟨ofJson_toJson hv, fun x hx => ?_⟩
  rcases numberToJson_cases hx with ⟨i, hi, hsize, hwhole⟩ | ⟨hsize, hdecimal⟩
  · refine .inl ⟨i, hi, hsize, hwhole, Number.ofInt i, ?_, Number.beq_ofInt hi hsize⟩
    rw [ofJson]
  · refine .inr ⟨hsize, hdecimal, ?_⟩
    rw [ofJson]

/-- The two numbers at the limit and a negative zero, inside a list inside a record. -/
theorem document_roundtrip_limit :
    IsPlain (record [("sizes", list [number 9007199254740991, number 9007199254740992,
        number (-0.0)])]) ∧
      (ofJson (record [("sizes", list [number 9007199254740991, number 9007199254740992,
          number (-0.0)])]).toJson ==
        record [("sizes", list [number 9007199254740991, number 9007199254740992,
          number (-0.0)])]) = true := by
  have hplain : IsPlain (record [("sizes", list [number 9007199254740991, number 9007199254740992,
      number (-0.0)])]) := by
    refine .record fun f hf => ?_
    rw [List.mem_singleton.mp hf]
    refine .list fun v hv => ?_
    rcases List.mem_cons.mp hv with rfl | hv
    · exact .number (by decide)
    · rcases List.mem_pair.mp hv with rfl | rfl <;> exact .number (by decide)
  exact ⟨hplain, (document_roundtrip hplain).1⟩

end Value

end Letterpress
