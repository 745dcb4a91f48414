import Letterpress.Text.Blank

/-!
# Cursors

A place in a template while it is being read: the characters still to come, and the byte
offset at which they begin. Reading never goes back behind a place that it has been given, so
a later cursor always holds a tail of the characters of an earlier one, and its offset has
grown by the bytes in between. `Reaches` states exactly that. It is what keeps every reported
offset on a character boundary, and what makes the readers terminate.

## Main definitions

* `byteLength`: The bytes that characters take up.
* `Cursor`: A place in a source.
* `Cursor.takeWhile`, `Cursor.skipBlanks`, `Cursor.accept?`: The elementary steps.
* `Cursor.Reaches`: One cursor lies at or behind another.
* `Cursor.Passes`: One cursor lies properly behind another.

## Theorems

* `Cursor.Reaches.trans`: Steps can be chained.
* `Cursor.reaches_takeWhile`, `Cursor.reaches_skipBlanks`, `Cursor.passes_accept?`: The
  elementary steps lead forward.
* `Cursor.Passes.length_lt`: A proper step leaves fewer characters.
-/

namespace Letterpress

/-- The bytes that characters take up in UTF-8. -/
def byteLength : List Char → Nat
  | [] => 0
  | c :: cs => c.utf8Size + byteLength cs

@[simp]
theorem byteLength_nil : byteLength [] = 0 := rfl

@[simp]
theorem byteLength_cons (c : Char) (cs : List Char) :
    byteLength (c :: cs) = c.utf8Size + byteLength cs := rfl

@[simp]
theorem byteLength_append (cs ds : List Char) :
    byteLength (cs ++ ds) = byteLength cs + byteLength ds := by
  induction cs with
  | nil => simp
  | cons c cs ih => simp [ih, Nat.add_assoc]

/-- The characters still to be read, and the offset at which they begin. -/
structure Cursor where
  rest : List Char
  offset : Nat
  deriving DecidableEq, Repr

namespace Cursor

/-- The beginning of a source. -/
def start (source : String) : Cursor := ⟨source.toList, 0⟩

/-- The next character. -/
def next? (c : Cursor) : Option Char := c.rest.head?

/-- Takes characters as long as they satisfy a condition. -/
def takeWhile (p : Char → Bool) (c : Cursor) : List Char × Cursor :=
  let taken := c.rest.takeWhile p
  (taken, ⟨c.rest.dropWhile p, c.offset + byteLength taken⟩)

/-- Goes past the blanks that come next. -/
def skipBlanks (c : Cursor) : Cursor := (c.takeWhile Text.isBlank).2

/-- Goes past one expected character. -/
def accept? (x : Char) (c : Cursor) : Option Cursor :=
  match c.rest with
  | [] => none
  | d :: rest => if d = x then some ⟨rest, c.offset + d.utf8Size⟩ else none

/-- The second cursor lies at or behind the first in the same source. -/
def Reaches (c d : Cursor) : Prop :=
  ∃ taken, c.rest = taken ++ d.rest ∧ d.offset = c.offset + byteLength taken

/-- The second cursor lies properly behind the first in the same source. -/
def Passes (c d : Cursor) : Prop :=
  ∃ taken, taken ≠ [] ∧ c.rest = taken ++ d.rest ∧ d.offset = c.offset + byteLength taken

theorem Reaches.refl (c : Cursor) : c.Reaches c :=
  ⟨[], rfl, rfl⟩

theorem Reaches.trans {a b c : Cursor} (hab : a.Reaches b) (hbc : b.Reaches c) : a.Reaches c := by
  obtain ⟨s, hs, hs'⟩ := hab
  obtain ⟨t, ht, ht'⟩ := hbc
  exact ⟨s ++ t, by rw [hs, ht, List.append_assoc], by rw [ht', hs', byteLength_append]; omega⟩

theorem Passes.reaches {a b : Cursor} (h : a.Passes b) : a.Reaches b := by
  obtain ⟨t, _, h, h'⟩ := h
  exact ⟨t, h, h'⟩

theorem Passes.trans_reaches {a b c : Cursor} (hab : a.Passes b) (hbc : b.Reaches c) :
    a.Passes c := by
  obtain ⟨s, hne, hs, hs'⟩ := hab
  obtain ⟨t, ht, ht'⟩ := hbc
  exact ⟨s ++ t, by simp [hne], by rw [hs, ht, List.append_assoc],
    by rw [ht', hs', byteLength_append]; omega⟩

theorem Reaches.trans_passes {a b c : Cursor} (hab : a.Reaches b) (hbc : b.Passes c) :
    a.Passes c := by
  obtain ⟨s, hs, hs'⟩ := hab
  obtain ⟨t, hne, ht, ht'⟩ := hbc
  exact ⟨s ++ t, by simp [hne], by rw [hs, ht, List.append_assoc],
    by rw [ht', hs', byteLength_append]; omega⟩

theorem Reaches.length_le {a b : Cursor} (h : a.Reaches b) : b.rest.length ≤ a.rest.length := by
  obtain ⟨t, h, _⟩ := h
  simp [h]

theorem Passes.length_lt {a b : Cursor} (h : a.Passes b) : b.rest.length < a.rest.length := by
  obtain ⟨t, hne, h, _⟩ := h
  have := List.length_pos_iff.mpr hne
  simp [h]
  omega

theorem reaches_takeWhile (p : Char → Bool) (c : Cursor) : c.Reaches (c.takeWhile p).2 :=
  ⟨c.rest.takeWhile p, (List.takeWhile_append_dropWhile).symm, rfl⟩

theorem reaches_skipBlanks (c : Cursor) : c.Reaches c.skipBlanks :=
  reaches_takeWhile _ c

theorem passes_cons (d : Char) (rest : List Char) (offset : Nat) :
    (⟨d :: rest, offset⟩ : Cursor).Passes ⟨rest, offset + d.utf8Size⟩ :=
  ⟨[d], by simp, rfl, by simp⟩

theorem passes_accept? {x : Char} {c d : Cursor} (h : c.accept? x = some d) : c.Passes d := by
  obtain ⟨rest, offset⟩ := c
  cases rest with
  | nil => simp [accept?] at h
  | cons e rest =>
    simp only [accept?] at h
    split at h
    · cases h
      exact passes_cons e rest offset
    · cases h

end Cursor

end Letterpress
