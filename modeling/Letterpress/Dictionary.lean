/-!
# Dictionaries

Finite maps from names to values, kept in the order of their names. Lists of names are part
of what this library answers with, so their order must not depend on how a map came about.
Keeping the entries sorted makes the map and its list of entries the same thing: two maps
with the same look-ups have the same entries.

The order is that of the code points, which for text is the order of its UTF-8 bytes.

## Main definitions

* `Entries`: A list of names with values, and its look-up, insertion and removal.
* `Entries.Sorted`: The names increase strictly.
* `Dictionary`: Entries that are sorted.

## Theorems

* `Entries.sorted_insert`, `Entries.sorted_erase`: The operations keep entries sorted.
* `Entries.get?_insert`, `Entries.get?_erase`: What the operations do to look-ups.
* `Dictionary.get?_insert`, `Dictionary.get?_erase`: The same for dictionaries.
* `Dictionary.get?_foldl_insert`, `Dictionary.get?_merge`: What many insertions do to look-ups.
* `Dictionary.mem_names_iff`, `Dictionary.nodup_names`: The names are those that have a value, each
  of them once.
* `Dictionary.eq_of_names_eq`: A dictionary is known by its names and their values.
-/

namespace Letterpress

/-- Names with values. -/
abbrev Entries (α : Type u) := List (String × α)

namespace Entries

variable {α : Type u} {β : Type v}

/-- The value of a name. -/
def get? (name : String) : Entries α → Option α
  | [] => none
  | (k, a) :: rest => if k = name then some a else get? name rest

/-- Gives a name a value, in front of the first greater name. A value that the name had
    before is replaced. -/
def insert (name : String) (a : α) : Entries α → Entries α
  | [] => [(name, a)]
  | (k, b) :: rest =>
    if name < k then (name, a) :: (k, b) :: rest
    else if k = name then (name, a) :: rest
    else (k, b) :: insert name a rest

/-- Without the entry of a name. -/
def erase (name : String) (es : Entries α) : Entries α :=
  es.filter (·.1 ≠ name)

/-- Sorts a list of pairs by name. Of several values of one name the last one stays. -/
def ofList (pairs : List (String × α)) : Entries α :=
  pairs.foldl (fun es (k, a) => es.insert k a) []

/-- The names increase strictly. -/
def Sorted (es : Entries α) : Prop :=
  es.Pairwise (fun a b => a.1 < b.1)

theorem lt_of_not_lt_of_ne {a b : String} (h : ¬ a < b) (hne : b ≠ a) : b < a := by
  refine Decidable.byContradiction fun hba => hne ?_
  exact String.le_antisymm (String.not_lt.mp h) (String.not_lt.mp hba)

theorem mem_insert {name : String} {a : α} {es : Entries α} {e : String × α}
    (h : e ∈ es.insert name a) : e = (name, a) ∨ e ∈ es := by
  induction es with
  | nil => simpa [insert] using h
  | cons hd rest ih =>
    obtain ⟨k, b⟩ := hd
    simp only [insert] at h
    split at h
    · simpa using h
    · split at h
      · rcases List.mem_cons.mp h with h | h
        · exact .inl h
        · exact .inr (List.mem_cons_of_mem _ h)
      · rcases List.mem_cons.mp h with h | h
        · exact .inr (h ▸ List.mem_cons_self)
        · exact (ih h).imp_right (List.mem_cons_of_mem _)

theorem sorted_insert {es : Entries α} (h : es.Sorted) (name : String) (a : α) :
    (es.insert name a).Sorted := by
  induction es with
  | nil => simp [insert, Sorted]
  | cons hd rest ih =>
    obtain ⟨k, b⟩ := hd
    obtain ⟨hk, hrest⟩ := List.pairwise_cons.mp h
    simp only [insert]
    split
    · rename_i hlt
      refine List.pairwise_cons.mpr ⟨fun e he => ?_, h⟩
      rcases List.mem_cons.mp he with rfl | he
      · exact hlt
      · exact String.lt_trans hlt (hk e he)
    · rename_i hlt
      split
      · rename_i heq
        exact List.pairwise_cons.mpr ⟨fun e he => heq ▸ hk e he, hrest⟩
      · rename_i hne
        refine List.pairwise_cons.mpr ⟨fun e he => ?_, ih hrest⟩
        rcases mem_insert he with rfl | he
        · exact lt_of_not_lt_of_ne hlt hne
        · exact hk e he

theorem sorted_erase {es : Entries α} (h : es.Sorted) (name : String) : (es.erase name).Sorted :=
  List.Pairwise.filter _ h

theorem get?_insert (es : Entries α) (name key : String) (a : α) :
    (es.insert name a).get? key = if name = key then some a else es.get? key := by
  induction es with
  | nil => simp [insert, get?]
  | cons hd rest ih =>
    obtain ⟨k, b⟩ := hd
    simp only [insert]
    split
    · simp [get?]
    · split
      · rename_i heq
        subst heq
        by_cases hk : k = key <;> simp [get?, hk]
      · rename_i hne
        by_cases hk : k = key
        · subst hk
          simp [get?, Ne.symm hne]
        · simp [get?, hk, ih]

theorem get?_erase (es : Entries α) (name key : String) :
    (es.erase name).get? key = if name = key then none else es.get? key := by
  induction es with
  | nil => simp [erase, get?]
  | cons hd rest ih =>
    obtain ⟨k, b⟩ := hd
    simp only [erase] at ih
    by_cases hkn : k = name
    · subst hkn
      simp only [erase, List.filter, ne_eq, not_true, decide_false, ih, get?]
      split <;> rfl
    · simp only [erase, List.filter, ne_eq, hkn, not_false_eq_true, decide_true, get?, ih]
      by_cases hk : k = key
      · subst hk
        simp [Ne.symm hkn]
      · simp [hk]

theorem mem_names_iff (es : Entries α) (name : String) :
    name ∈ es.map Prod.fst ↔ (es.get? name).isSome := by
  induction es with
  | nil => simp [get?]
  | cons hd rest ih =>
    obtain ⟨k, b⟩ := hd
    by_cases hk : k = name
    · simp [get?, hk]
    · simp [get?, hk, Ne.symm hk, ih]

/-- Sorted entries have no name twice. -/
theorem Sorted.nodup {es : Entries α} (h : es.Sorted) : (es.map Prod.fst).Nodup := by
  refine List.pairwise_map.mpr (h.imp fun hlt heq => ?_)
  exact String.lt_irrefl _ (heq ▸ hlt)

/-- Entries with the same names are the same if no name has two different values. -/
theorem eq_of_names_eq {es es' : Entries α} (hsorted : es.Sorted)
    (hnames : es.map Prod.fst = es'.map Prod.fst)
    (hvalues : ∀ name a a', es.get? name = some a → es'.get? name = some a' → a = a') :
    es = es' := by
  induction es generalizing es' with
  | nil => exact (List.map_eq_nil_iff.mp hnames.symm).symm
  | cons hd rest ih =>
      rcases hd with ⟨k, a⟩
      rcases es' with _ | ⟨⟨k', a'⟩, rest'⟩
      · cases hnames
      · simp only [List.map_cons, List.cons.injEq] at hnames
        rcases hnames with ⟨rfl, hrestnames⟩
        rcases List.pairwise_cons.mp hsorted with ⟨hless, hrest⟩
        have hfirst : a = a' := hvalues k a a' (if_pos rfl) (if_pos rfl)
        have htail : rest = rest' := by
          refine ih hrest hrestnames fun name b b' hb hb' => ?_
          -- The names of the rest are greater than the first one.
          have hne : k ≠ name := by
            intro heq
            have hmem := (mem_names_iff rest name).mpr (by rw [hb]; rfl)
            rcases List.mem_map.mp hmem with ⟨e, he, rfl⟩
            exact String.lt_irrefl _ (heq ▸ hless e he)
          exact hvalues name b b' ((if_neg hne).trans hb) ((if_neg hne).trans hb')
        rw [hfirst, htail]

end Entries

/-- A finite map from names to values, as its entries in the order of their names. -/
structure Dictionary (α : Type u) where
  entries : Entries α
  sorted : entries.Sorted

namespace Dictionary

variable {α : Type u} {β : Type v}

/-- The dictionary without entries. -/
def empty : Dictionary α := ⟨[], List.Pairwise.nil⟩

instance : Inhabited (Dictionary α) := ⟨empty⟩

instance : EmptyCollection (Dictionary α) := ⟨empty⟩

/-- The value of a name. -/
def get? (d : Dictionary α) (name : String) : Option α := d.entries.get? name

/-- The name has a value. -/
def contains (d : Dictionary α) (name : String) : Bool := (d.get? name).isSome

/-- Gives a name a value, in place of any that it had. -/
def insert (d : Dictionary α) (name : String) (a : α) : Dictionary α :=
  ⟨d.entries.insert name a, Entries.sorted_insert d.sorted name a⟩

/-- Takes a name out. -/
def erase (d : Dictionary α) (name : String) : Dictionary α :=
  ⟨d.entries.erase name, Entries.sorted_erase d.sorted name⟩

/-- The dictionary of a list of pairs. Of several values of one name the last one stays. -/
def ofList (pairs : List (String × α)) : Dictionary α :=
  pairs.foldl (fun d (k, a) => d.insert k a) empty

/-- All entries of the second dictionary, and those of the first under other names. -/
def merge (d e : Dictionary α) : Dictionary α :=
  e.entries.foldl (fun d (k, a) => d.insert k a) d

/-- The names in their order. -/
def names (d : Dictionary α) : List String := d.entries.map Prod.fst

/-- The number of names. -/
def size (d : Dictionary α) : Nat := d.entries.length

/-- There are no entries. -/
def isEmpty (d : Dictionary α) : Bool := d.entries.isEmpty

theorem get?_insert (d : Dictionary α) (name key : String) (a : α) :
    (d.insert name a).get? key = if name = key then some a else d.get? key :=
  Entries.get?_insert d.entries name key a

theorem get?_erase (d : Dictionary α) (name key : String) :
    (d.erase name).get? key = if name = key then none else d.get? key :=
  Entries.get?_erase d.entries name key

/-- The names are those that have a value. -/
theorem mem_names_iff (d : Dictionary α) (name : String) : name ∈ d.names ↔ d.contains name :=
  Entries.mem_names_iff d.entries name

theorem mem_names_of_get? {d : Dictionary α} {name : String} {a : α} (h : d.get? name = some a) :
    name ∈ d.names :=
  (mem_names_iff d name).mpr (by simp [contains, h])

theorem nodup_names (d : Dictionary α) : d.names.Nodup := d.sorted.nodup

/-- Values given to different names one after the other, each made from an entry of a list. A name
    of the list has the value from there, and any other name has the value that it had before. -/
theorem get?_foldl_insert {es : Entries β} (hdistinct : (es.map Prod.fst).Nodup) (make : β → α)
    (d : Dictionary α) (name : String) :
    (es.foldl (fun d e => d.insert e.1 (make e.2)) d).get? name =
      ((es.get? name).map make).or (d.get? name) := by
  induction es generalizing d with
  | nil => rfl
  | cons hd rest ih =>
      rcases hd with ⟨k, b⟩
      rw [List.map_cons, List.nodup_cons] at hdistinct
      rcases hdistinct with ⟨hnew, hrest⟩
      rw [List.foldl_cons, ih hrest, get?_insert]
      by_cases hk : k = name
      · -- The name does not come again, so this is its last value.
        subst hk
        have hnone : Entries.get? k rest = none := by
          rw [Entries.mem_names_iff, Option.not_isSome_iff_eq_none] at hnew
          exact hnew
        simp [Entries.get?, hnone]
      · simp [Entries.get?, hk]

theorem get?_merge (d e : Dictionary α) (name : String) :
    (d.merge e).get? name = (e.get? name).or (d.get? name) := by
  have h := get?_foldl_insert e.sorted.nodup id d name
  rwa [Option.map_id] at h

/-- Dictionaries with the same names are the same if no name has two different values. -/
theorem eq_of_names_eq {d d' : Dictionary α} (hnames : d.names = d'.names)
    (hvalues : ∀ name a a', d.get? name = some a → d'.get? name = some a' → a = a') :
    d = d' := by
  have hentries : d.entries = d'.entries := Entries.eq_of_names_eq d.sorted hnames hvalues
  rcases d with ⟨entries, sorted⟩
  rcases d' with ⟨entries', sorted'⟩
  subst hentries
  rfl

@[simp]
theorem get?_empty (key : String) : (empty : Dictionary α).get? key = none := rfl

end Dictionary

end Letterpress
