import Letterpress.Options

/-!
# Caches

Keeps what was made from a source and options, so that it need not be made again. The cache
holds a limited number of entries and drops those that were not used for the longest time. A
clock of its own counts the uses, and every entry remembers the time of its last use. The
clock also moves on when nothing is found, so that no two entries ever have the same time.

Making the cache smaller does not drop anything at once, except that a cache of size zero is
empty; what is too much goes when the next entry is put in.

## Main definitions

* `Fingerprint`: What a cached template depends on.
* `Cache`: Entries with the times of their last use.
* `Cache.get`, `Cache.insert`: Look-up and insertion, which both count as a use.
* `Cache.dropStalest`: Drops the entry that was not used for the longest time.
* `Cache.shrinkTo`: Drops such entries until few enough are left.
* `Cache.clear`, `Cache.resize`: Emptying and resizing.

## Theorems

* `Cache.earliestUse_eq_some_iff`: The earliest use is that of an entry, and none is earlier.
* `Cache.length_dropStalest`: One entry goes at a time.
* `Cache.shrinkTo_sublist`: What is left was there before, in the same order.
* `Cache.insert_of_no_capacity`, `Cache.insert_of_known`, `Cache.insert_of_absent`: The three
  outcomes of an insertion.
-/

namespace Letterpress

/-- What a compiled template depends on, as far as it can be compared: functions in the options
    take part by their names or their sort only. -/
structure Fingerprint where
  source : String
  locale : String
  whenAbsent : AbsenceKind
  strict : Bool
  filters : List String
  deriving DecidableEq, Repr

/-- The key of a source with options. -/
def Fingerprint.of (source : String) (o : Options) : Fingerprint :=
  ⟨source, o.locale, o.whenAbsent.kind, o.strict, o.filters.names⟩

/-- A cached item, and the time of its last use. -/
structure CacheEntry (κ : Type u) (α : Type v) where
  key : κ
  item : α
  lastUsed : Nat

/-- A cache of limited size. The time is that of the latest use. -/
structure Cache (κ : Type u) (α : Type v) where
  capacity : Nat
  time : Nat := 0
  entries : List (CacheEntry κ α) := []

namespace Cache

variable {κ : Type u} {α : Type v}

/-- The number of entries. -/
def size (c : Cache κ α) : Nat := c.entries.length

/-- There are no entries. -/
def isEmpty (c : Cache κ α) : Bool := c.entries.isEmpty

/-- The earliest time at which any of the entries was last used. -/
def earliestUse (entries : List (CacheEntry κ α)) : Option Nat :=
  (entries.map (·.lastUsed)).min?

/-- Without the entry that was not used for the longest time. -/
def dropStalest (entries : List (CacheEntry κ α)) : List (CacheEntry κ α) :=
  match earliestUse entries with
  | none => []
  | some t => entries.eraseP (·.lastUsed == t)

theorem earliestUse_eq_some_iff {entries : List (CacheEntry κ α)} {t : Nat} :
    earliestUse entries = some t ↔
      (∃ e ∈ entries, e.lastUsed = t) ∧ ∀ e ∈ entries, t ≤ e.lastUsed := by
  unfold earliestUse
  rw [List.min?_eq_some_iff, List.mem_map, List.forall_mem_map]

theorem length_dropStalest (entries : List (CacheEntry κ α)) :
    (dropStalest entries).length = entries.length - 1 := by
  unfold dropStalest
  split
  · next hnone =>
      rw [earliestUse, List.min?_eq_none_iff, List.map_eq_nil_iff] at hnone
      rw [hnone]
      rfl
  · next t hsome =>
      rcases earliestUse_eq_some_iff.mp hsome with ⟨⟨e, he, heq⟩, _⟩
      exact List.length_eraseP_of_mem he (beq_iff_eq.mpr heq)

/-- Drops the stalest entries, one at a time, until at most so many are left. -/
def shrinkTo (most : Nat) (entries : List (CacheEntry κ α)) : List (CacheEntry κ α) :=
  if entries.length ≤ most then entries
  else shrinkTo most (dropStalest entries)
termination_by entries.length
decreasing_by
  rw [length_dropStalest]
  omega

theorem dropStalest_sublist (entries : List (CacheEntry κ α)) :
    (dropStalest entries).Sublist entries := by
  unfold dropStalest
  split
  · exact List.nil_sublist entries
  · exact List.eraseP_sublist

theorem shrinkTo_sublist (most : Nat) (entries : List (CacheEntry κ α)) :
    (shrinkTo most entries).Sublist entries := by
  fun_induction shrinkTo most entries with
  | case1 entries => exact .refl entries
  | case2 entries _ ih => exact ih.trans (dropStalest_sublist entries)

/-- Drops all entries. -/
def clear (c : Cache κ α) : Cache κ α := { c with entries := [] }

/-- Changes the capacity. Only a capacity of zero drops anything. -/
def resize (c : Cache κ α) (capacity : Nat) : Cache κ α :=
  { c with capacity := capacity, entries := if capacity = 0 then [] else c.entries }

variable [DecidableEq κ]

/-- The item of a key. -/
def find? (c : Cache κ α) (key : κ) : Option α :=
  (c.entries.find? (·.key = key)).map (·.item)

/-- Notes a use of the entry with a key. -/
def use (c : Cache κ α) (key : κ) : Cache κ α :=
  let now := c.time + 1
  { c with
    time := now
    entries := c.entries.map fun e => if e.key = key then { e with lastUsed := now } else e }

/-- Looks an item up. -/
def get (c : Cache κ α) (key : κ) : Option α × Cache κ α :=
  (c.find? key, c.use key)

/-- Puts an item in, and answers with what the cache holds for the key then: an item that was
    there before stays. A cache without capacity keeps nothing. -/
def insert (c : Cache κ α) (key : κ) (item : α) : α × Cache κ α :=
  if c.capacity = 0 then (item, c)
  else
    let used := c.use key
    match c.find? key with
    | some existing => (existing, used)
    | none =>
      let kept := shrinkTo (c.capacity - 1) used.entries
      (item, { used with entries := ⟨key, item, used.time⟩ :: kept })

theorem insert_of_no_capacity {c : Cache κ α} (h : c.capacity = 0) (key : κ) (item : α) :
    c.insert key item = (item, c) := by
  rw [insert, if_pos h]

theorem insert_of_known {c : Cache κ α} {key : κ} {existing : α} (h : c.capacity ≠ 0)
    (hfind : c.find? key = some existing) (item : α) :
    c.insert key item = (existing, c.use key) := by
  simp only [insert, if_neg h, hfind]

theorem insert_of_absent {c : Cache κ α} {key : κ} (h : c.capacity ≠ 0)
    (hfind : c.find? key = none) (item : α) :
    c.insert key item = (item, { c.use key with
      entries := ⟨key, item, c.time + 1⟩ :: shrinkTo (c.capacity - 1) (c.use key).entries }) := by
  simp only [insert, if_neg h, hfind]
  rfl

/-- A cache in one line. -/
def summary (c : Cache κ α) : String :=
  "TemplateCache \x7b capacity: " ++ toString c.capacity ++ ", len: " ++ toString c.size ++ " \x7d"

end Cache

end Letterpress
