import Letterpress.Cache
import Mathlib.Data.List.Nodup
import Mathlib.Data.List.Perm.Basic
import Mathlib.Logic.Function.Iterate

/-!
# Recency

What a cache is for its users: keys with their items, the most recently used in front. A look-up
or an insertion moves a known key to the front, and room is made at the back. No clock is needed
to say so.

The cache itself keeps times instead of an order, and its entries lie around in whatever order
they came. `Mirrors` ties the two together: sorted by their times the entries are the recency
list. The sorting is possible because no two entries were last used at the same time, and that in
turn holds because the clock moves on with every use, found or not. The same fact makes the
stalest entry unique, so that it does not matter in which order the entries are searched for it.

A cache that was made smaller may hold more than its capacity for a while. Nothing here depends
on it being full or not: the room is made when the next key comes in, down to one place less
than the capacity.

## Main definitions

* `Cache.Command`, `Cache.Reply`: What can be done with a cache, and what it answers.
* `Cache.perform`, `Cache.after`: One command, and several.
* `Cache.trace`: The replies, sizes and capacities along the way.
* `Recency`: Keys with items, the most recently used in front.
* `Recency.perform`, `Recency.trace`: The same commands without a clock.
* `Arranged`: Entries that are a recency list once they are sorted by their times.
* `Mirrors`: A cache and the recency list that it stands for.

## Theorems

* `Arranged.find?_eq`: Both find the same item.
* `Arranged.stamp`: Noting a use moves a key to the front.
* `Arranged.cons`: A new entry comes to the front.
* `exists_victim`: Exactly one entry is the stalest, and it goes.
* `Arranged.shrinkTo`: Room is made at the back.
* `mirrors_perform`: One command keeps a cache and its recency list together.
* `Mirrors.trace_eq`: Any number of commands does, and has the same replies.
* `trace_eq_recency`: A cache is a recency list to all who use it.
-/

namespace Letterpress

universe u v

namespace Cache

/-- Something to do with a cache. -/
inductive Command (κ : Type u) (α : Type v) where
  | get (key : κ)
  | insert (key : κ) (item : α)
  | clear
  | resize (capacity : Nat)

/-- What comes back: an item or nothing for a look-up, an item for an insertion. -/
inductive Reply (α : Type v) where
  | found (item : Option α)
  | kept (item : α)
  | done

/-- A cache without entries. -/
def new (κ : Type u) (α : Type v) (capacity : Nat) : Cache κ α := { capacity := capacity }

variable {κ : Type u} {α : Type v} [DecidableEq κ]

/-- Does one thing with a cache. -/
def perform (c : Cache κ α) : Command κ α → Reply α × Cache κ α
  | .get key => (.found (c.get key).1, (c.get key).2)
  | .insert key item => (.kept (c.insert key item).1, (c.insert key item).2)
  | .clear => (.done, c.clear)
  | .resize capacity => (.done, c.resize capacity)

/-- The cache after some commands. -/
def after (c : Cache κ α) (commands : List (Command κ α)) : Cache κ α :=
  commands.foldl (fun c command => (c.perform command).2) c

/-- The reply to each command, with the size and the capacity after it. -/
def trace (c : Cache κ α) : List (Command κ α) → List (Reply α × Nat × Nat)
  | [] => []
  | command :: rest =>
    let next := c.perform command
    (next.1, next.2.size, next.2.capacity) :: next.2.trace rest

end Cache

/-- Keys with their items, the most recently used in front. -/
structure Recency (κ : Type u) (α : Type v) where
  capacity : Nat
  pairs : List (κ × α) := []

namespace Recency

/-- No keys. -/
def new (κ : Type u) (α : Type v) (capacity : Nat) : Recency κ α := { capacity := capacity }

variable {κ : Type u} {α : Type v} [DecidableEq κ]

/-- The item of a key. -/
def find? (key : κ) (pairs : List (κ × α)) : Option α :=
  (pairs.find? (·.1 = key)).map (·.2)

/-- Moves a key to the front. -/
def promote (key : κ) (item : α) (pairs : List (κ × α)) : List (κ × α) :=
  (key, item) :: pairs.filter (·.1 ≠ key)

/-- Looks an item up, which moves its key to the front. -/
def get (l : Recency κ α) (key : κ) : Option α × Recency κ α :=
  match find? key l.pairs with
  | none => (none, l)
  | some item => (some item, { l with pairs := promote key item l.pairs })

/-- Puts an item in. A key that is there already keeps its item and moves to the front. For a new
    one, room is made at the back. -/
def insert (l : Recency κ α) (key : κ) (item : α) : α × Recency κ α :=
  if l.capacity = 0 then (item, l)
  else
    match find? key l.pairs with
    | some existing => (existing, { l with pairs := promote key existing l.pairs })
    | none => (item, { l with pairs := (key, item) :: l.pairs.take (l.capacity - 1) })

/-- Changes the capacity. Only a capacity of zero drops anything. -/
def resize (l : Recency κ α) (capacity : Nat) : Recency κ α where
  capacity := capacity
  pairs := if capacity = 0 then [] else l.pairs

/-- Does one thing with a recency list. -/
def perform (l : Recency κ α) : Cache.Command κ α → Cache.Reply α × Recency κ α
  | .get key => (.found (l.get key).1, (l.get key).2)
  | .insert key item => (.kept (l.insert key item).1, (l.insert key item).2)
  | .clear => (.done, { l with pairs := [] })
  | .resize capacity => (.done, l.resize capacity)

/-- The reply to each command, with the length and the capacity after it. -/
def trace (l : Recency κ α) : List (Cache.Command κ α) → List (Cache.Reply α × Nat × Nat)
  | [] => []
  | command :: rest =>
    let next := l.perform command
    (next.1, next.2.pairs.length, next.2.capacity) :: next.2.trace rest

end Recency

variable {κ : Type u} {α : Type v}

/-- A key with its item, without the time. -/
def CacheEntry.pair (e : CacheEntry κ α) : κ × α := (e.key, e.item)

/-- The entry with its last use at a time, if it has the key. -/
def CacheEntry.stamp [DecidableEq κ] (key : κ) (now : Nat) (e : CacheEntry κ α) :
    CacheEntry κ α :=
  if e.key = key then { e with lastUsed := now } else e

/-- The first entry was used after the second. -/
def CacheEntry.Later (e f : CacheEntry κ α) : Prop := f.lastUsed < e.lastUsed

/-- The entries have different keys, and are the pairs once they are sorted by their times, the
    latest in front. -/
def Arranged (entries : List (CacheEntry κ α)) (pairs : List (κ × α)) : Prop :=
  (entries.map (·.key)).Nodup ∧ ∃ sorted : List (CacheEntry κ α),
    sorted.Perm entries ∧ sorted.Pairwise CacheEntry.Later ∧ sorted.map CacheEntry.pair = pairs

theorem Arranged.length_eq {entries : List (CacheEntry κ α)} {pairs : List (κ × α)}
    (h : Arranged entries pairs) : entries.length = pairs.length := by
  rcases h with ⟨_, sorted, hperm, _, rfl⟩
  rw [List.length_map, hperm.length_eq]

theorem Arranged.nil : Arranged ([] : List (CacheEntry κ α)) [] :=
  ⟨List.nodup_nil, [], .refl _, .nil, rfl⟩

/-- Two entries are never used at the same time, in whatever order they lie around. -/
theorem Arranged.pairwise_ne {entries : List (CacheEntry κ α)} {pairs : List (κ × α)}
    (h : Arranged entries pairs) : entries.Pairwise (fun e f => e.lastUsed ≠ f.lastUsed) := by
  rcases h with ⟨_, sorted, hperm, hlater, _⟩
  have hne : sorted.Pairwise (fun e f => e.lastUsed ≠ f.lastUsed) :=
    hlater.imp fun hef => (Nat.ne_of_lt hef).symm
  exact hperm.pairwise hne fun hef => hef.symm

section

variable [DecidableEq κ]

theorem find?_key_eq_some_iff {entries : List (CacheEntry κ α)}
    (hkeys : (entries.map (·.key)).Nodup) {key : κ} {e : CacheEntry κ α} :
    entries.find? (·.key = key) = some e ↔ e ∈ entries ∧ e.key = key := by
  constructor
  · intro h
    exact ⟨List.mem_of_find?_eq_some h, by simpa using List.find?_some h⟩
  · intro ⟨he, hkey⟩
    cases hfind : entries.find? (·.key = key) with
    | none =>
        have hno := List.find?_eq_none.mp hfind e he
        exact absurd (decide_eq_true hkey) hno
    | some f =>
        have hf := List.mem_of_find?_eq_some hfind
        have hfkey : f.key = key := by simpa using List.find?_some hfind
        rw [List.inj_on_of_nodup_map hkeys hf he (hfkey.trans hkey.symm)]

theorem find?_key_perm {entries sorted : List (CacheEntry κ α)}
    (hkeys : (entries.map (·.key)).Nodup) (hperm : sorted.Perm entries) (key : κ) :
    sorted.find? (·.key = key) = entries.find? (·.key = key) := by
  have hkeys' : (sorted.map (·.key)).Nodup := (hperm.map _).nodup_iff.mpr hkeys
  apply Option.ext
  intro e
  rw [find?_key_eq_some_iff hkeys, find?_key_eq_some_iff hkeys', hperm.mem_iff]

theorem find?_map_pair (key : κ) (sorted : List (CacheEntry κ α)) :
    Recency.find? key (sorted.map CacheEntry.pair) =
      (sorted.find? (·.key = key)).map (·.item) := by
  unfold Recency.find?
  rw [List.find?_map, Option.map_map]
  rfl

theorem Arranged.find?_eq {entries : List (CacheEntry κ α)} {pairs : List (κ × α)}
    (h : Arranged entries pairs) (key : κ) :
    (entries.find? (·.key = key)).map (·.item) = Recency.find? key pairs := by
  rcases h with ⟨hkeys, sorted, hperm, _, rfl⟩
  rw [find?_map_pair, find?_key_perm hkeys hperm]

theorem stamp_of_ne {key : κ} {e : CacheEntry κ α} (hne : e.key ≠ key) (now : Nat) :
    e.stamp key now = e := by
  rw [CacheEntry.stamp, if_neg hne]

theorem map_stamp_of_absent {key : κ} {entries : List (CacheEntry κ α)}
    (habsent : ∀ e ∈ entries, e.key ≠ key) (now : Nat) :
    entries.map (CacheEntry.stamp key now) = entries := by
  conv => rhs; rw [← List.map_id entries]
  exact List.map_congr_left fun e he => stamp_of_ne (habsent e he) now

theorem map_key_stamp (key : κ) (now : Nat) (entries : List (CacheEntry κ α)) :
    (entries.map (CacheEntry.stamp key now)).map (·.key) = entries.map (·.key) := by
  rw [List.map_map]
  refine List.map_congr_left fun e _ => ?_
  rw [Function.comp_apply, CacheEntry.stamp]
  split <;> rfl

theorem promote_map_pair {key : κ} {e : CacheEntry κ α} (hkey : e.key = key)
    {front back : List (CacheEntry κ α)} (hothers : ∀ f ∈ front ++ back, f.key ≠ key) (now : Nat) :
    Recency.promote key e.item ((front ++ e :: back).map CacheEntry.pair) =
      (e.stamp key now :: (front ++ back)).map CacheEntry.pair := by
  have hstamp : (e.stamp key now).pair = (key, e.item) := by
    rw [CacheEntry.stamp, if_pos hkey, CacheEntry.pair, hkey]
  have hfilter : (front ++ e :: back).filter (fun f => f.key ≠ key) = front ++ back := by
    rw [List.filter_append, List.filter_cons_of_neg (by simpa using hkey), ← List.filter_append,
      List.filter_eq_self]
    intro f hf
    exact decide_eq_true (hothers f hf)
  rw [List.map_cons, hstamp, ← hfilter, Recency.promote, List.filter_map]
  rfl

/-- Noting a use of a known key, later than all others, moves it to the front. -/
theorem Arranged.stamp {entries : List (CacheEntry κ α)} {pairs : List (κ × α)}
    (h : Arranged entries pairs) {now : Nat} (hnow : ∀ e ∈ entries, e.lastUsed < now) {key : κ}
    {item : α} (hfind : Recency.find? key pairs = some item) :
    Arranged (entries.map (CacheEntry.stamp key now)) (Recency.promote key item pairs) := by
  rcases h with ⟨hkeys, sorted, hperm, hlater, rfl⟩
  have hkeys' : (sorted.map (·.key)).Nodup := (hperm.map _).nodup_iff.mpr hkeys
  refine ⟨by rwa [map_key_stamp], ?_⟩
  rw [find?_map_pair, Option.map_eq_some_iff] at hfind
  rcases hfind with ⟨e, hfind, rfl⟩
  rcases (find?_key_eq_some_iff hkeys').mp hfind with ⟨he, hkey⟩
  -- The entry of the key stands between others, none of which has its key.
  rcases List.append_of_mem he with ⟨front, back, rfl⟩
  have hothers : ∀ f ∈ front ++ back, f.key ≠ key := by
    intro f hf heq
    rw [List.map_append, List.map_cons, List.nodup_middle, ← List.map_append] at hkeys'
    exact (List.nodup_cons.mp hkeys').1 (List.mem_map.mpr ⟨f, hf, heq.trans hkey.symm⟩)
  have hperm' : (e :: (front ++ back)).Perm entries := List.perm_middle.symm.trans hperm
  refine ⟨e.stamp key now :: (front ++ back), ?_, ?_, ?_⟩
  · have hmap := hperm'.map (CacheEntry.stamp key now)
    rwa [List.map_cons, map_stamp_of_absent hothers] at hmap
  · have huse : (e.stamp key now).lastUsed = now := by rw [CacheEntry.stamp, if_pos hkey]
    have hsub : (front ++ back).Sublist (front ++ e :: back) :=
      (List.sublist_cons_self e back).append_left front
    refine List.pairwise_cons.mpr ⟨fun f hf => ?_, hlater.sublist hsub⟩
    rw [CacheEntry.Later, huse]
    exact hnow f (hperm'.subset (List.mem_cons_of_mem e hf))
  · exact (promote_map_pair hkey hothers now).symm

/-- A new entry, used later than all others, comes to the front. -/
theorem Arranged.cons {entries : List (CacheEntry κ α)} {pairs : List (κ × α)}
    (h : Arranged entries pairs) {now : Nat} (hnow : ∀ e ∈ entries, e.lastUsed < now) {key : κ}
    (habsent : Recency.find? key pairs = none) (item : α) :
    Arranged (⟨key, item, now⟩ :: entries) ((key, item) :: pairs) := by
  have hfind := h.find?_eq key
  rw [habsent, Option.map_eq_none_iff, List.find?_eq_none] at hfind
  rcases h with ⟨hkeys, sorted, hperm, hlater, rfl⟩
  refine ⟨?_, ⟨key, item, now⟩ :: sorted, hperm.cons _, ?_, rfl⟩
  · rw [List.map_cons, List.nodup_cons, List.mem_map]
    refine ⟨?_, hkeys⟩
    rintro ⟨e, he, hkey⟩
    exact hfind e he (decide_eq_true hkey)
  · exact List.pairwise_cons.mpr ⟨fun e he => hnow e (hperm.subset he), hlater⟩

end

theorem length_shrinkTo (most : Nat) (entries : List (CacheEntry κ α)) :
    (Cache.shrinkTo most entries).length = min most entries.length := by
  fun_induction Cache.shrinkTo most entries with
  | case1 entries hle => omega
  | case2 entries hlt ih =>
      rw [ih, Cache.length_dropStalest]
      omega

/-- Making room takes one turn for each entry that is too many. -/
theorem shrinkTo_eq_iterate (most : Nat) (entries : List (CacheEntry κ α)) :
    Cache.shrinkTo most entries = Cache.dropStalest^[entries.length - most] entries := by
  fun_induction Cache.shrinkTo most entries with
  | case1 entries hle =>
      rw [Nat.sub_eq_zero_of_le hle]
      rfl
  | case2 entries hlt ih =>
      have hturns : entries.length - most = (entries.length - 1 - most) + 1 := by omega
      rw [ih, Cache.length_dropStalest, hturns, Function.iterate_succ_apply]

/-- Where no two entries were used at the same time, one of them is the stalest, every other one
    was used later, and it is the one that goes. -/
theorem exists_victim {entries : List (CacheEntry κ α)} (hne : entries ≠ [])
    (huses : entries.Pairwise fun e f => e.lastUsed ≠ f.lastUsed) :
    ∃ victim, entries.Perm (victim :: Cache.dropStalest entries) ∧
      ∀ e ∈ Cache.dropStalest entries, victim.lastUsed < e.lastUsed := by
  have hstalest : ∃ t, Cache.earliestUse entries = some t := by
    rw [← Option.isSome_iff_exists, Option.isSome_iff_ne_none, Cache.earliestUse, ne_eq,
      List.min?_eq_none_iff, List.map_eq_nil_iff]
    exact hne
  rcases hstalest with ⟨t, ht⟩
  rcases Cache.earliestUse_eq_some_iff.mp ht with ⟨⟨e, he, hte⟩, hleast⟩
  rcases @List.exists_of_eraseP _ (·.lastUsed == t) _ _ he (beq_iff_eq.mpr hte) with
    ⟨victim, front, back, _, hvictim, hentries, hdrop⟩
  -- What goes is the first entry with the least time, and no other one has this time.
  have hdrop' : Cache.dropStalest entries = front ++ back := by
    rw [Cache.dropStalest, ht]
    exact hdrop
  have hperm : entries.Perm (victim :: Cache.dropStalest entries) := by
    rw [hdrop']
    conv => lhs; rw [hentries]
    exact List.perm_middle
  have huses' := hperm.pairwise huses fun hef => hef.symm
  refine ⟨victim, hperm, fun f hf => ?_⟩
  have hf' : f ∈ entries := hperm.mem_iff.mpr (List.mem_cons_of_mem victim hf)
  have hle : victim.lastUsed ≤ f.lastUsed := by
    rw [beq_iff_eq.mp hvictim]
    exact hleast f hf'
  exact Nat.lt_of_le_of_ne hle ((List.pairwise_cons.mp huses').1 f hf)

/-- Making room for one entry takes the last one off the list. -/
theorem Arranged.dropStalest {entries : List (CacheEntry κ α)} {pairs : List (κ × α)}
    (h : Arranged entries pairs) :
    Arranged (Cache.dropStalest entries) pairs.dropLast := by
  by_cases hne : entries = []
  · subst hne
    have hpairs : pairs = [] := List.eq_nil_of_length_eq_zero h.length_eq.symm
    subst hpairs
    exact .nil
  rcases exists_victim hne h.pairwise_ne with ⟨victim, hvictim, hlater'⟩
  rcases h with ⟨hkeys, sorted, hperm, hlater, rfl⟩
  refine ⟨hkeys.sublist ((Cache.dropStalest_sublist entries).map _), ?_⟩
  rcases List.eq_nil_or_concat' sorted with rfl | ⟨front, last, rfl⟩
  · exact absurd hperm.nil_eq.symm hne
  -- Both the victim and the last entry of the list were used before all others.
  have heq : last = victim := by
    have hlast : last ∈ victim :: Cache.dropStalest entries :=
      (hperm.trans hvictim).subset (List.mem_append_right front List.mem_cons_self)
    have hback : victim ∈ front ++ [last] :=
      (hperm.trans hvictim).symm.subset List.mem_cons_self
    rcases List.mem_cons.mp hlast with heq | hlast
    · exact heq
    rcases List.mem_append.mp hback with hfront | hback
    · have h₁ := hlater' last hlast
      have h₂ := (List.pairwise_append.mp hlater).2.2 victim hfront last List.mem_cons_self
      exact absurd (Nat.lt_trans h₁ h₂) (Nat.lt_irrefl _)
    · exact (List.mem_singleton.mp hback).symm
  subst heq
  refine ⟨front, ?_, (List.pairwise_append.mp hlater).1, ?_⟩
  · have hcons := (List.perm_append_singleton last front).symm.trans (hperm.trans hvictim)
    exact (List.perm_cons last).mp hcons
  · rw [List.map_append, List.map_singleton, List.dropLast_concat]

/-- Making room for more than one entry does so until enough are gone. -/
theorem Arranged.shrinkTo (most : Nat) {entries : List (CacheEntry κ α)} {pairs : List (κ × α)}
    (h : Arranged entries pairs) :
    Arranged (Cache.shrinkTo most entries) (pairs.take most) := by
  fun_induction Cache.shrinkTo most entries generalizing pairs with
  | case1 entries hle =>
      rw [h.length_eq] at hle
      rwa [List.take_of_length_le hle]
  | case2 entries hlt ih =>
      have hdrop := ih h.dropStalest
      rw [h.length_eq] at hlt
      rwa [List.dropLast_eq_take, List.take_take, Nat.min_eq_left (by omega)] at hdrop

/-- A cache stands for a recency list. -/
structure Mirrors (c : Cache κ α) (l : Recency κ α) : Prop where
  capacity : c.capacity = l.capacity
  arranged : Arranged c.entries l.pairs
  past : ∀ e ∈ c.entries, e.lastUsed ≤ c.time
  idle : c.capacity = 0 → c.entries = []

theorem Mirrors.lt_time_succ {c : Cache κ α} {l : Recency κ α} (h : Mirrors c l) :
    ∀ e ∈ c.entries, e.lastUsed < c.time + 1 :=
  fun e he => Nat.lt_succ_of_le (h.past e he)

theorem Mirrors.empty {c : Cache κ α} {l : Recency κ α} (hcapacity : c.capacity = l.capacity)
    (hentries : c.entries = []) (hpairs : l.pairs = []) : Mirrors c l where
  capacity := hcapacity
  arranged := by
    rw [hentries, hpairs]
    exact .nil
  past := by
    rw [hentries]
    intro e he
    cases he
  idle := fun _ => hentries

theorem mirrors_resize {c : Cache κ α} {l : Recency κ α} (h : Mirrors c l) (capacity : Nat) :
    Mirrors (c.resize capacity) (l.resize capacity) := by
  by_cases hzero : capacity = 0
  · exact .empty rfl (if_pos hzero) (if_pos hzero)
  · unfold Cache.resize Recency.resize
    simp only [if_neg hzero]
    exact ⟨rfl, h.arranged, h.past, fun hzero' => absurd hzero' hzero⟩

variable [DecidableEq κ]

theorem Mirrors.find?_eq {c : Cache κ α} {l : Recency κ α} (h : Mirrors c l) (key : κ) :
    c.find? key = Recency.find? key l.pairs :=
  h.arranged.find?_eq key

theorem use_entries (c : Cache κ α) (key : κ) :
    (c.use key).entries = c.entries.map (CacheEntry.stamp key (c.time + 1)) := rfl

/-- A use leaves no time in the future, whether or not there is an entry to be used. -/
theorem past_use {c : Cache κ α} (hpast : ∀ e ∈ c.entries, e.lastUsed ≤ c.time) (key : κ) :
    ∀ e ∈ (c.use key).entries, e.lastUsed ≤ (c.use key).time := by
  intro e he
  rw [use_entries, List.mem_map] at he
  rcases he with ⟨f, hf, rfl⟩
  rw [CacheEntry.stamp]
  split
  · exact Nat.le_refl _
  · exact Nat.le_succ_of_le (hpast f hf)

theorem Mirrors.use {c : Cache κ α} {l : Recency κ α} (h : Mirrors c l) {key : κ} {item : α}
    (hfind : Recency.find? key l.pairs = some item) :
    Mirrors (c.use key) { l with pairs := Recency.promote key item l.pairs } where
  capacity := h.capacity
  arranged := h.arranged.stamp h.lt_time_succ hfind
  past := past_use h.past key
  idle := by
    intro hzero
    rw [use_entries, h.idle hzero, List.map_nil]

theorem use_entries_of_absent {c : Cache κ α} {key : κ} (habsent : c.find? key = none) :
    (c.use key).entries = c.entries := by
  rw [Cache.find?, Option.map_eq_none_iff, List.find?_eq_none] at habsent
  rw [use_entries, map_stamp_of_absent]
  intro e he hkey
  exact habsent e he (decide_eq_true hkey)

/-- Looking for a key that is not there moves the clock and nothing else. -/
theorem Mirrors.use_of_absent {c : Cache κ α} {l : Recency κ α} (h : Mirrors c l) {key : κ}
    (hfind : Recency.find? key l.pairs = none) : Mirrors (c.use key) l := by
  have hentries := use_entries_of_absent ((h.find?_eq key).trans hfind)
  refine ⟨h.capacity, by rw [hentries]; exact h.arranged, past_use h.past key, fun hzero => ?_⟩
  rw [hentries]
  exact h.idle hzero

theorem find?_take_of_absent {key : κ} {pairs : List (κ × α)}
    (hfind : Recency.find? key pairs = none) (n : Nat) :
    Recency.find? key (pairs.take n) = none := by
  rw [Recency.find?, Option.map_eq_none_iff, List.find?_eq_none] at hfind ⊢
  exact fun x hx => hfind x (List.mem_of_mem_take hx)

theorem Mirrors.insert_absent {c : Cache κ α} {l : Recency κ α} (h : Mirrors c l) {key : κ}
    (hpos : c.capacity ≠ 0) (hfind : Recency.find? key l.pairs = none) (item : α) :
    Mirrors { c.use key with
        entries := ⟨key, item, c.time + 1⟩ :: Cache.shrinkTo (c.capacity - 1) (c.use key).entries }
      { l with pairs := (key, item) :: l.pairs.take (l.capacity - 1) } := by
  have hentries := use_entries_of_absent ((h.find?_eq key).trans hfind)
  have hsub := Cache.shrinkTo_sublist (c.capacity - 1) c.entries
  refine ⟨h.capacity, ?_, ?_, fun hzero => absurd hzero hpos⟩
  · rw [hentries, h.capacity]
    exact (h.arranged.shrinkTo _).cons
      (fun e he => h.lt_time_succ e ((Cache.shrinkTo_sublist _ _).subset he))
      (find?_take_of_absent hfind _) item
  · intro e he
    rw [hentries] at he
    rcases List.mem_cons.mp he with rfl | he
    · exact Nat.le_refl _
    · exact Nat.le_of_lt (h.lt_time_succ e (hsub.subset he))

theorem mirrors_get {c : Cache κ α} {l : Recency κ α} (h : Mirrors c l) (key : κ) :
    (c.get key).1 = (l.get key).1 ∧ Mirrors (c.get key).2 (l.get key).2 := by
  unfold Cache.get Recency.get
  rw [h.find?_eq key]
  cases hfind : Recency.find? key l.pairs with
  | none => exact ⟨rfl, h.use_of_absent hfind⟩
  | some item => exact ⟨rfl, h.use hfind⟩

theorem mirrors_insert {c : Cache κ α} {l : Recency κ α} (h : Mirrors c l) (key : κ) (item : α) :
    (c.insert key item).1 = (l.insert key item).1 ∧
      Mirrors (c.insert key item).2 (l.insert key item).2 := by
  unfold Recency.insert
  by_cases hzero : c.capacity = 0
  · rw [Cache.insert_of_no_capacity hzero, if_pos (h.capacity.symm.trans hzero)]
    exact ⟨rfl, h⟩
  · rw [if_neg fun hzero' => hzero (h.capacity.trans hzero')]
    cases hfind : Recency.find? key l.pairs with
    | none =>
        rw [Cache.insert_of_absent hzero ((h.find?_eq key).trans hfind)]
        exact ⟨rfl, h.insert_absent hzero hfind item⟩
    | some existing =>
        rw [Cache.insert_of_known hzero ((h.find?_eq key).trans hfind)]
        exact ⟨rfl, h.use hfind⟩

/-- One command has the same reply on both sides, and keeps them together. -/
theorem mirrors_perform {c : Cache κ α} {l : Recency κ α} (h : Mirrors c l)
    (command : Cache.Command κ α) :
    (c.perform command).1 = (l.perform command).1 ∧
      Mirrors (c.perform command).2 (l.perform command).2 := by
  cases command with
  | get key =>
      rcases mirrors_get h key with ⟨hreply, hmirrors⟩
      exact ⟨congrArg Cache.Reply.found hreply, hmirrors⟩
  | insert key item =>
      rcases mirrors_insert h key item with ⟨hreply, hmirrors⟩
      exact ⟨congrArg Cache.Reply.kept hreply, hmirrors⟩
  | clear => exact ⟨rfl, .empty h.capacity rfl rfl⟩
  | resize capacity => exact ⟨rfl, mirrors_resize h capacity⟩

theorem mirrors_new (κ : Type u) (α : Type v) (capacity : Nat) :
    Mirrors (Cache.new κ α capacity) (Recency.new κ α capacity) :=
  .empty rfl rfl rfl

theorem Mirrors.trace_eq {c : Cache κ α} {l : Recency κ α} (h : Mirrors c l)
    (commands : List (Cache.Command κ α)) : c.trace commands = l.trace commands := by
  induction commands generalizing c l with
  | nil => rfl
  | cons command rest ih =>
      rcases mirrors_perform h command with ⟨hreply, hmirrors⟩
      simp only [Cache.trace, Recency.trace, Cache.size]
      rw [hreply, hmirrors.arranged.length_eq, hmirrors.capacity, ih hmirrors]

/-- Whatever is done with a cache that stands for a recency list, it stands for one. -/
theorem Mirrors.exists_after {κ : Type u} {α : Type v} [DecidableEq κ] {c : Cache κ α}
    {l : Recency κ α} (h : Mirrors c l) (commands : List (Cache.Command κ α)) :
    ∃ l', Mirrors (c.after commands) l' := by
  induction commands generalizing c l with
  | nil => exact ⟨l, h⟩
  | cons command rest ih => exact ih (mirrors_perform h command).2

theorem exists_mirrors_after (κ : Type u) (α : Type v) [DecidableEq κ] (capacity : Nat)
    (commands : List (Cache.Command κ α)) :
    ∃ l, Mirrors ((Cache.new κ α capacity).after commands) l :=
  (mirrors_new κ α capacity).exists_after commands

theorem time_insert_le (c : Cache κ α) (key : κ) (item : α) :
    (c.insert key item).2.time ≤ c.time + 1 := by
  by_cases hzero : c.capacity = 0
  · rw [Cache.insert_of_no_capacity hzero]
    exact Nat.le_succ _
  · cases hfind : c.find? key with
    | none =>
        rw [Cache.insert_of_absent hzero hfind]
        exact Nat.le_refl _
    | some existing =>
        rw [Cache.insert_of_known hzero hfind]
        exact Nat.le_refl _

/-- The clock moves on by one at most, so that its readings count no more than the commands. -/
theorem time_perform_le (c : Cache κ α) (command : Cache.Command κ α) :
    (c.perform command).2.time ≤ c.time + 1 := by
  cases command with
  | get key => exact Nat.le_refl _
  | insert key item => exact time_insert_le c key item
  | clear => exact Nat.le_succ _
  | resize capacity => exact Nat.le_succ _

theorem time_after_le (c : Cache κ α) (commands : List (Cache.Command κ α)) :
    (c.after commands).time ≤ c.time + commands.length := by
  induction commands generalizing c with
  | nil => exact Nat.le_refl _
  | cons command rest ih =>
      have hrest := ih (c.perform command).2
      have hfirst := time_perform_le c command
      rw [List.length_cons]
      exact Nat.le_trans hrest (by omega)

/-- After an insertion there is room for it, even if there was much too little before. -/
theorem size_insert_le {c : Cache κ α} (hpos : 0 < c.capacity) {key : κ}
    (habsent : c.find? key = none) (item : α) : (c.insert key item).2.size ≤ c.capacity := by
  rw [Cache.insert_of_absent (Nat.ne_of_gt hpos) habsent, Cache.size, List.length_cons,
    length_shrinkTo]
  omega

/-- A cache is a recency list to all who use it: the replies, sizes and capacities along any
    commands are the same. Whatever the commands were, no two entries of the cache were last used
    at the same time, and none later than its clock says, which in turn counts no more than the
    commands. Of any of the entries, in any order, there is one that was used before all others,
    and this is the one that goes; the entries that go to make room are no more than needed. An
    insertion of a new key leaves no more entries than the capacity, and a cache without capacity
    has no entries at all. -/
theorem trace_eq_recency (capacity : Nat) (commands : List (Cache.Command κ α)) :
    (Cache.new κ α capacity).trace commands = (Recency.new κ α capacity).trace commands ∧
      let c := (Cache.new κ α capacity).after commands
      c.entries.Pairwise (fun e f => e.lastUsed ≠ f.lastUsed) ∧
      (∀ e ∈ c.entries, e.lastUsed ≤ c.time) ∧ c.time ≤ commands.length ∧
      (∀ entries, entries.Subperm c.entries → entries ≠ [] →
        ∃ victim, entries.Perm (victim :: Cache.dropStalest entries) ∧
          ∀ e ∈ Cache.dropStalest entries, victim.lastUsed < e.lastUsed) ∧
      (∀ most, Cache.shrinkTo most c.entries = Cache.dropStalest^[c.size - most] c.entries ∧
        (Cache.shrinkTo most c.entries).length = min most c.size) ∧
      (∀ key item, 0 < c.capacity → c.find? key = none →
        (c.insert key item).2.size ≤ c.capacity) ∧
      (c.capacity = 0 → c.entries = []) := by
  refine ⟨(mirrors_new κ α capacity).trace_eq commands, ?_⟩
  intro c
  rcases exists_mirrors_after κ α capacity commands with ⟨l, hl⟩
  -- All of it holds since the cache mirrors a list in which the order stands for the times.
  have huses : c.entries.Pairwise (fun e f => e.lastUsed ≠ f.lastUsed) := hl.arranged.pairwise_ne
  have htime := time_after_le (Cache.new κ α capacity) commands
  rw [Cache.new, Nat.zero_add] at htime
  refine ⟨huses, hl.past, htime, ?_, ?_, ?_, hl.idle⟩
  · intro entries hsub hne
    rcases hsub with ⟨picked, hperm, hpicked⟩
    refine exists_victim hne (hperm.pairwise ?_ fun hef => hef.symm)
    exact huses.sublist hpicked
  · exact fun most => ⟨shrinkTo_eq_iterate most c.entries, length_shrinkTo most c.entries⟩
  · exact fun key item hpos habsent => size_insert_le hpos habsent item

end Letterpress
