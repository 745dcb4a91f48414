import Letterpress.Proofs.Coherence
import Letterpress.Proofs.Recency
import Mathlib.Data.List.Dedup

/-!
# Retention

How long the cache of an engine keeps what it holds. An instance that a request was answered with
is what every later request with the same fingerprint is answered with, as long as there is room
for it and for the others: a cache of size `n` keeps it while fewer than `n` other fingerprints are
requested, however often and in whatever order, whether or not they can be compiled. A cache of
size zero keeps nothing, and every answer is an instance that was never seen before. A request may
bring a size of its own, which is no part of its fingerprint and is set before the cache is asked.
So one that brings the size zero is answered anew, even if its fingerprint was held until then.

For a recency list this is a matter of what stands in front of a key. Only requests for other keys
put something there, each key once, so there are never as many in front as there are other keys.
Room is made at the back, and the key is not among those that go. It does not matter that the list
may be longer than the capacity when it begins, or may shrink to it at the next insertion.

An engine does nothing with its cache but a few commands for each action: it may resize it, ask for
one fingerprint, and put one in. So its cache is a recency list as well, and what is said of
commands holds for actions. That instances differ is a matter of their numbers, which only grow.

## Main definitions

* `Recency.Holds`: An item is held, with nothing but some other keys in front of it.
* `Cache.Command.Spares`: A command asks for a key or one of the others, and leaves enough room.
* `Engine.Outcome`: What a request does to the cache and the numbers of an engine.
* `Engine.inForce`: The size that the cache has while a request is answered.
* `Engine.Action.keeps`: An action uses an engine, and asks for no smaller cache.
* `Engine.otherPrints`: The fingerprints that actions request besides one.
* `Engine.Answered`: An instance is what a request of a run was answered with.
* `Engine.Numbered`: What the cache holds was numbered before.

## Theorems

* `Recency.Holds.perform`, `Mirrors.holds_after`: Sparing commands do not lose an item.
* `Engine.outcome_compile`, `Engine.exists_after_perform`: What a request and what an action does.
* `Engine.exists_holds_compile`: What was answered is held, with nothing in front of it.
* `Engine.serial_lt_of_answered`: Instances are numbered one after another.
* `compile_retains`: What was answered once is answered again, and never with a cache of size zero.
* `compile_anew_without_room`: A request that brings the size zero is answered anew.
-/

namespace Letterpress

universe u v

section Recency

variable {κ : Type u} {α : Type v}

/-- The list holds an item, and in front of its key there are only some others. -/
def Recency.Holds (l : Recency κ α) (key : κ) (item : α) (others : List κ) : Prop :=
  ∃ front back, l.pairs = front ++ (key, item) :: back ∧ ∀ p ∈ front, p.1 ∈ others

/-- The command asks for a key or for one of the others, and leaves room for at least `n`. -/
def Cache.Command.Spares (key : κ) (others : List κ) (n : Nat) : Cache.Command κ α → Prop
  | .get k => k = key ∨ k ∈ others
  | .insert k _ => k = key ∨ k ∈ others
  | .clear => False
  | .resize capacity => n ≤ capacity

theorem Recency.Holds.mono {l : Recency κ α} {key : κ} {item : α} {others more : List κ}
    (h : l.Holds key item others) (hsub : others ⊆ more) : l.Holds key item more := by
  rcases h with ⟨front, back, hpairs, hfront⟩
  exact ⟨front, back, hpairs, fun p hp => hsub (hfront p hp)⟩

theorem Mirrors.nodup_keys {c : Cache κ α} {l : Recency κ α} (h : Mirrors c l) :
    (l.pairs.map (·.1)).Nodup := by
  rcases h.arranged with ⟨hkeys, sorted, hperm, _, hpairs⟩
  rw [← hpairs, List.map_map]
  exact (hperm.map _).nodup_iff.mpr hkeys

variable [DecidableEq κ] {l : Recency κ α} {key : κ} {item : α} {others : List κ}

theorem Recency.Holds.find?_eq (h : l.Holds key item others) (hkey : key ∉ others) :
    Recency.find? key l.pairs = some item := by
  rcases h with ⟨front, back, hpairs, hfront⟩
  have hnone : front.find? (·.1 = key) = none := by
    rw [List.find?_eq_none]
    intro p hp hp'
    have heq : p.1 = key := of_decide_eq_true hp'
    exact hkey (heq ▸ hfront p hp)
  rw [Recency.find?, hpairs, List.find?_append, hnone, Option.none_or,
    List.find?_cons_of_pos (by rw [decide_eq_true_iff])]
  rfl

theorem holds_promote_self (key : κ) (item : α) (l : Recency κ α) (others : List κ) :
    ({ l with pairs := Recency.promote key item l.pairs } : Recency κ α).Holds key item others :=
  ⟨[], l.pairs.filter (·.1 ≠ key), rfl, List.forall_mem_nil _⟩

/-- Moving another key to the front leaves it there. -/
theorem Recency.Holds.promote (h : l.Holds key item others) (hkey : key ∉ others) {k : κ}
    (hk : k ∈ others) (x : α) :
    ({ l with pairs := Recency.promote k x l.pairs } : Recency κ α).Holds key item others := by
  rcases h with ⟨front, back, hpairs, hfront⟩
  have hne : key ≠ k := fun heq => hkey (heq ▸ hk)
  refine ⟨(k, x) :: front.filter (·.1 ≠ k), back.filter (·.1 ≠ k), ?_, ?_⟩
  · simp only [Recency.promote, hpairs]
    rw [List.filter_append, List.filter_cons_of_pos (by rwa [decide_eq_true_iff]),
      List.cons_append]
  · refine List.forall_mem_cons.mpr ⟨hk, fun p hp => hfront p (List.mem_of_mem_filter hp)⟩

theorem Recency.Holds.get (h : l.Holds key item others) (hkey : key ∉ others) {k : κ}
    (hk : k = key ∨ k ∈ others) : (l.get k).2.Holds key item others := by
  unfold Recency.get
  rcases hk with rfl | hk
  · rw [h.find?_eq hkey]
    exact holds_promote_self k item l others
  · cases Recency.find? k l.pairs with
    | none => exact h
    | some x => exact h.promote hkey hk x

/-- A key that comes in takes the place of one of the others, so the item is kept if there is room
    for all of them. -/
theorem Recency.Holds.insert (h : l.Holds key item others) (hkey : key ∉ others)
    (hnodup : (l.pairs.map (·.1)).Nodup) (hroom : others.length < l.capacity) {k : κ}
    (hk : k = key ∨ k ∈ others) (x : α) : (l.insert k x).2.Holds key item others := by
  have hpos : l.capacity ≠ 0 := Nat.ne_of_gt (Nat.zero_lt_of_lt hroom)
  unfold Recency.insert
  rw [if_neg hpos]
  rcases hk with rfl | hk
  · rw [h.find?_eq hkey]
    exact holds_promote_self k item l others
  · cases hfind : Recency.find? k l.pairs with
    | some y => exact h.promote hkey hk y
    | none =>
        rcases h with ⟨front, back, hpairs, hfront⟩
        -- The new key and those in front are different, and all of them are among the others.
        have habsent : ∀ p ∈ l.pairs, p.1 ≠ k := by
          rw [Recency.find?, Option.map_eq_none_iff, List.find?_eq_none] at hfind
          intro p hp heq
          exact hfind p hp (decide_eq_true heq)
        have hkeys : (k :: front.map (·.1)).Nodup := by
          rw [hpairs, List.map_append] at hnodup
          refine List.nodup_cons.mpr ⟨?_, (List.nodup_append.mp hnodup).1⟩
          intro hmem
          rcases List.mem_map.mp hmem with ⟨p, hp, heq⟩
          exact habsent p (by rw [hpairs]; exact List.mem_append_left _ hp) heq
        have hsubset : (k :: front.map (·.1)) ⊆ others := by
          intro k' hk'
          rcases List.mem_cons.mp hk' with rfl | hk'
          · exact hk
          · rcases List.mem_map.mp hk' with ⟨p, hp, rfl⟩
            exact hfront p hp
        have hlength := (List.subperm_of_subset hkeys hsubset).length_le
        rw [List.length_cons, List.length_map] at hlength
        -- So there is room for all of them and for the key, which is not among those that go.
        have hshort : front.length ≤ l.capacity - 1 := by omega
        have hmore : l.capacity - 1 - front.length = l.capacity - 2 - front.length + 1 := by omega
        refine ⟨(k, x) :: front, back.take (l.capacity - 2 - front.length), ?_, ?_⟩
        · simp only [hpairs]
          rw [List.take_append, List.take_of_length_le hshort, hmore, List.take_succ_cons,
            List.cons_append]
        · exact List.forall_mem_cons.mpr ⟨hk, hfront⟩

theorem capacity_get (l : Recency κ α) (k : κ) : (l.get k).2.capacity = l.capacity := by
  unfold Recency.get
  cases Recency.find? k l.pairs <;> rfl

theorem capacity_insert (l : Recency κ α) (k : κ) (x : α) :
    (l.insert k x).2.capacity = l.capacity := by
  unfold Recency.insert
  split
  · rfl
  · cases Recency.find? k l.pairs <;> rfl

/-- One command that spares the key does not lose its item. -/
theorem Recency.Holds.perform (h : l.Holds key item others) (hkey : key ∉ others)
    (hnodup : (l.pairs.map (·.1)).Nodup) {n : Nat} (hothers : others.length < n)
    (hn : n ≤ l.capacity) {command : Cache.Command κ α} (hspares : command.Spares key others n) :
    (l.perform command).2.Holds key item others ∧ n ≤ (l.perform command).2.capacity := by
  cases command with
  | get k =>
      refine ⟨h.get hkey hspares, ?_⟩
      simp only [Recency.perform, capacity_get]
      exact hn
  | insert k x =>
      refine ⟨h.insert hkey hnodup (Nat.lt_of_lt_of_le hothers hn) hspares x, ?_⟩
      simp only [Recency.perform, capacity_insert]
      exact hn
  | clear => exact absurd hspares id
  | resize capacity =>
      have hle : n ≤ capacity := hspares
      have hpos : capacity ≠ 0 := by omega
      refine ⟨?_, hle⟩
      simp only [Recency.perform, Recency.resize, if_neg hpos]
      exact h

/-- Any number of such commands does not. -/
theorem Mirrors.holds_after {c : Cache κ α} (h : Mirrors c l) (hholds : l.Holds key item others)
    (hkey : key ∉ others) {n : Nat} (hothers : others.length < n) (hn : n ≤ l.capacity)
    {commands : List (Cache.Command κ α)}
    (hspares : ∀ command ∈ commands, command.Spares key others n) :
    ∃ l', Mirrors (c.after commands) l' ∧ l'.Holds key item others ∧ n ≤ l'.capacity := by
  induction commands generalizing c l with
  | nil => exact ⟨l, h, hholds, hn⟩
  | cons command rest ih =>
      rcases hholds.perform hkey h.nodup_keys hothers hn (hspares command List.mem_cons_self) with
        ⟨hholds', hn'⟩
      exact ih (mirrors_perform h command).2 hholds' hn'
        fun other hother => hspares other (List.mem_cons_of_mem _ hother)

end Recency

/-- The command is one of those that answer a request. -/
def Cache.Command.Serves (source : String) (options : Options) :
    Cache.Command Fingerprint Instance → Prop
  | .get key => key = Fingerprint.of source options
  | .insert key _ => key = Fingerprint.of source options
  | .clear => False
  | .resize capacity => options.cacheSize = some capacity

namespace Engine

/-- The size that the cache has while a request with these options is answered. -/
def inForce (e : Engine) (options : Options) : Nat := (e.fitCache options).cache.capacity

theorem inForce_of_cacheSize (e : Engine) {options : Options} {n : Nat}
    (h : options.cacheSize = some n) : e.inForce options = n := by
  unfold inForce fitCache
  simp only [h]
  split
  · next heq => exact heq
  · rfl

namespace Action

/-- The action compiles, renders or analyses. It changes neither templates nor plugins, and does
    not empty the cache. -/
def isUse : Action → Bool
  | .compile .. => true
  | .render .. => true
  | .renderWaiting .. => true
  | .analyze .. => true
  | _ => false

/-- The action uses an engine, and asks for no cache that is smaller than `n`. -/
def keeps (n : Nat) (a : Action) : Bool :=
  a.isUse && a.request?.all fun request => request.2.cacheSize.all (n ≤ ·)

theorem le_of_keeps {n : Nat} {a : Action} (h : a.keeps n = true) {source : String}
    {options : Options} (hrequest : a.request? = some (source, options)) {size : Nat}
    (hsize : options.cacheSize = some size) : n ≤ size := by
  have hall := (Bool.and_eq_true_iff.mp h).2
  rw [hrequest, Option.all_some, hsize, Option.all_some] at hall
  exact of_decide_eq_true hall

/-- The fingerprint of what an action compiles. -/
def fingerprint? (a : Action) : Option Fingerprint :=
  a.request?.map fun request => Fingerprint.of request.1 request.2

end Action

/-- The fingerprints that actions request besides one, each of them once. -/
def otherPrints (key : Fingerprint) (actions : List Action) : List Fingerprint :=
  ((actions.filterMap Action.fingerprint?).filter (· ≠ key)).dedup

theorem after_append (c : Cache Fingerprint Instance)
    (commands others : List (Cache.Command Fingerprint Instance)) :
    c.after (commands ++ others) = (c.after commands).after others :=
  List.foldl_append

/-- Fitting the cache is one command, or none. -/
theorem exists_after_fitCache (e : Engine) (source : String) (options : Options) :
    ∃ commands, (e.fitCache options).cache = e.cache.after commands ∧
      ∀ command ∈ commands, command.Serves source options := by
  unfold fitCache
  cases hsize : options.cacheSize with
  | none => exact ⟨[], rfl, List.forall_mem_nil _⟩
  | some size =>
      simp only []
      split
      · exact ⟨[], rfl, List.forall_mem_nil _⟩
      · exact ⟨[.resize size], rfl, List.forall_mem_singleton.mpr hsize⟩

theorem exists_after_asked (e : Engine) (source : String) (options : Options) :
    ∃ commands, (e.asked source options).cache = e.cache.after commands ∧
      ∀ command ∈ commands, command.Serves source options := by
  rcases exists_after_fitCache e source options with ⟨commands, hcache, hserves⟩
  refine ⟨commands ++ [.get (Fingerprint.of source options)], ?_, ?_⟩
  · rw [after_append, ← hcache]
    rfl
  · exact List.forall_mem_append.mpr ⟨hserves, List.forall_mem_singleton.mpr rfl⟩

theorem nextSerial_fitCache (e : Engine) (options : Options) :
    (e.fitCache options).nextSerial = e.nextSerial := by
  unfold fitCache
  split
  · rfl
  · split
    · rfl
    · rfl

theorem nextSerial_planAnew (e : Engine) (source : String) (options : Options) :
    (e.planAnew source options).2.nextSerial = e.nextSerial := by
  unfold planAnew
  simp only []
  split
  · rfl
  · rfl

theorem nextSerial_asked (e : Engine) (source : String) (options : Options) :
    (e.asked source options).nextSerial = e.nextSerial :=
  nextSerial_fitCache e options

/-- What a request does to the cache and the numbers of an engine. Either the cache holds an
    instance already, or a plan is made, which may fail and leaves both alone. An instance with
    that plan is put into the cache and has the next number. -/
inductive Outcome (e : Engine) (source : String) (options : Options) :
    Except Fault Instance × Engine → Prop
  | hit {i : Instance}
      (hfind : (e.fitCache options).cache.find? (Fingerprint.of source options) = some i) :
      Outcome e source options (.ok i, e.asked source options)
  | fault {e' : Engine} {f : Fault}
      (hfind : (e.fitCache options).cache.find? (Fingerprint.of source options) = none)
      (hcache : e'.cache = (e.asked source options).cache)
      (hserial : e'.nextSerial = e.nextSerial) : Outcome e source options (.error f, e')
  | made {e' : Engine} {plan : Plan}
      (hfind : (e.fitCache options).cache.find? (Fingerprint.of source options) = none)
      (hcache : e'.cache = (e.asked source options).cache)
      (hserial : e'.nextSerial = e.nextSerial) : Outcome e source options
        (.ok (e'.cache.insert (Fingerprint.of source options) ⟨e'.nextSerial, plan⟩).1,
          { e' with
            cache := (e'.cache.insert (Fingerprint.of source options) ⟨e'.nextSerial, plan⟩).2
            nextSerial := e'.nextSerial + 1 })

theorem outcome_compile (e : Engine) (source : String) (options : Options) :
    e.Outcome source options (e.compile source options) := by
  cases hfind : (e.fitCache options).cache.find? (Fingerprint.of source options) with
  | some i =>
      rw [compile_of_hit hfind]
      exact .hit hfind
  | none =>
      have hcache := cache_planAnew (e.asked source options) source options
      have hserial := (nextSerial_planAnew (e.asked source options) source options).trans
        (nextSerial_asked e source options)
      rcases hplan : (e.asked source options).planAnew source options with ⟨f | plan, e'⟩
      · rw [hplan] at hcache hserial
        rw [compile_of_fault hfind hplan]
        exact .fault hfind hcache hserial
      · rw [hplan] at hcache hserial
        rw [compile_of_plan hfind hplan]
        exact .made hfind hcache hserial

theorem exists_after_compile (e : Engine) (source : String) (options : Options) :
    ∃ commands, (e.compile source options).2.cache = e.cache.after commands ∧
      ∀ command ∈ commands, command.Serves source options := by
  rcases exists_after_asked e source options with ⟨commands, hasked, hserves⟩
  have hmade := outcome_compile e source options
  generalize e.compile source options = outcome at hmade ⊢
  cases hmade with
  | hit => exact ⟨commands, hasked, hserves⟩
  | fault _ hcache => exact ⟨commands, hcache.trans hasked, hserves⟩
  | @made e' plan _ hcache =>
      refine ⟨commands ++ [.insert (Fingerprint.of source options) ⟨e'.nextSerial, plan⟩], ?_, ?_⟩
      · rw [after_append, ← hasked, ← hcache]
        rfl
      · exact List.forall_mem_append.mpr ⟨hserves, List.forall_mem_singleton.mpr rfl⟩

/-- Where an action compiles something, the cache is as compiling leaves it. -/
theorem cache_perform_of_request (e : Engine) {a : Action} {source : String} {options : Options}
    (h : a.request? = some (source, options)) :
    (e.perform a).cache = (e.compile source options).2.cache := by
  cases a with
  | compile =>
      cases h
      rfl
  | render =>
      cases h
      rw [perform, render_eq, cache_finish]
  | renderWaiting =>
      cases h
      rw [perform, renderWaiting_eq, cache_finish]
  | _ => cases h

/-- What an action does to the cache: it answers a request, or empties the cache, or leaves it
    alone. -/
theorem exists_after_perform (e : Engine) (a : Action) :
    ∃ commands, (e.perform a).cache = e.cache.after commands ∧ ∀ command ∈ commands,
      (command = .clear ∧ a.isUse = false) ∨
        ∃ source options, a.request? = some (source, options) ∧ command.Serves source options := by
  have hanswers : ∀ source options, a.request? = some (source, options) → ∃ commands,
      (e.perform a).cache = e.cache.after commands ∧ ∀ command ∈ commands,
        (command = .clear ∧ a.isUse = false) ∨
          ∃ source options, a.request? = some (source, options) ∧
            command.Serves source options := by
    intro source options hrequest
    rcases exists_after_compile e source options with ⟨commands, hcache, hserves⟩
    refine ⟨commands, (cache_perform_of_request e hrequest).trans hcache, ?_⟩
    exact fun command hcommand => Or.inr ⟨source, options, hrequest, hserves command hcommand⟩
  cases a with
  | compile source options => exact hanswers source options rfl
  | render source context options => exact hanswers source options rfl
  | renderWaiting source context options => exact hanswers source options rfl
  | analyze source options sample => exact ⟨[], rfl, List.forall_mem_nil _⟩
  | _ => exact ⟨[.clear], rfl, List.forall_mem_singleton.mpr (Or.inl ⟨rfl, rfl⟩)⟩

theorem exists_mirrors_of_isNew {e : Engine} (h : e.IsNew) : ∃ l, Mirrors e.cache l := by
  rcases h with rfl | ⟨settings, rfl⟩
  · exact ⟨_, mirrors_new Fingerprint Instance _⟩
  · exact ⟨_, mirrors_new Fingerprint Instance _⟩

/-- In any run the cache stays a recency list. -/
theorem exists_mirrors_run {e : Engine} {l : Recency Fingerprint Instance}
    (h : Mirrors e.cache l) (actions : List Action) : ∃ l', Mirrors (e.run actions).cache l' := by
  induction actions generalizing e l with
  | nil => exact ⟨l, h⟩
  | cons a rest ih =>
      rcases exists_after_perform e a with ⟨commands, hcache, _⟩
      rcases h.exists_after commands with ⟨l', hl'⟩
      rw [← hcache] at hl'
      exact ih hl'

theorem exists_mirrors_fitCache {e : Engine} {l : Recency Fingerprint Instance}
    (h : Mirrors e.cache l) (options : Options) : ∃ l', Mirrors (e.fitCache options).cache l' := by
  rcases exists_after_fitCache e "" options with ⟨commands, hcache, _⟩
  rcases h.exists_after commands with ⟨l', hl'⟩
  rw [← hcache] at hl'
  exact ⟨l', hl'⟩

/-- What a request is answered with is held, with nothing in front of it. -/
theorem exists_holds_compile {e : Engine} {l : Recency Fingerprint Instance}
    (h : Mirrors e.cache l) {source : String} {options : Options} {i : Instance}
    (hpos : e.inForce options ≠ 0) (hok : (e.compile source options).1 = .ok i) :
    ∃ l', Mirrors (e.compile source options).2.cache l' ∧ l'.capacity = e.inForce options ∧
      l'.Holds (Fingerprint.of source options) i [] := by
  rcases exists_mirrors_fitCache h options with ⟨l₀, hl₀⟩
  have hmade := outcome_compile e source options
  generalize e.compile source options = outcome at hmade hok ⊢
  cases hmade with
  | hit hfind =>
      cases hok
      rw [hl₀.find?_eq] at hfind
      exact ⟨_, hl₀.use hfind, hl₀.capacity.symm, holds_promote_self _ _ _ _⟩
  | fault => cases hok
  -- A new instance comes in at the front, as there is room for at least one.
  | @made e' plan hfind hcache =>
      rw [hl₀.find?_eq] at hfind
      have hasked : Mirrors e'.cache l₀ := by
        rw [hcache]
        exact hl₀.use_of_absent hfind
      have hpos' : e'.cache.capacity ≠ 0 := by
        rw [hasked.capacity, ← hl₀.capacity]
        exact hpos
      have hfind' := (hasked.find?_eq _).trans hfind
      simp only [Cache.insert_of_absent hpos' hfind'] at hok ⊢
      cases hok
      refine ⟨_, hasked.insert_absent hpos' hfind _, hl₀.capacity.symm, ?_⟩
      exact ⟨[], _, rfl, List.forall_mem_nil _⟩

theorem mem_otherPrints_or_eq {key : Fingerprint} {actions : List Action} {a : Action}
    (ha : a ∈ actions) {source : String} {options : Options}
    (hrequest : a.request? = some (source, options)) :
    Fingerprint.of source options = key ∨
      Fingerprint.of source options ∈ otherPrints key actions := by
  by_cases hkey : Fingerprint.of source options = key
  · exact Or.inl hkey
  · refine Or.inr (List.mem_dedup.mpr (List.mem_filter.mpr ⟨?_, decide_eq_true hkey⟩))
    refine List.mem_filterMap.mpr ⟨a, ha, ?_⟩
    rw [Action.fingerprint?, hrequest]
    rfl

theorem not_mem_otherPrints (key : Fingerprint) (actions : List Action) :
    key ∉ otherPrints key actions := by
  intro hmem
  have hne := (List.mem_filter.mp (List.mem_dedup.mp hmem)).2
  exact of_decide_eq_true hne rfl

/-- A command that answers a request spares a key if the request asks for that key or for one of
    the others, and for no cache that is too small. -/
theorem spares_of_serves {key : Fingerprint} {others : List Fingerprint} {n : Nat}
    {source : String} {options : Options} {command : Cache.Command Fingerprint Instance}
    (hprint : Fingerprint.of source options = key ∨ Fingerprint.of source options ∈ others)
    (hsize : ∀ size, options.cacheSize = some size → n ≤ size)
    (h : command.Serves source options) : command.Spares key others n := by
  cases command with
  | get k =>
      have hk : k = Fingerprint.of source options := h
      rw [← hk] at hprint
      exact hprint
  | insert k x =>
      have hk : k = Fingerprint.of source options := h
      rw [← hk] at hprint
      exact hprint
  | clear => exact absurd h id
  | resize capacity => exact hsize capacity h

/-- An item is held during a run that leaves enough room for it and the others. -/
theorem exists_holds_run {e : Engine} {l : Recency Fingerprint Instance} (h : Mirrors e.cache l)
    {key : Fingerprint} {i : Instance} {others : List Fingerprint}
    (hholds : l.Holds key i others) (hkey : key ∉ others) {n : Nat} (hothers : others.length < n)
    (hn : n ≤ l.capacity) {actions : List Action} (hkeeps : ∀ a ∈ actions, a.keeps n = true)
    (hprints : ∀ a ∈ actions, ∀ source options, a.request? = some (source, options) →
      Fingerprint.of source options = key ∨ Fingerprint.of source options ∈ others) :
    ∃ l', Mirrors (e.run actions).cache l' ∧ l'.Holds key i others ∧ n ≤ l'.capacity := by
  induction actions generalizing e l with
  | nil => exact ⟨l, h, hholds, hn⟩
  | cons a rest ih =>
      rcases exists_after_perform e a with ⟨commands, hcache, hcommands⟩
      -- An action is a few commands to the cache, and all of them spare the key.
      have hspares : ∀ command ∈ commands, command.Spares key others n := by
        intro command hcommand
        have hkeep := hkeeps a List.mem_cons_self
        rcases hcommands command hcommand with ⟨_, hnot⟩ | ⟨source, options, hrequest, hserves⟩
        · rw [Action.keeps, hnot] at hkeep
          cases hkeep
        · exact spares_of_serves (hprints a List.mem_cons_self _ _ hrequest)
            (fun size => Action.le_of_keeps hkeep hrequest) hserves
      rcases h.holds_after hholds hkey hothers hn hspares with ⟨l', hl', hholds', hn'⟩
      rw [← hcache] at hl'
      exact ih hl' hholds' hn' (fun b hb => hkeeps b (List.mem_cons_of_mem _ hb))
        fun b hb => hprints b (List.mem_cons_of_mem _ hb)

/-- Fitting the cache to any size but zero loses nothing. -/
theorem find?_fitCache {e : Engine} {options : Options} (hpos : e.inForce options ≠ 0)
    (key : Fingerprint) : (e.fitCache options).cache.find? key = e.cache.find? key := by
  unfold inForce at hpos
  unfold fitCache at hpos ⊢
  cases hsize : options.cacheSize with
  | none => rfl
  | some size =>
      simp only [hsize] at hpos ⊢
      split
      · rfl
      · next hother =>
          rw [if_neg hother] at hpos
          have hsize' : size ≠ 0 := hpos
          simp only [Cache.find?, Cache.resize, if_neg hsize']

theorem compile_of_holds {e : Engine} {l : Recency Fingerprint Instance} (h : Mirrors e.cache l)
    {key : Fingerprint} {i : Instance} {others : List Fingerprint}
    (hholds : l.Holds key i others) (hkey : key ∉ others) {source : String} {options : Options}
    (hprint : Fingerprint.of source options = key) (hpos : e.inForce options ≠ 0) :
    (e.compile source options).1 = .ok i := by
  have hfind : (e.fitCache options).cache.find? (Fingerprint.of source options) = some i := by
    rw [find?_fitCache hpos, h.find?_eq, hprint, hholds.find?_eq hkey]
  rw [compile_of_hit hfind]

/-- Everything in the cache was numbered before. -/
def Numbered (e : Engine) : Prop := ∀ entry ∈ e.cache.entries, entry.item.serial < e.nextSerial

/-- The instance is what one of the requests of a run was answered with. -/
def Answered (e : Engine) (actions : List Action) (i : Instance) : Prop :=
  ∃ before a after source options, actions = before ++ a :: after ∧
    a.request? = some (source, options) ∧ ((e.run before).compile source options).1 = .ok i

theorem nextSerial_finish (e : Engine) (output : Except Fault String) (options : Options) :
    (e.finish output options).2.nextSerial = e.nextSerial := by
  unfold finish
  split
  · rfl
  · rfl

theorem numbered_fitCache {e : Engine} (h : e.Numbered) (options : Options) :
    (e.fitCache options).Numbered := by
  unfold fitCache
  split
  · exact h
  · split
    · exact h
    · exact fun entry hentry => h entry (Cache.mem_of_mem_resize hentry)

theorem numbered_asked {e : Engine} (h : e.Numbered) (source : String) (options : Options) :
    (e.asked source options).Numbered := by
  intro entry hentry
  rcases Cache.mem_of_mem_use hentry with ⟨old, hold, _, hitem⟩
  rw [← hitem]
  exact numbered_fitCache h options old hold

/-- Compiling numbers what it answers with, if that has no number yet. -/
theorem numbered_compile {e : Engine} (h : e.Numbered) (source : String) (options : Options) :
    (e.compile source options).2.Numbered ∧
      e.nextSerial ≤ (e.compile source options).2.nextSerial ∧
      ∀ i, (e.compile source options).1 = .ok i →
        i.serial < (e.compile source options).2.nextSerial := by
  have hasked := numbered_asked h source options
  -- A request that makes nothing leaves what is numbered as it was.
  have hsame : ∀ {e' : Engine}, e'.cache = (e.asked source options).cache →
      e'.nextSerial = e.nextSerial → e'.Numbered := by
    intro e' hcache hserial entry hentry
    rw [hcache] at hentry
    rw [hserial, ← nextSerial_asked e source options]
    exact hasked entry hentry
  have hmade := outcome_compile e source options
  generalize e.compile source options = outcome at hmade ⊢
  cases hmade with
  | hit hfind =>
      rcases Cache.mem_of_find? hfind with ⟨entry, hentry, _, hitem⟩
      refine ⟨hasked, Nat.le_of_eq (nextSerial_asked e source options).symm, ?_⟩
      rintro i hi
      cases hi
      rw [← hitem]
      exact numbered_fitCache h options entry hentry
  | fault _ hcache hserial =>
      refine ⟨hsame hcache hserial, Nat.le_of_eq hserial.symm, ?_⟩
      rintro i hi
      cases hi
  | @made e' plan _ hcache hserial =>
      have hold : e'.Numbered := hsame hcache hserial
      refine ⟨?_, hserial ▸ Nat.le_succ _, ?_⟩
      · intro entry hentry
        rcases Cache.mem_of_mem_insert hentry with ⟨old, hmem, _, hitem⟩ | ⟨_, hitem⟩
        · rw [← hitem]
          exact Nat.lt_succ_of_lt (hold old hmem)
        · rw [hitem]
          exact Nat.lt_succ_self _
      · intro i hi
        rw [← Except.ok.inj hi]
        rcases Cache.insert_fst e'.cache (Fingerprint.of source options)
          ⟨e'.nextSerial, plan⟩ with hnew | ⟨entry, hentry, _, hitem⟩
        · rw [hnew]
          exact Nat.lt_succ_self _
        · rw [← hitem]
          exact Nat.lt_succ_of_lt (hold entry hentry)

theorem nextSerial_perform_of_request (e : Engine) {a : Action} {source : String}
    {options : Options} (h : a.request? = some (source, options)) :
    (e.perform a).nextSerial = (e.compile source options).2.nextSerial := by
  cases a with
  | compile =>
      cases h
      rfl
  | render =>
      cases h
      rw [perform, render_eq, nextSerial_finish]
  | renderWaiting =>
      cases h
      rw [perform, renderWaiting_eq, nextSerial_finish]
  | _ => cases h

theorem numbered_perform {e : Engine} (h : e.Numbered) (a : Action) :
    (e.perform a).Numbered ∧ e.nextSerial ≤ (e.perform a).nextSerial := by
  have hanswers : ∀ source options, a.request? = some (source, options) →
      (e.perform a).Numbered ∧ e.nextSerial ≤ (e.perform a).nextSerial := by
    intro source options hrequest
    rcases numbered_compile h source options with ⟨hnumbered, hle, _⟩
    rw [Numbered, cache_perform_of_request e hrequest, nextSerial_perform_of_request e hrequest]
    exact ⟨hnumbered, hle⟩
  cases a with
  | compile source options => exact hanswers source options rfl
  | render source context options => exact hanswers source options rfl
  | renderWaiting source context options => exact hanswers source options rfl
  | analyze source options sample => exact ⟨h, Nat.le_refl _⟩
  | _ => exact ⟨List.forall_mem_nil _, Nat.le_refl _⟩

theorem numbered_run {e : Engine} (h : e.Numbered) (actions : List Action) :
    (e.run actions).Numbered ∧ e.nextSerial ≤ (e.run actions).nextSerial := by
  induction actions generalizing e with
  | nil => exact ⟨h, Nat.le_refl _⟩
  | cons a rest ih =>
      rcases numbered_perform h a with ⟨hfirst, hle⟩
      rcases ih hfirst with ⟨hnumbered, hle'⟩
      exact ⟨hnumbered, Nat.le_trans hle hle'⟩

theorem numbered_of_isNew {e : Engine} (h : e.IsNew) : e.Numbered := by
  rcases h with rfl | ⟨settings, rfl⟩
  · exact List.forall_mem_nil _
  · exact List.forall_mem_nil _

theorem run_append (e : Engine) (actions others : List Action) :
    e.run (actions ++ others) = (e.run actions).run others :=
  List.foldl_append

/-- Instances are numbered one after another, so all that were seen have smaller numbers than the
    next one. -/
theorem serial_lt_of_answered {e : Engine} (h : e.Numbered) {actions : List Action} {i : Instance}
    (hanswered : e.Answered actions i) : i.serial < (e.run actions).nextSerial := by
  rcases hanswered with ⟨before, a, after, source, options, rfl, hrequest, hok⟩
  have hbefore := (numbered_run h before).1
  have hcompiled := (numbered_compile hbefore source options).2.2 i hok
  rw [← nextSerial_perform_of_request _ hrequest] at hcompiled
  have hafter := (numbered_run (numbered_perform hbefore a).1 after).2
  rw [run_append]
  exact Nat.lt_of_lt_of_le hcompiled hafter

/-- A cache of size zero has no part in an answer, which is numbered next. -/
theorem serial_eq_of_inForce_zero {e : Engine} {l : Recency Fingerprint Instance}
    (h : Mirrors e.cache l) {source : String} {options : Options} (hzero : e.inForce options = 0)
    {i : Instance} (hok : (e.compile source options).1 = .ok i) : i.serial = e.nextSerial := by
  rcases exists_mirrors_fitCache h options with ⟨l₀, hl₀⟩
  have hempty := hl₀.idle hzero
  have hmade := outcome_compile e source options
  generalize e.compile source options = outcome at hmade hok
  cases hmade with
  | hit hfind =>
      -- There is nothing in the cache that could be found.
      rw [Cache.find?, hempty] at hfind
      cases hfind
  | fault => cases hok
  | @made e' plan _ hcache hserial =>
      have hzero' : e'.cache.capacity = 0 := by
        rw [hcache]
        exact hzero
      simp only [Cache.insert_of_no_capacity hzero'] at hok
      cases hok
      exact hserial

/-- So an answer that the cache has no part in differs from all answers before. -/
theorem serial_ne_of_inForce_zero {start : Engine} (hstart : start.IsNew) (history : List Action)
    {source : String} {options : Options} (hzero : (start.run history).inForce options = 0)
    {i j : Instance} (hok : ((start.run history).compile source options).1 = .ok i)
    (hanswered : start.Answered history j) : j.serial ≠ i.serial := by
  rcases exists_mirrors_of_isNew hstart with ⟨l₀, hl₀⟩
  rcases exists_mirrors_run hl₀ history with ⟨l, hl⟩
  have hj := serial_lt_of_answered (numbered_of_isNew hstart) hanswered
  rw [serial_eq_of_inForce_zero hl hzero hok]
  exact Nat.ne_of_lt hj

/-- An engine without templates and plugins compiles a letter, whatever its cache holds. -/
theorem exists_compile_letter {e : Engine} (h : e.rested = ({} : Engine).rested)
    (options : Options) : ∃ i, (e.compile "a" options).1 = .ok i := by
  cases hfind : (e.fitCache options).cache.find? (Fingerprint.of "a" options) with
  | some i => exact ⟨i, congrArg Prod.fst (compile_of_hit hfind)⟩
  | none =>
      have hasked := (rested_asked e "a" options).trans h
      have hguests : (e.asked "a" options).host.guests = [] :=
        List.map_eq_nil_iff.mp (congrArg (·.host.guests) hasked)
      -- Nobody changes the source, and it reads as one text.
      have hpassed : ((e.asked "a" options).host.passSource "a" options).1 = .ok "a" := by
        rw [Host.passSource, hguests]
        rfl
      have hread : readTemplate "a" = .ok [.text "a" ⟨0, 1⟩] := by decide +kernel
      have hplanned := planAnew_fst (e.asked "a" options) "a" options
      rw [hpassed] at hplanned
      simp only [Except.bind, compileSource, Letterpress.compile, hread, expand] at hplanned
      rcases hplan : (e.asked "a" options).planAnew "a" options with ⟨made, e'⟩
      rw [hplan] at hplanned
      cases hplanned
      rw [compile_of_plan hfind hplan]
      exact ⟨_, rfl⟩

end Engine

/-- How long the cache of an engine keeps what it holds, after any run. An instance that a request
    was answered with while the cache had a size `n` other than zero is what later requests with
    the same fingerprint are answered with, as long as in between templates and plugins stay as
    they are, the cache is not emptied and not made smaller than `n`, and fewer than `n` other
    fingerprints are requested; whether or not these can be compiled does not matter, nor does how
    often they are requested. The size is no part of a fingerprint, so a later request may bring one
    of its own; with any size but zero it gets the same instance. Where the cache has size zero it
    is and stays empty, and an answer differs from all answers before. -/
theorem compile_retains {start : Engine} (hstart : start.IsNew) (history : List Engine.Action)
    (source : String) (options : Options) :
    let e := start.run history
    let next := (e.compile source options).2
    let key := Fingerprint.of source options
    (∀ i n, (e.compile source options).1 = .ok i → e.inForce options = n → 0 < n →
      ∀ later, (∀ a ∈ later, a.keeps n = true) → (Engine.otherPrints key later).length < n →
        ∀ source' options', Fingerprint.of source' options' = key →
          0 < (next.run later).inForce options' →
          ((next.run later).compile source' options').1 = .ok i) ∧
      (e.inForce options = 0 →
        (∀ later, (next.run later).cache.capacity = 0 → (next.run later).cache.isEmpty = true) ∧
          ∀ i, (e.compile source options).1 = .ok i →
            ∀ j, start.Answered history j → j.serial ≠ i.serial) := by
  intro e next key
  rcases Engine.exists_mirrors_of_isNew hstart with ⟨l₀, hl₀⟩
  rcases Engine.exists_mirrors_run hl₀ history with ⟨l, hl⟩
  refine ⟨?_, fun hzero => ⟨?_, ?_⟩⟩
  · intro i n hok hn hpos later hkeeps hothers source' options' hprint hforce
    have hkey := Engine.not_mem_otherPrints key later
    -- Right after its request nothing is in front of the key, later only some of the others.
    rcases Engine.exists_holds_compile hl (by rw [hn]; exact Nat.ne_of_gt hpos) hok with
      ⟨l₁, hl₁, hcapacity, hholds⟩
    rcases Engine.exists_holds_run hl₁ (hholds.mono (List.nil_subset _)) hkey hothers
      (Nat.le_of_eq (hcapacity.trans hn).symm) hkeeps
      (fun a ha s o hrequest => Engine.mem_otherPrints_or_eq ha hrequest) with ⟨l₂, hl₂, hholds', _⟩
    exact Engine.compile_of_holds hl₂ hholds' hkey hprint (Nat.ne_of_gt hforce)
  · intro later hcapacity
    -- The engine has got there in a run of its own.
    have hrun : next.run later = start.run (history ++ .compile source options :: later) := by
      rw [Engine.run_append]
      rfl
    rcases Engine.exists_mirrors_run hl₀ (history ++ .compile source options :: later) with
      ⟨l', hl'⟩
    rw [← hrun] at hl'
    rw [Cache.isEmpty, hl'.idle hcapacity]
    rfl
  · exact fun i hok j => Engine.serial_ne_of_inForce_zero hstart history hzero hok

/-- Requests for two other sources, one of which is no template. -/
def visits : List Engine.Action :=
  [.render "b" (.text "") {}, .compile "\x7b" {}, .analyze "b" {} none,
    .compile "b" { cacheSize := some 3 }]

/-- A cache of size three keeps an instance while one other fingerprint is requested, and a cache of
    size zero does not keep one from a request to the next. -/
theorem compile_retains_visits :
    let small : Options := { cacheSize := some 3 }
    let off : Options := { cacheSize := some 0 }
    let next := (({} : Engine).compile "a" small).2
    (∃ i, (({} : Engine).compile "a" small).1 = .ok i ∧
      ((next.run visits).compile "a" small).1 = .ok i) ∧
      ∃ j k, (({} : Engine).compile "a" off).1 = .ok j ∧
        ((({} : Engine).run [.compile "a" off]).compile "a" off).1 = .ok k ∧
        j.serial ≠ k.serial := by
  intro small off next
  rcases Engine.exists_compile_letter rfl small with ⟨i, hi⟩
  rcases Engine.exists_compile_letter rfl off with ⟨j, hj⟩
  rcases Engine.exists_compile_letter (Engine.rested_compile {} "a" off) off with ⟨k, hk⟩
  have hzero : (({} : Engine).run [.compile "a" off]).inForce off = 0 :=
    Engine.inForce_of_cacheSize _ rfl
  refine ⟨⟨i, hi, ?_⟩, j, k, hj, hk, ?_⟩
  · exact (compile_retains (Or.inl rfl) [] "a" small).1 i 3 hi rfl (by decide) visits (by decide)
      (by decide) "a" small rfl (by rw [Engine.inForce_of_cacheSize _ rfl]; decide)
  · exact ((compile_retains (Or.inl rfl) [.compile "a" off] "a" off).2 hzero).2 k hk j
      ⟨[], _, [], "a", off, rfl, rfl, hj⟩

/-- That the size of the cache is not zero for the later request cannot be left out. A new engine
    answers a request with room for two hundred, and nothing is requested in between; but the size
    is no part of a fingerprint, and is set before the cache is asked. So a request that brings the
    size zero has the same fingerprint, and is answered anew. -/
theorem compile_anew_without_room :
    let off : Options := { cacheSize := some 0 }
    let next := (({} : Engine).compile "a" {}).2
    ({} : Engine).inForce {} = 200 ∧ Fingerprint.of "a" off = Fingerprint.of "a" {} ∧
      next.inForce off = 0 ∧
      ∃ i k, (({} : Engine).compile "a" {}).1 = .ok i ∧ (next.compile "a" off).1 = .ok k ∧
        i.serial ≠ k.serial := by
  intro off next
  have hzero : next.inForce off = 0 := Engine.inForce_of_cacheSize _ rfl
  rcases Engine.exists_compile_letter rfl {} with ⟨i, hi⟩
  rcases Engine.exists_compile_letter (Engine.rested_compile {} "a" {}) off with ⟨k, hk⟩
  have hne := Engine.serial_ne_of_inForce_zero (Or.inl rfl) [.compile "a" {}] hzero hk
    ⟨[], .compile "a" {}, [], "a", {}, rfl, rfl, hi⟩
  exact ⟨rfl, rfl, hzero, i, k, hi, hk, hne⟩

end Letterpress
