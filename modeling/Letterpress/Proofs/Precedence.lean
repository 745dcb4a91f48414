import Letterpress.Proofs.Notebooks
import Mathlib.Data.Finset.Card
import Mathlib.Data.Finset.Dedup

/-!
# Precedence

Which filter a name means. The filters of a template come from four places, and the third of them
is as many places as there are plugins, so a name may be known in many of them at once. The table
of filters is made by overriding: each place writes over what the places before it have written.
What this comes to is easier to say in the other direction. The places are asked one after the
other, from the caller down, the plugins from the last one to the first, and the first that knows
the name answers. That is `Supplies`.

The two directions agree because of one law on look-ups, `Dictionary.get?_merge`: after a merge
the newer dictionary is asked first, and the older one if it has no answer. Everything else that can
be asked about a name goes through the same look-up. A filter and its origin lie in one entry, so
they are never from different places, and to be listed among the names is to have an entry.

## Main definitions

* `Supplies`: The filter that a name means, and where it comes from.
* `Host.table`: The table of filters for the plugins of a host.
* `FilterTable.Answers`: What a table says about a name.

## Theorems

* `FilterTable.get?_add`, `FilterTable.get?_gather`: Look-ups in a table that is being made.
* `get?_foldl_merge`: The last of many dictionaries is asked first.
* `supplies_iff`: The table holds what the places supply.
* `sources_ranked`: Filters and origins are those of the place that ranks highest.
-/

namespace Letterpress

/-- The filter that a name means, with its origin. Each rule is about one place, and asks that no
    place of a higher rank knows the name. -/
inductive Supplies (locale : String) (contributed : List FilterSet) (caller : FilterSet)
    (name : String) : Option KnownFilter → Prop where
  | caller {f : Filter} (h : caller.get? name = some f) :
      Supplies locale contributed caller name (some ⟨f, .caller⟩)
  | plugin {before after : List FilterSet} {given : FilterSet} {f : Filter}
      (hcaller : caller.get? name = none) (hsplit : contributed = before ++ given :: after)
      (hafter : ∀ later ∈ after, later.get? name = none) (h : given.get? name = some f) :
      Supplies locale contributed caller name (some ⟨f, .plugin⟩)
  | locale {f : Filter} (hcaller : caller.get? name = none)
      (hplugins : ∀ given ∈ contributed, given.get? name = none)
      (h : Entries.get? name (LocaleFilter.all (.ofTag locale)) = some f) :
      Supplies locale contributed caller name (some ⟨f, .locale⟩)
  | builtin {f : Filter} (hcaller : caller.get? name = none)
      (hplugins : ∀ given ∈ contributed, given.get? name = none)
      (hlocale : Entries.get? name (LocaleFilter.all (.ofTag locale)) = none)
      (h : Entries.get? name TextFilter.all = some f) :
      Supplies locale contributed caller name (some ⟨f, .builtin⟩)
  | unknown (hcaller : caller.get? name = none)
      (hplugins : ∀ given ∈ contributed, given.get? name = none)
      (hlocale : Entries.get? name (LocaleFilter.all (.ofTag locale)) = none)
      (hbuiltin : Entries.get? name TextFilter.all = none) :
      Supplies locale contributed caller name none

/-- The table of filters, where the plugins of a host contribute theirs. -/
def Host.table (h : Host) (locale : String) (options : Options) (caller : FilterSet) :
    FilterTable :=
  .gather locale (h.contributions options).1 caller

/-- What a table says about a name is all about one filter, or about none. -/
structure FilterTable.Answers (t : FilterTable) (name : String) (known : Option KnownFilter) :
    Prop where
  filter : t.filter? name = known.map (·.filter)
  origin : t.origin? name = known.map (·.origin)
  contains : t.contains name = known.isSome
  listed : name ∈ t.names ↔ known.isSome = true

/-- The names of the filters of the library are all different, within each of its two places. -/
theorem nodup_names_locale (l : Locale) : ((LocaleFilter.all l).map Prod.fst).Nodup := by
  show ["number", "currency", "percent", "plural", "date"].Nodup
  decide

theorem nodup_names_text : (TextFilter.all.map Prod.fst).Nodup := by
  decide

/-- Added filters are asked before those that were there. -/
theorem FilterTable.get?_add (t : FilterTable) (origin : Origin) {filters : Entries Filter}
    (hdistinct : (filters.map Prod.fst).Nodup) (name : String) :
    (add t origin filters).get? name =
      ((Entries.get? name filters).map fun f => ⟨f, origin⟩).or (t.get? name) :=
  Dictionary.get?_foldl_insert hdistinct (fun f => KnownFilter.mk f origin) t name

theorem FilterTable.get?_gather (locale : String) (plugins caller : FilterSet) (name : String) :
    (gather locale plugins caller).get? name =
      ((caller.get? name).map fun f => ⟨f, .caller⟩).or
        (((plugins.get? name).map fun f => ⟨f, .plugin⟩).or
          (((Entries.get? name (LocaleFilter.all (.ofTag locale))).map fun f => ⟨f, .locale⟩).or
            ((Entries.get? name TextFilter.all).map fun f => ⟨f, .builtin⟩))) := by
  unfold gather
  -- What was added last is asked first, so the places appear from the caller down.
  rw [get?_add _ _ caller.sorted.nodup, get?_add _ _ plugins.sorted.nodup,
    get?_add _ _ (nodup_names_locale _), get?_add _ _ nodup_names_text, Dictionary.get?_empty,
    Option.or_none]
  rfl

/-- Of many dictionaries that override each other in turn, the last one is asked first. -/
theorem get?_foldl_merge {α : Type} (ds : List (Dictionary α)) (d : Dictionary α) (name : String) :
    (ds.foldl Dictionary.merge d).get? name =
      (ds.reverse.findSome? (·.get? name)).or (d.get? name) := by
  induction ds generalizing d with
  | nil => rfl
  | cons e rest ih =>
      rw [List.foldl_cons, ih, Dictionary.get?_merge, List.reverse_cons, List.findSome?_append,
        Option.or_assoc, List.findSome?_singleton]

/-- What the plugins know together is known from the last one that knows it. -/
theorem get?_foldl_merge_eq_some_iff {α : Type} {ds : List (Dictionary α)} {name : String} {a : α} :
    (ds.foldl Dictionary.merge .empty).get? name = some a ↔
      ∃ before given after, ds = before ++ given :: after ∧
        (∀ later ∈ after, later.get? name = none) ∧ given.get? name = some a := by
  rw [get?_foldl_merge, Dictionary.get?_empty, Option.or_none, List.findSome?_eq_some_iff]
  constructor
  · rintro ⟨after, given, before, hsplit, hgiven, hafter⟩
    refine ⟨before.reverse, given, after.reverse, ?_, ?_, hgiven⟩
    · rw [← List.reverse_reverse ds, hsplit, List.reverse_append, List.reverse_cons,
        List.append_assoc, List.singleton_append]
    · exact fun later hlater => hafter later (List.mem_reverse.mp hlater)
  · rintro ⟨before, given, after, rfl, hafter, hgiven⟩
    refine ⟨after.reverse, given, before.reverse, ?_, hgiven, ?_⟩
    · rw [List.reverse_append, List.reverse_cons, List.append_assoc, List.singleton_append]
    · exact fun later hlater => hafter later (List.mem_reverse.mp hlater)

theorem get?_foldl_merge_eq_none_iff {α : Type} {ds : List (Dictionary α)} {name : String} :
    (ds.foldl Dictionary.merge .empty).get? name = none ↔ ∀ d ∈ ds, d.get? name = none := by
  rw [get?_foldl_merge, Dictionary.get?_empty, Option.or_none, List.findSome?_eq_none_iff]
  simp only [List.mem_reverse]

theorem mem_names_foldl_merge_iff {α : Type} {ds : List (Dictionary α)} {name : String} :
    name ∈ (ds.foldl Dictionary.merge .empty).names ↔ ∃ d ∈ ds, name ∈ d.names := by
  simp only [Dictionary.mem_names_iff, Dictionary.contains, Option.isSome_iff_ne_none, ne_eq,
    get?_foldl_merge_eq_none_iff, not_forall, exists_prop]

section

variable {h : Host} {locale name : String} {options : Options} {caller : FilterSet}

theorem contributions_fst (h : Host) (options : Options) :
    (h.contributions options).1 =
      (h.guests.map (h.contribution options)).foldl Dictionary.merge .empty := by
  rw [Host.contributions_eq]

/-- The table of a host holds what the places supply, and nothing else. -/
theorem supplies_iff {known : Option KnownFilter} :
    Supplies locale (h.guests.map (h.contribution options)) caller name known ↔
      known = (h.table locale options caller).get? name := by
  unfold Host.table
  rw [contributions_fst, FilterTable.get?_gather]
  generalize h.guests.map (h.contribution options) = contributed
  constructor
  · intro hsupplies
    cases hsupplies with
    | caller hf => rw [hf]; rfl
    | plugin hcaller hsplit hafter hf =>
        have hplugins := get?_foldl_merge_eq_some_iff.mpr ⟨_, _, _, hsplit, hafter, hf⟩
        rw [hcaller, hplugins]
        rfl
    | locale hcaller hplugins hf =>
        rw [hcaller, get?_foldl_merge_eq_none_iff.mpr hplugins, hf]
        rfl
    | builtin hcaller hplugins hlocale hf =>
        rw [hcaller, get?_foldl_merge_eq_none_iff.mpr hplugins, hlocale, hf]
        rfl
    | unknown hcaller hplugins hlocale hbuiltin =>
        rw [hcaller, get?_foldl_merge_eq_none_iff.mpr hplugins, hlocale, hbuiltin]
        rfl
  · rintro rfl
    -- The places are asked in this order, and the first that knows the name decides.
    cases hcaller : caller.get? name with
    | some f => exact .caller hcaller
    | none =>
        cases hplugins : (contributed.foldl Dictionary.merge .empty).get? name with
        | some f =>
            rcases get?_foldl_merge_eq_some_iff.mp hplugins with ⟨_, _, _, hsplit, hafter, hf⟩
            exact .plugin hcaller hsplit hafter hf
        | none =>
            have hall := get?_foldl_merge_eq_none_iff.mp hplugins
            cases hlocale : Entries.get? name (LocaleFilter.all (.ofTag locale)) with
            | some f => exact .locale hcaller hall hlocale
            | none =>
                cases hbuiltin : Entries.get? name TextFilter.all with
                | some f => exact .builtin hcaller hall hlocale hbuiltin
                | none => exact .unknown hcaller hall hlocale hbuiltin

/-- The names of a table are those that some place knows. -/
theorem mem_names_table_iff :
    name ∈ (h.table locale options caller).names ↔
      name ∈ caller.names ∨ (∃ g ∈ h.guests, name ∈ (h.contribution options g).names) ∨
        name ∈ (LocaleFilter.all (.ofTag locale)).map Prod.fst ∨
          name ∈ TextFilter.all.map Prod.fst := by
  have hplugins : (∃ g ∈ h.guests, name ∈ (h.contribution options g).names) ↔
      (((h.contributions options).1).get? name).isSome = true := by
    rw [contributions_fst]
    refine Iff.trans ?_ (mem_names_foldl_merge_iff.symm.trans (Dictionary.mem_names_iff _ _))
    simp only [List.mem_map, exists_exists_and_eq_and]
  rw [hplugins, Dictionary.mem_names_iff, Dictionary.mem_names_iff, Entries.mem_names_iff,
    Entries.mem_names_iff]
  unfold Dictionary.contains Host.table
  rw [FilterTable.get?_gather]
  simp only [Option.isSome_or, Option.isSome_map, Bool.or_eq_true]

end

theorem answers_get? (t : FilterTable) (name : String) : t.Answers name (t.get? name) where
  filter := rfl
  origin := rfl
  contains := rfl
  listed := Dictionary.mem_names_iff t name

/-- Filters and origins are those of the place that ranks highest. For any plugins in the order of
    their turns, whatever they contribute, and for any filters of the caller, each name means one
    filter or none: that of the caller if there is one, or else that of the last plugin that
    contributes one, or else that of the locale, or else the built-in one. All that the table says
    about the name is about this filter: what it is, where it comes from, whether it is there and
    whether it is listed. No name is listed twice, and there are as many names as the places know
    together. -/
theorem sources_ranked (h : Host) (locale : String) (options : Options) (caller : FilterSet) :
    (∀ name, ∃ known, (h.table locale options caller).Answers name known ∧
      ∀ other, Supplies locale (h.guests.map (h.contribution options)) caller name other ↔
        other = known) ∧
      (h.table locale options caller).names.Nodup ∧
      (h.table locale options caller).size =
        (caller.names ++ (h.guests.flatMap fun g => (h.contribution options g).names) ++
          (LocaleFilter.all (.ofTag locale)).map Prod.fst ++
          TextFilter.all.map Prod.fst).toFinset.card := by
  have hnodup := Dictionary.nodup_names (h.table locale options caller)
  refine ⟨fun name => ⟨_, answers_get? _ name, fun other => supplies_iff⟩, hnodup, ?_⟩
  -- Names that are all different are as many as the set that they make.
  have hsame : (caller.names ++ (h.guests.flatMap fun g => (h.contribution options g).names) ++
      (LocaleFilter.all (.ofTag locale)).map Prod.fst ++ TextFilter.all.map Prod.fst).toFinset =
        (h.table locale options caller).names.toFinset := by
    ext name
    rw [List.mem_toFinset, List.mem_toFinset, mem_names_table_iff]
    simp only [List.mem_append, List.mem_flatMap, or_assoc]
  rw [hsame, List.toFinset_card_of_nodup hnodup]
  exact (List.length_map Prod.fst).symm

end Letterpress
