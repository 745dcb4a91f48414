import Letterpress.Proofs.Lowercase
import Letterpress.Text.Slug

/-!
# Slugs as Normal Forms

A slug is the words of a text with hyphens between them, and nothing else is left of the text. Which
words these are can be said without taking the text apart: they are its runs of letters and
numerals, each as long as it can be, in the order in which they stand there. The gaps between them
may be of any length and of any characters, and there may be gaps at both ends.

The words can be read back from the slug, since there is no hyphen in a word. So the slug is cut at
its hyphens into the words that it was made of. An empty word is not among them, which means that
the slug begins and ends with a word and has one hyphen between two of them.

That a slug is its own slug follows from this in two steps. It is in lower case already, so that it
stays as it is when it is put into lower case again. And its runs of letters and numerals are the
words that it was made of, as a hyphen is a gap like any other.

## Main definitions

* `HasRuns`: The runs of a text.
* `IsSlug`: A text in the form of a slug.

## Theorems

* `HasRuns.words_eq`, `hasRuns_words`: The words of a text are its runs, and no others are.
* `hasRuns_intercalate`: Words with hyphens between them are the runs of what they make up.
* `isSlug_intercalate`: Words with hyphens between them have the form of a slug.
* `slug_normal`: What a slug is made of, and that it is its own slug.
-/

namespace Letterpress

namespace Text

/-- The runs of characters that satisfy a condition, from the left to the right: behind a gap of
    other characters there is a run, it goes on as far as it can, and more runs follow. -/
inductive HasRuns (p : Char → Bool) : List Char → List (List Char) → Prop where
  | gap {gap : List Char} (hgap : ∀ c ∈ gap, p c = false) : HasRuns p gap []
  | run {gap run rest : List Char} {runs : List (List Char)} (hgap : ∀ c ∈ gap, p c = false)
      (hne : run ≠ []) (hrun : ∀ c ∈ run, p c = true) (hend : ∀ c ∈ rest.head?, p c = false)
      (hrest : HasRuns p rest runs) : HasRuns p (gap ++ run ++ rest) (run :: runs)

/-- The text consists of letters, numerals and hyphens, and each hyphen stands alone between two
    others. -/
structure IsSlug (cs : List Char) : Prop where
  isPart : ∀ c ∈ cs, isAlphanumeric c = true ∨ c = '-'
  head?_ne : cs.head? ≠ some '-'
  getLast?_ne : cs.getLast? ≠ some '-'
  single : ¬ ['-', '-'] <:+: cs

variable {p : Char → Bool} {cs gap run rest : List Char} {runs : List (List Char)}

theorem words_cons_of_neg {c : Char} (hc : p c = false) : words p (c :: cs) = words p cs := by
  rw [words, List.splitOnP_cons_eq_if_modifyHead, hc]
  rfl

theorem words_gap_append (hgap : ∀ c ∈ gap, p c = false) :
    words p (gap ++ rest) = words p rest := by
  induction gap with
  | nil => rfl
  | cons c gap ih =>
      rcases List.forall_mem_cons.mp hgap with ⟨hc, hrest⟩
      rw [List.cons_append, words_cons_of_neg hc, ih hrest]

theorem words_gap (hgap : ∀ c ∈ gap, p c = false) : words p gap = [] := by
  rw [← List.append_nil gap, words_gap_append hgap]
  rfl

/-- A run that goes on as far as it can is the first word. -/
theorem words_run_append (hne : run ≠ []) (hrun : ∀ c ∈ run, p c = true)
    (hend : ∀ c ∈ rest.head?, p c = false) : words p (run ++ rest) = run :: words p rest := by
  have hkeep : (!run.isEmpty) = true := by
    rw [Bool.not_eq_true', List.isEmpty_eq_false_iff]
    exact hne
  have hinside : ∀ c ∈ run, (!p c) = false := fun c hc => by rw [hrun c hc]; rfl
  cases rest with
  | nil =>
      rw [List.append_nil, words, List.splitOnP_eq_singleton hinside, List.filter_cons,
        if_pos hkeep]
      rfl
  | cons c rest =>
      have hc : p c = false := hend c rfl
      rw [words, List.splitOnP_append_cons_of_forall_mem hinside c (by rw [hc]; rfl),
        List.filter_cons, if_pos hkeep, words_cons_of_neg hc]
      rfl

/-- A text has no other runs than its words. -/
theorem HasRuns.words_eq (h : HasRuns p cs runs) : words p cs = runs := by
  induction h with
  | gap hgap => exact words_gap hgap
  | run hgap hne hrun hend _ ih =>
      rw [List.append_assoc, words_gap_append hgap, words_run_append hne hrun hend, ih]

theorem HasRuns.cons_gap {c : Char} (hc : p c = false) (h : HasRuns p cs runs) :
    HasRuns p (c :: cs) runs := by
  cases h with
  | gap hgap => exact .gap (List.forall_mem_cons.mpr ⟨hc, hgap⟩)
  | run hgap hne hrun hend hrest =>
      exact .run (List.forall_mem_cons.mpr ⟨hc, hgap⟩) hne hrun hend hrest

theorem HasRuns.run_append (hne : run ≠ []) (hrun : ∀ c ∈ run, p c = true)
    (hend : ∀ c ∈ rest.head?, p c = false) (hrest : HasRuns p rest runs) :
    HasRuns p (run ++ rest) (run :: runs) :=
  .run (List.forall_mem_nil _) hne hrun hend hrest

theorem exists_hasRuns (p : Char → Bool) (cs : List Char) : ∃ runs, HasRuns p cs runs := by
  induction cs with
  | nil => exact ⟨[], .gap (List.forall_mem_nil _)⟩
  | cons c cs ih =>
      rcases ih with ⟨runs, hruns⟩
      by_cases hc : p c = true
      · have hone : ∀ x ∈ [c], p x = true := by
          intro x hx
          rwa [List.mem_singleton.mp hx]
        -- The character is put in front of a run that begins right behind it, or is one of its own.
        by_cases hnext : ∀ x ∈ cs.head?, p x = false
        · exact ⟨[c] :: runs, .run_append (List.cons_ne_nil c []) hone hnext hruns⟩
        · cases hruns with
          | gap hgap => exact absurd (fun x hx => hgap x (List.mem_of_mem_head? hx)) hnext
          | @run gap run rest runs hgap hne hrun hend hrest =>
              -- Right behind it means that there is no gap in front of the run.
              cases gap with
              | nil =>
                  exact ⟨(c :: run) :: runs, .run_append (List.cons_ne_nil c run)
                    (List.forall_mem_cons.mpr ⟨hc, hrun⟩) hend hrest⟩
              | cons x gap =>
                  refine absurd (fun y hy => ?_) hnext
                  rw [← Option.mem_some_iff.mp hy]
                  exact hgap x List.mem_cons_self
      · exact ⟨runs, hruns.cons_gap (Bool.eq_false_iff.mpr hc)⟩

/-- The words of a text are its runs. -/
theorem hasRuns_words (p : Char → Bool) (cs : List Char) : HasRuns p cs (words p cs) := by
  rcases exists_hasRuns p cs with ⟨runs, hruns⟩
  rwa [hruns.words_eq]

theorem HasRuns.run_ne_nil (h : HasRuns p cs runs) : ∀ run ∈ runs, run ≠ [] := by
  induction h with
  | gap _ => exact List.forall_mem_nil _
  | run _ hne _ _ _ ih => exact List.forall_mem_cons.mpr ⟨hne, ih⟩

theorem HasRuns.of_mem_run (h : HasRuns p cs runs) :
    ∀ run ∈ runs, ∀ c ∈ run, p c = true ∧ c ∈ cs := by
  induction h with
  | gap _ => exact List.forall_mem_nil _
  | @run gap run rest runs _ _ hrun _ _ ih =>
      refine List.forall_mem_cons.mpr ⟨fun c hc => ⟨hrun c hc, ?_⟩, fun w hw c hc => ?_⟩
      · exact List.mem_append_left rest (List.mem_append_right gap hc)
      · exact ⟨(ih w hw c hc).1, List.mem_append_right (gap ++ run) (ih w hw c hc).2⟩

variable {ws : List (List Char)}

theorem isAlphanumeric_hyphen : isAlphanumeric '-' = false := by
  decide

theorem isLowered_hyphen : IsLowered '-' := by
  decide

/-- The words are what a gap of one hyphen leaves of the text. -/
theorem hasRuns_intercalate (hne : ∀ w ∈ ws, w ≠ [])
    (hpart : ∀ w ∈ ws, ∀ c ∈ w, isAlphanumeric c = true) :
    HasRuns isAlphanumeric (['-'].intercalate ws) ws := by
  induction ws with
  | nil => exact .gap (List.forall_mem_nil _)
  | cons w ws ih =>
      rcases List.forall_mem_cons.mp hne with ⟨hw, hne⟩
      rcases List.forall_mem_cons.mp hpart with ⟨hwpart, hpart⟩
      cases ws with
      | nil =>
          have hone : HasRuns isAlphanumeric (w ++ []) [w] :=
            .run_append hw hwpart (by simp) (.gap (List.forall_mem_nil _))
          rw [List.append_nil] at hone
          rwa [List.intercalate_singleton]
      | cons w' ws =>
          rw [List.intercalate_cons_cons, List.append_assoc]
          have hrest := (ih hne hpart).cons_gap isAlphanumeric_hyphen
          refine .run_append hw hwpart (fun c hc => ?_) hrest
          rw [← Option.mem_some_iff.mp hc]
          exact isAlphanumeric_hyphen

theorem mem_intercalate {c : Char} (hc : c ∈ ['-'].intercalate ws) :
    (∃ w ∈ ws, c ∈ w) ∨ c = '-' := by
  induction ws with
  | nil => exact nomatch hc
  | cons w ws ih =>
      cases ws with
      | nil =>
          rw [List.intercalate_singleton] at hc
          exact .inl ⟨w, List.mem_cons_self, hc⟩
      | cons w' ws =>
          rw [List.intercalate_cons_cons, List.append_assoc] at hc
          rcases List.mem_append.mp hc with hw | hrest
          · exact .inl ⟨w, List.mem_cons_self, hw⟩
          · rcases List.mem_cons.mp hrest with heq | hrest
            · exact .inr heq
            · exact (ih hrest).imp_left fun ⟨v, hv, hcv⟩ => ⟨v, List.mem_cons_of_mem w hv, hcv⟩

/-- A hyphen at an end, or next to another one, would leave an empty piece. -/
theorem isSlug_of_splitOn (hpart : ∀ c ∈ cs, isAlphanumeric c = true ∨ c = '-')
    (hpieces : ∀ w ∈ cs.splitOn '-', w ≠ []) : IsSlug cs where
  isPart := hpart
  head?_ne := by
    intro h
    rcases List.head?_eq_some_iff.mp h with ⟨rest, rfl⟩
    refine hpieces [] ?_ rfl
    rw [← List.nil_append ('-' :: rest), List.splitOn_append_cons_self]
    exact List.mem_append_left _ List.mem_cons_self
  getLast?_ne := by
    intro h
    rcases List.getLast?_eq_some_iff.mp h with ⟨front, rfl⟩
    refine hpieces [] ?_ rfl
    rw [List.splitOn_append_cons_self]
    exact List.mem_append_right _ List.mem_cons_self
  single := by
    rintro ⟨front, rest, rfl⟩
    refine hpieces [] ?_ rfl
    rw [List.append_assoc, List.cons_append, List.splitOn_append_cons_self, List.cons_append,
      List.nil_append, ← List.nil_append ('-' :: rest), List.splitOn_append_cons_self]
    exact List.mem_append_right _ (List.mem_append_left _ List.mem_cons_self)

theorem toList_slug (s : String) :
    (slug s).toList = ['-'].intercalate (words isAlphanumeric (toLower s).toList) := by
  rw [slug, String.toList_intercalate, List.map_map]
  simp [Function.comp_def]

theorem slug_eq_self {s : String} (hlow : ∀ c ∈ s.toList, IsLowered c)
    (hwords : ['-'].intercalate (words isAlphanumeric s.toList) = s.toList) : slug s = s := by
  rw [← String.toList_inj, toList_slug, toLower_eq_self hlow, hwords]

theorem splitOn_intercalate_words (hpart : ∀ w ∈ ws, ∀ c ∈ w, isAlphanumeric c = true)
    (hws : ws ≠ []) : (['-'].intercalate ws).splitOn '-' = ws := by
  refine List.splitOn_intercalate '-' (fun w hw hhyphen => ?_) hws
  have hyphen := hpart w hw '-' hhyphen
  rw [isAlphanumeric_hyphen] at hyphen
  exact Bool.false_ne_true hyphen

/-- Words with hyphens between them have the form of a slug. -/
theorem isSlug_intercalate (hne : ∀ w ∈ ws, w ≠ [])
    (hpart : ∀ w ∈ ws, ∀ c ∈ w, isAlphanumeric c = true) : IsSlug (['-'].intercalate ws) := by
  by_cases hws : ws = []
  · rw [hws]
    exact ⟨by simp, by simp, by simp, by simp⟩
  · refine isSlug_of_splitOn (fun c hc => ?_) (by rwa [splitOn_intercalate_words hpart hws])
    exact (mem_intercalate hc).imp_left fun ⟨w, hw, hcw⟩ => hpart w hw c hcw

/-- A slug is the runs of letters and numerals of the text in lower case, with a hyphen between two
    of them. It is cut at its hyphens into these runs again, it has the form of a slug, and it is
    its own slug. -/
theorem slug_normal (s : String) :
    ∃ runs, HasRuns isAlphanumeric (toLower s).toList runs ∧
      (slug s).toList = ['-'].intercalate runs ∧
      (runs = [] ∧ slug s = "" ∨ runs ≠ [] ∧ (slug s).toList.splitOn '-' = runs) ∧
      IsSlug (slug s).toList ∧ slug (slug s) = slug s := by
  -- All that is needed of the runs is what they are, and not how they were cut out of the text.
  have hruns := hasRuns_words isAlphanumeric (toLower s).toList
  have hslug := toList_slug s
  generalize words isAlphanumeric (toLower s).toList = runs at hruns hslug
  have hne := hruns.run_ne_nil
  have hpart : ∀ w ∈ runs, ∀ c ∈ w, isAlphanumeric c = true := fun w hw c hc =>
    (hruns.of_mem_run w hw c hc).1
  refine ⟨runs, hruns, hslug, ?_, hslug ▸ isSlug_intercalate hne hpart, slug_eq_self ?_ ?_⟩
  · by_cases hnil : runs = []
    · refine .inl ⟨hnil, ?_⟩
      rw [← String.toList_inj, hslug, hnil]
      rfl
    · refine .inr ⟨hnil, ?_⟩
      rw [hslug, splitOn_intercalate_words hpart hnil]
  · -- The words are in lower case, and so is a hyphen.
    intro c hc
    rw [hslug] at hc
    rcases mem_intercalate hc with ⟨w, hw, hcw⟩ | rfl
    · exact isLowered_of_mem_toLower (hruns.of_mem_run w hw c hcw).2
    · exact isLowered_hyphen
  · rw [hslug, (hasRuns_intercalate hne hpart).words_eq]

end Text

end Letterpress
