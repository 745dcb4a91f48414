import Letterpress.Proofs.Reports
import Mathlib.Data.List.Infix

/-!
# What a Name Suggests

Where no sample value is at hand, the shape of a value is guessed from its name. The name is
searched for words that stand for numbers, and for words that stand for texts if there are none of
those. A name with words of both kinds is taken for a number, and that is what the order of the two
lists is for. It is not for words of the second list that have one of the first inside of them. Such
a word is never reached, whatever stands around it.

A word is looked for anywhere in a name, so it may begin inside of one word and end inside of the
next, and a name that somebody made of two words can have three. A name is *called after* a word for
texts if the word stands in it and no word for numbers goes beyond that place. Then the rest of the
name plays no part any more. A word that occurs within another one occurs in it when it stands
alone, and there are few enough words to try them all.

One of them fails. There is *age* in *message*, so a name with *message* in it is always taken for
the name of a number, and a filter for texts is reported there. All other words for texts decide
about the names that are called after them.

## Main definitions

* `IsCalledAfter`: A name has a word for texts, and words for numbers only within that word.
* `Finding.seesNumber`: A finding says that something looks like a number.
* `Scope.WantsText`: A placeholder begins with a filter of the library that is meant for texts.

## Theorems

* `occursIn_iff`: Searching for a word finds it wherever it stands.
* `shapeByName?_eq_number_iff`, `shapeByName?_eq_text_iff`: What a name has in it, and what it is
  taken for.
* `isInfix_of_within`: What occurs within a word occurs in the word alone.
* `IsCalledAfter.shapeByName?_eq`: What a name that is called after a word is taken for.
* `exists_seesNumber_iff`: When a report says that a placeholder looks like a number.
* `text_word_decides`: Every word for texts but one decides.
-/

namespace Letterpress

/-- In a name, all in lower case, stands a word for texts, and words for numbers stand only within
    that place. -/
def IsCalledAfter (word name : String) : Prop :=
  word ∈ textWords ∧ ∃ before behind,
    (Text.toLower name).toList = before ++ word.toList ++ behind ∧
      ∀ other ∈ numberWords, ∀ b e, (Text.toLower name).toList = b ++ other.toList ++ e →
        before.length ≤ b.length ∧ behind.length ≤ e.length

/-- The finding says that what a placeholder shows looks like a number. -/
def Finding.seesNumber : Finding → Bool
  | .suspiciousFilter _ _ _ .number => true
  | _ => false

/-- The first filter of a placeholder is one of the library, and meant for texts. -/
def Scope.WantsText (scope : Scope) (p : Placeholder) : Prop :=
  ∃ call origin, p.filters.head? = some call ∧ scope.filters.origin? call.name = some origin ∧
    origin.isOwn = true ∧ wantedShape? call.name = some .text

theorem occursIn_iff {word cs : List Char} : occursIn word cs = true ↔ word <:+: cs := by
  induction cs with
  | nil => rw [occursIn, List.isEmpty_iff, List.infix_nil]
  | cons c cs ih => rw [occursIn, Bool.or_eq_true, List.isPrefixOf_iff_prefix, ih,
      List.infix_cons_iff]

/-- A word for numbers is all that is needed for a number. -/
theorem shapeByName?_eq_number_iff {name : String} : shapeByName? name = some .number ↔
    ∃ other ∈ numberWords, other.toList <:+: (Text.toLower name).toList := by
  simp only [← occursIn_iff, ← List.any_eq_true, shapeByName?]
  by_cases hnumber : (numberWords.any fun w => occursIn w.toList (Text.toLower name).toList) = true
  · simp [hnumber]
  · rw [if_neg hnumber]
    split <;> simp [hnumber]

/-- For a text there has to be a word for texts, and none for numbers. -/
theorem shapeByName?_eq_text_iff {name : String} : shapeByName? name = some .text ↔
    (¬ ∃ other ∈ numberWords, other.toList <:+: (Text.toLower name).toList) ∧
      ∃ word ∈ textWords, word.toList <:+: (Text.toLower name).toList := by
  simp only [← occursIn_iff, ← List.any_eq_true, shapeByName?]
  by_cases hnumber : (numberWords.any fun w => occursIn w.toList (Text.toLower name).toList) = true
  · simp [hnumber]
  · rw [if_neg hnumber]
    split
    · next htext => simp [hnumber, htext]
    · next htext => simp [htext]

/-- What occurs within the place of a word occurs in the word alone. -/
theorem isInfix_of_within {word other before behind b e : List Char}
    (h : before ++ word ++ behind = b ++ other ++ e) (hb : before.length ≤ b.length)
    (he : behind.length ≤ e.length) : other <:+: word := by
  -- What stands in front of the other word goes on from what stands in front of the word.
  have hfront : before <+: b := by
    refine List.prefix_of_prefix_length_le ?_ ⟨other ++ e, rfl⟩ hb
    exact ⟨word ++ behind, by rw [← List.append_assoc, h, List.append_assoc]⟩
  have hback : behind <:+ e := by
    refine List.suffix_of_suffix_length_le ⟨before ++ word, rfl⟩ ?_ he
    exact ⟨b ++ other, h.symm⟩
  rcases hfront with ⟨x, rfl⟩
  rcases hback with ⟨y, rfl⟩
  have hmiddle : before ++ (word ++ behind) = before ++ ((x ++ other ++ y) ++ behind) := by
    simpa only [List.append_assoc] using h
  rw [List.append_cancel_right (List.append_cancel_left hmiddle)]
  exact ⟨x, y, rfl⟩

/-- There is a word for numbers in one of the words for texts, and in no other. -/
theorem exists_numberWord_iff {word : String} (h : word ∈ textWords) :
    (∃ other ∈ numberWords, other.toList <:+: word.toList) ↔ word = "message" := by
  have hall : ∀ text ∈ textWords,
      (numberWords.any fun other => occursIn other.toList text.toList) = (text == "message") := by
    decide
  rw [← beq_iff_eq, ← hall word h, List.any_eq_true]
  simp only [occursIn_iff]

namespace IsCalledAfter

variable {word name : String}

/-- In a name there is a word for numbers exactly if there is one in the word that the name is
    called after. -/
theorem exists_numberWord_iff (h : IsCalledAfter word name) :
    (∃ other ∈ numberWords, other.toList <:+: (Text.toLower name).toList) ↔ word = "message" := by
  rcases h with ⟨hword, before, behind, hname, hwithin⟩
  rw [← Letterpress.exists_numberWord_iff hword]
  constructor
  · rintro ⟨other, hother, b, e, hoccurs⟩
    rcases hwithin other hother b e hoccurs.symm with ⟨hb, he⟩
    exact ⟨other, hother, isInfix_of_within (hname.symm.trans hoccurs.symm) hb he⟩
  · rintro ⟨other, hother, hinside⟩
    exact ⟨other, hother, hinside.trans ⟨before, behind, hname.symm⟩⟩

/-- The word decides what the name is taken for. -/
theorem shapeByName?_eq (h : IsCalledAfter word name) :
    shapeByName? name = some (if word = "message" then .number else .text) := by
  by_cases hmessage : word = "message"
  · rw [if_pos hmessage, shapeByName?_eq_number_iff, h.exists_numberWord_iff]
    exact hmessage
  · rw [if_neg hmessage, shapeByName?_eq_text_iff, h.exists_numberWord_iff]
    rcases h with ⟨hword, before, behind, hname, _⟩
    exact ⟨hmessage, word, hword, before, behind, hname.symm⟩

end IsCalledAfter

theorem Finding.code_of_seesNumber {f : Finding} (h : f.seesNumber = true) :
    f.code = "suspicious-filter" := by
  cases f with
  | suspiciousFilter => rfl
  | _ => cases h

section

variable {scope : Scope} {sample : Option Value} {p : Placeholder}

/-- A guess at a number is reported where the first filter is meant for texts. -/
theorem exists_seesNumber_shapeSightings_iff :
    (∃ s ∈ shapeSightings scope sample p, s.finding.seesNumber = true) ↔
      shapeOf? sample p = some .number ∧ scope.WantsText p := by
  unfold shapeSightings Scope.WantsText
  cases hfilters : p.filters with
  | nil => simp
  | cons call rest =>
      cases horigin : scope.filters.origin? call.name with
      | none => simp [horigin]
      | some origin =>
          cases hwanted : wantedShape? call.name with
          | none => simp [horigin, hwanted]
          | some wanted =>
              cases hactual : shapeOf? sample p with
              | none => simp
              | some actual =>
                  -- All is known now, and two shapes differ in one way only if one is a number.
                  cases origin.isOwn <;> cases wanted <;> cases actual <;>
                    simp [horigin, hwanted, Finding.seesNumber]

/-- A report says so in the span of the placeholder exactly if the guess is made there. -/
theorem exists_seesNumber_iff {source : String} {ns : List Node}
    (hread : readTemplate source = .ok ns) (hp : p ∈ placeholders ns) :
    (∃ d ∈ analyze scope sample source, d.isIn p.span = true ∧ d.finding.seesNumber = true) ↔
      shapeOf? sample p = some .number ∧ scope.WantsText p := by
  rw [← exists_seesNumber_shapeSightings_iff]
  have hnode := @perm_filter_isIn scope sample source ns hread _ (mem_placeholders_iff.mp hp)
  have hmem : ∀ d, d ∈ analyze scope sample source ∧ d.isIn p.span = true ↔
      ∃ s ∈ placeholderSightings scope sample p, s.diagnostic (.ofSource source) = d := by
    intro d
    have hd := hnode.mem_iff (a := d)
    rwa [List.mem_filter, List.mem_map] at hd
  constructor
  · rintro ⟨d, hd, hin, hsees⟩
    rcases (hmem d).mp ⟨hd, hin⟩ with ⟨s, hs, rfl⟩
    refine ⟨s, ?_, hsees⟩
    -- No other check of a placeholder says anything about shapes.
    rw [← filter_suspiciousFilter_placeholderSightings, List.mem_filter, beq_iff_eq]
    exact ⟨hs, Finding.code_of_seesNumber hsees⟩
  · rintro ⟨s, hs, hsees⟩
    rw [← filter_suspiciousFilter_placeholderSightings, List.mem_filter] at hs
    rcases (hmem _).mpr ⟨s, hs.1, rfl⟩ with ⟨hd, hin⟩
    exact ⟨_, hd, hin, hsees⟩

end

/-- A name that is called after a word for texts is taken for the name of a text, and no report says
    of it that it looks like a number, unless that word is *message*. With *message* it is taken for
    the name of a number, and reported where the first filter is meant for texts. -/
theorem text_word_decides {word name : String} (h : IsCalledAfter word name) :
    shapeByName? name = some (if word = "message" then .number else .text) ∧
    ∀ (scope : Scope) (sample : Option Value) (source : String) (ns : List Node) (p : Placeholder),
      readTemplate source = .ok ns → p ∈ placeholders ns → p.path.getLast? = some name →
      sample.bind (·.lookup p.path) = none →
      ((∃ d ∈ analyze scope sample source, d.isIn p.span = true ∧ d.finding.seesNumber = true) ↔
        word = "message" ∧ scope.WantsText p) := by
  refine ⟨h.shapeByName?_eq, ?_⟩
  intro scope sample source ns p hread hp hlast hsample
  have hshape : shapeOf? sample p = some (if word = "message" then .number else .text) := by
    unfold shapeOf?
    rw [hsample, hlast]
    exact h.shapeByName?_eq
  rw [exists_seesNumber_iff hread hp, hshape]
  refine and_congr_left fun _ => ?_
  by_cases hmessage : word = "message" <;> simp [hmessage]

/-- The placeholder of `{page.subTitle|trim}`. -/
def subtitlePlaceholder : Placeholder :=
  ⟨["page", "subTitle"], [⟨"trim", [], ⟨14, 19⟩⟩], ⟨0, 20⟩⟩

/-- A subtitle is the name of a text, on a page or not. -/
theorem text_word_decides_subtitle :
    IsCalledAfter "title" "subTitle" ∧ shapeByName? "subTitle" = some .text ∧
      readTemplate "\x7bpage.subTitle|trim\x7d" = .ok [.placeholder subtitlePlaceholder] ∧
      ¬ ∃ d ∈ analyze desk none "\x7bpage.subTitle|trim\x7d",
        d.isIn subtitlePlaceholder.span = true ∧ d.finding.seesNumber = true := by
  have hname : IsCalledAfter "title" "subTitle" := by
    refine ⟨by decide, ['s', 'u', 'b'], [], by decide, ?_⟩
    -- No word for numbers stands anywhere in the name.
    have hnone : ∀ other ∈ numberWords,
        occursIn other.toList (Text.toLower "subTitle").toList = false := by decide
    intro other hother b e hoccurs
    have hinside := occursIn_iff.mpr ⟨b, e, hoccurs.symm⟩
    rw [hnone other hother] at hinside
    cases hinside
  have hread : readTemplate "\x7bpage.subTitle|trim\x7d" =
      .ok [.placeholder subtitlePlaceholder] := by decide +kernel
  rcases text_word_decides hname with ⟨hshape, hreports⟩
  refine ⟨hname, hshape, hread, ?_⟩
  rw [hreports desk none _ _ subtitlePlaceholder hread List.mem_cons_self rfl rfl]
  rintro ⟨hmessage, _⟩
  revert hmessage
  decide

/-- A message is called after a word for texts, taken for a number, and reported. -/
theorem message_seen_as_number :
    IsCalledAfter "message" "message" ∧ shapeByName? "message" = some .number ∧
      (analyze desk none "\x7bmessage|upper\x7d").map (·.finding) =
        [.suspiciousFilter "upper" "message" .text .number] := by
  refine ⟨⟨by decide, [], [], by decide, ?_⟩, by decide, by decide +kernel⟩
  -- The word is all of the name.
  intro other _ b e _
  exact ⟨Nat.zero_le _, Nat.zero_le _⟩

end Letterpress
