import Letterpress.Proofs.Completion
import Letterpress.Proofs.Tiling

/-!
# What Is Decided

A source that is rejected before its end stays rejected, with the same fault at the same offset,
whatever is put behind it. Readers look ahead by one character that is no blank and never further,
so what they have found is decided as soon as such a character has been seen.

This is stated for each reader about a source and the same source with more characters behind it.
A result is decided if it leaves something other than blanks to be read, or if it is a fault that
does not lie at the end of the source. A reader is steady if it finds the same in the longer
source whenever what it has found is decided. A reader that is made of others is steady because
they are, as long as each of them leaves something that the next one sees.

Text in quotes that is never closed is the exception, since more characters may close it.

## Main definitions

* `Cursor.extend`: The same place in a longer source.
* `Cursor.Sees`: Something other than blanks is still to come.
* `IsDecided`: What was found does not depend on what is put behind the source.
* `IsSteadyAt`: What a reader finds at a cursor does not change once it is decided.

## Theorems

* `steady_identifier`, `steady_path`, `steady_argument`, `steady_arguments`, `steady_filterUse`,
  `steady_filters`: The readers are steady.
* `tag_extend`, `nodes_extend`: A fault that is decided remains.
* `error_earliest`: Faults are reported at the earliest possible place.
-/

namespace Letterpress

open Cursor (Takes)

namespace Cursor

/-- The same place in a source that has more characters behind it. -/
def extend (more : List Char) (c : Cursor) : Cursor := ⟨c.rest ++ more, c.offset⟩

/-- The offset at which the source ends. -/
def stop (c : Cursor) : Nat := c.offset + byteLength c.rest

/-- Something other than blanks is still to come. -/
def Sees (c : Cursor) : Prop := ¬ IsBlanks c.rest

theorem Takes.extend {c d : Cursor} {cs : List Char} (h : c.Takes cs d) (more : List Char) :
    (c.extend more).Takes cs (d.extend more) := by
  refine ⟨?_, h.2⟩
  rw [Cursor.extend, Cursor.extend, h.1, List.append_assoc]

/-- Wherever a cursor stands in a source, the source ends at the same offset. -/
theorem Takes.same_stop {c d : Cursor} {cs : List Char} (h : c.Takes cs d) : d.stop = c.stop := by
  rw [stop, stop, h.1, h.2, byteLength_append, Nat.add_assoc]

theorem ne_nil_of_ne_stop {c : Cursor} (h : c.offset ≠ c.stop) : c.rest ≠ [] := by
  intro hnil
  rw [stop, hnil, byteLength_nil] at h
  exact h rfl

theorem Takes.sees {c d : Cursor} {cs : List Char} (h : c.Takes cs d) (hd : d.Sees) : c.Sees := by
  intro hblanks
  refine hd fun x hx => hblanks x ?_
  rw [h.1]
  exact List.mem_append_right _ hx

theorem Sees.ne_nil {c : Cursor} (h : c.Sees) : c.rest ≠ [] := by
  intro hnil
  rw [Sees, hnil] at h
  exact h isBlanks_nil

theorem sees_iff_skipBlanks {c : Cursor} : c.Sees ↔ c.skipBlanks.rest ≠ [] :=
  ⟨fun h hnil => h (isBlanks_of_dropWhile hnil), fun h hblanks => h hblanks.dropWhile⟩

/-- A sign that was accepted was seen before. -/
theorem sees_of_accept? {x : Char} {c d : Cursor} (hx : Text.isBlank x = false)
    (h : c.accept? x = some d) : c.Sees := by
  intro hblanks
  have hblank := hblanks x (by rw [(takes_accept? h).1]; exact List.mem_cons_self)
  rw [hx] at hblank
  cases hblank

end Cursor

theorem StopsAt.append_of_ne_nil {p : Char → Bool} {cs : List Char} (h : StopsAt p cs)
    (hne : cs ≠ []) (more : List Char) : StopsAt p (cs ++ more) := by
  intro c hc
  rw [List.head?_append_of_ne_nil _ hne] at hc
  exact h c hc

theorem EndsAt.append_of_ne_nil {signs cs : List Char} (h : EndsAt signs cs) (hne : cs ≠ [])
    (more : List Char) : EndsAt signs (cs ++ more) := by
  intro c hc
  rw [List.head?_append_of_ne_nil _ hne] at hc
  exact h c hc

namespace Cursor

theorem skipBlanks_extend {c : Cursor} (h : c.Sees) (more : List Char) :
    (c.extend more).skipBlanks = c.skipBlanks.extend more :=
  skipBlanks_of_takes ((takes_skipBlanks c).extend more) (isBlanks_takeWhile _)
    ((stopsAt_skipBlanks c).append_of_ne_nil (sees_iff_skipBlanks.mp h) more)

theorem accept?_extend {x : Char} {c d : Cursor} (h : c.accept? x = some d) (more : List Char) :
    (c.extend more).accept? x = some (d.extend more) :=
  accept?_of_takes ((takes_accept? h).extend more)

theorem accept?_extend_none {x : Char} {c : Cursor} (hne : c.rest ≠ [])
    (h : c.accept? x = none) (more : List Char) : (c.extend more).accept? x = none := by
  rcases c with ⟨rest, offset⟩
  cases rest with
  | nil => exact absurd rfl hne
  | cons d rest =>
      have hother : d ≠ x := by
        intro heq
        rw [heq, accept?_cons_self] at h
        cases h
      exact accept?_cons_of_ne hother (rest ++ more) offset

end Cursor

/-- A fault that more characters behind the source do not mend. -/
def ReadError.IsDecided (e : ReadError) (stop : Nat) : Prop :=
  e.fault ≠ .quoteUnclosed ∧ e.offset ≠ stop

/-- What was found in a source that ends at a certain offset does not depend on what is put behind
    the source. -/
def IsDecided {α : Type} (stop : Nat) : Except ReadError (α × Cursor) → Prop
  | .ok (_, d) => d.Sees
  | .error e => e.IsDecided stop

/-- The same result in a longer source. -/
def extendResult {α : Type} (more : List Char) :
    Except ReadError (α × Cursor) → Except ReadError (α × Cursor)
  | .ok (a, d) => .ok (a, d.extend more)
  | .error e => .error e

/-- What the reader finds at a cursor does not change with more characters behind the source once it
    is decided. -/
def IsSteadyAt {α : Type} (more : List Char) (read : Cursor → Except ReadError (α × Cursor))
    (c : Cursor) : Prop :=
  IsDecided c.stop (read c) → read (c.extend more) = extendResult more (read c)

section Steady

variable {α : Type} {more : List Char} {read : Cursor → Except ReadError (α × Cursor)}
  {c d : Cursor}

theorem IsSteadyAt.ok (h : IsSteadyAt more read c) {a : α} (hread : read c = .ok (a, d))
    (hsees : d.Sees) : read (c.extend more) = .ok (a, d.extend more) := by
  have hdecided : IsDecided c.stop (read c) := by
    rw [hread]
    exact hsees
  rw [h hdecided, hread]
  rfl

theorem IsSteadyAt.error (h : IsSteadyAt more read c) {e : ReadError} (hread : read c = .error e)
    (he : e.IsDecided c.stop) : read (c.extend more) = .error e := by
  have hdecided : IsDecided c.stop (read c) := by
    rw [hread]
    exact he
  rw [h hdecided, hread]
  rfl

/-- What succeeds and what fails can be looked at one by one. -/
theorem isSteadyAt_of_cases
    (hok : ∀ a d, read c = .ok (a, d) → d.Sees → read (c.extend more) = .ok (a, d.extend more))
    (herror : ∀ e, read c = .error e → e.IsDecided c.stop → read (c.extend more) = .error e) :
    IsSteadyAt more read c := by
  intro hdecided
  cases hread : read c with
  | error e =>
      rw [hread] at hdecided
      exact herror e hread hdecided
  | ok found =>
      rw [hread] at hdecided
      exact hok found.1 found.2 hread hdecided

end Steady

variable (more : List Char)

theorem stopsAt_identifier {c d : Cursor} {name : String} (h : identifier c = .ok (name, d)) :
    StopsAt isNamePart d.rest := by
  unfold identifier at h
  split at h
  · cases h
  · split at h
    · cases h
      exact stopsAt_dropWhile isNamePart _
    · cases h

theorem steady_identifier (c : Cursor) : IsSteadyAt more identifier c := by
  refine isSteadyAt_of_cases ?_ ?_
  · intro name d h hsees
    rcases takes_identifier h with ⟨hname, htakes⟩
    refine identifier_of_takes hname (htakes.extend more) ?_
    exact (stopsAt_identifier h).append_of_ne_nil hsees.ne_nil more
  · intro e h hdecided
    have hne : c.rest ≠ [] := by
      refine Cursor.ne_nil_of_ne_stop ?_
      have hoffset := hdecided.2
      rwa [identifier_error_eq h] at hoffset
    -- The character that cannot begin a name is still the next one.
    rcases c with ⟨rest, offset⟩
    cases rest with
    | nil => exact absurd rfl hne
    | cons d rest =>
        simp only [identifier] at h
        split at h
        · cases h
        · next hstart =>
            simp only [Cursor.extend, List.cons_append, identifier]
            rw [if_neg hstart]
            exact h

theorem steady_path (c : Cursor) : IsSteadyAt more path c := by
  intro hdecided
  fun_induction path c with
  | case1 c e he =>
      rw [path_eq, (steady_identifier more c).error he hdecided]
      rfl
  | case2 c name c₁ h₁ hnone =>
      -- What is seen behind the name is no point, and remains none.
      have hsees : c₁.Sees := hdecided
      rw [path_eq, (steady_identifier more c).ok h₁ hsees]
      simp only [Cursor.accept?_extend_none hsees.ne_nil hnone, extendResult]
  | case3 c name c₁ h₁ c₂ h₂ e he ih =>
      -- The point has been seen, so the name in front of it is decided.
      have hsees : c₁.Sees := Cursor.sees_of_accept? (by decide) h₂
      have hstop : c₂.stop = c.stop :=
        ((takes_identifier h₁).2.trans (Cursor.takes_accept? h₂)).same_stop
      have hpath := IsSteadyAt.error ih he (hstop ▸ hdecided)
      rw [path_eq, (steady_identifier more c).ok h₁ hsees]
      simp only [Cursor.accept?_extend h₂, hpath, extendResult]
  | case4 c name c₁ h₁ c₂ h₂ names c₃ h₃ ih =>
      have hsees : c₁.Sees := Cursor.sees_of_accept? (by decide) h₂
      have hpath := IsSteadyAt.ok ih h₃ hdecided
      rw [path_eq, (steady_identifier more c).ok h₁ hsees]
      simp only [Cursor.accept?_extend h₂, hpath, extendResult]

/-- At the end of the source a path is missing, and the fault lies there. -/
theorem ne_nil_of_path {c : Cursor} {e : ReadError} (h : path c = .error e)
    (he : e.IsDecided c.stop) : c.rest ≠ [] := by
  rcases c with ⟨rest, offset⟩
  rintro rfl
  have hnothing : path ⟨[], offset⟩ = .error ⟨.identifierExpected, offset⟩ := by
    rw [path_eq]
    rfl
  rw [hnothing] at h
  cases h
  exact he.2 rfl

theorem quotedText_extend {quote : Char} {opened offset : Nat} {cs : List Char} {e : ReadError}
    (h : quotedText quote opened cs offset = .error e)
    (he : e.IsDecided (⟨cs, offset⟩ : Cursor).stop) :
    quotedText quote opened (cs ++ more) offset = .error e := by
  fun_induction quotedText quote opened cs offset with
  | case1 =>
      cases h
      exact absurd rfl he.1
  | case2 => cases h
  | case3 offset =>
      -- A backslash at the end of the source is the end of it.
      cases h
      exact absurd rfl he.2
  | case4 offset d rest hd err herr hquote ih =>
      cases h
      have htakes : (⟨'\\' :: d :: rest, offset⟩ : Cursor).Takes ['\\', d]
          ⟨rest, offset + 1 + d.utf8Size⟩ := ⟨rfl, Nat.add_assoc _ _ _⟩
      have hothers := ih herr (htakes.same_stop ▸ he)
      rw [List.cons_append, List.cons_append, quotedText.eq_def]
      simp only [if_neg hquote, if_pos, hd, hothers]
  | case5 => cases h
  | case6 offset d rest hd hquote =>
      cases h
      rw [List.cons_append, List.cons_append, quotedText.eq_def]
      simp only [if_neg hquote, if_pos, if_neg hd]
  | case7 c rest offset hquote hslash err herr ih =>
      cases h
      have hothers := ih herr ((Cursor.takes_cons c rest offset).same_stop ▸ he)
      rw [List.cons_append, quotedText.eq_def]
      simp only [if_neg hquote, if_neg hslash, hothers]
  | case8 => cases h

theorem afterQuoted_extend {c : Cursor} {e : ReadError} (h : afterQuoted c = .error e) :
    afterQuoted (c.extend more) = .error e := by
  simp only [afterQuoted] at h
  split at h
  · cases h
  · next d hnext =>
      have hne : c.skipBlanks.rest ≠ [] := by
        intro hnil
        rw [Cursor.next?, hnil] at hnext
        cases hnext
      have hagain : (c.skipBlanks.extend more).next? = some d := by
        rw [Cursor.next?, Cursor.extend, List.head?_append_of_ne_nil _ hne]
        exact hnext
      split at h
      · cases h
      · next hend =>
          simp only [afterQuoted, Cursor.skipBlanks_extend (Cursor.sees_iff_skipBlanks.mpr hne),
            hagain]
          rw [if_neg hend]
          exact h

/-- What is read of an argument that begins with a quote. -/
theorem argument_eq_of_quote {quote : Char} {c d : Cursor} (hquote : isQuote quote = true)
    (hsign : c.skipBlanks.Takes [quote] d) :
    argument c =
      (quotedText quote c.skipBlanks.offset d.rest d.offset).bind fun found =>
        (afterQuoted found.2).map fun next => (String.ofList found.1, next) := by
  have hfirst : c.skipBlanks.rest = quote :: d.rest := hsign.1
  have hoffset : c.skipBlanks.offset + quote.utf8Size = d.offset := hsign.2.symm
  simp only [argument, hfirst, hquote, if_pos, hoffset]
  rcases quotedText quote c.skipBlanks.offset d.rest d.offset with e | ⟨s, closed⟩
  · rfl
  · cases hafter : afterQuoted closed with
    | error e => simp only [hafter, Except.bind, Except.map]
    | ok next => simp only [hafter, Except.bind, Except.map]

theorem isBlank_of_isQuote {c : Char} (h : isQuote c = true) : Text.isBlank c = false := by
  rcases isQuote_iff.mp h with rfl | rfl
  · decide
  · decide

theorem steady_argument (c : Cursor) : IsSteadyAt more argument c := by
  refine isSteadyAt_of_cases ?_ ?_
  · intro arg d h hsees
    rcases takes_argument h with ⟨cs, harg, htakes, hend⟩
    exact argument_of_takes harg (htakes.extend more) (hend.append_of_ne_nil hsees.ne_nil more)
  · intro e h hdecided
    -- A bare argument has no faults, so there is a quote.
    rcases quotedText_of_argument h with ⟨quote, c₁, hquote, hsign, hfault⟩
    have hopened := Cursor.takes_skipBlanks c
    have hsees : c.Sees := hopened.sees
      (Cursor.sees_of_accept? (isBlank_of_isQuote hquote) (Cursor.accept?_of_takes hsign))
    have hsign' : (c.extend more).skipBlanks.Takes [quote] (c₁.extend more) := by
      rw [Cursor.skipBlanks_extend hsees]
      exact hsign.extend more
    have hoffset : (c.extend more).skipBlanks.offset = c.skipBlanks.offset := by
      rw [Cursor.skipBlanks_extend hsees]
      rfl
    rw [argument_eq_of_quote hquote hsign', hoffset]
    rcases hfault with htext | ⟨s, c₂, htext, hafter⟩
    · have hstop : c₁.stop = c.stop := (hopened.trans hsign).same_stop
      have hagain : quotedText quote c.skipBlanks.offset (c₁.extend more).rest
          (c₁.extend more).offset = .error e := quotedText_extend more htext (hstop ▸ hdecided)
      rw [hagain]
      rfl
    · -- The text in quotes is there already, so the fault is behind it.
      rcases takes_quotedText htext with ⟨body, hbody, hclosed⟩
      have hslash : quote ≠ '\\' := by
        rcases isQuote_iff.mp hquote with rfl | rfl
        · decide
        · decide
      have hagain : quotedText quote c.skipBlanks.offset (c₁.extend more).rest
          (c₁.extend more).offset = .ok (s, c₂.extend more) :=
        quotedText_of_takes hslash hbody _ (hclosed.extend more)
      rw [hagain]
      simp only [Except.bind, Except.map, afterQuoted_extend more hafter]

theorem steady_arguments (c : Cursor) : IsSteadyAt more arguments c := by
  intro hdecided
  fun_induction arguments c with
  | case1 c e he =>
      rw [arguments_eq, (steady_argument more c).error he hdecided]
      rfl
  | case2 c arg c₁ h₁ hnone =>
      have hsees : c₁.Sees := hdecided
      rw [arguments_eq, (steady_argument more c).ok h₁ hsees]
      simp only [Cursor.accept?_extend_none hsees.ne_nil hnone, extendResult]
  | case3 c arg c₁ h₁ c₂ h₂ e he ih =>
      rcases takes_argument h₁ with ⟨cs, _, hfirst, _⟩
      have hsees : c₁.Sees := Cursor.sees_of_accept? (by decide) h₂
      have hstop : c₂.stop = c.stop := (hfirst.trans (Cursor.takes_accept? h₂)).same_stop
      have hothers := IsSteadyAt.error ih he (hstop ▸ hdecided)
      rw [arguments_eq, (steady_argument more c).ok h₁ hsees]
      simp only [Cursor.accept?_extend h₂, hothers, extendResult]
  | case4 c arg c₁ h₁ c₂ h₂ args c₃ h₃ ih =>
      have hsees : c₁.Sees := Cursor.sees_of_accept? (by decide) h₂
      have hothers := IsSteadyAt.ok ih h₃ hdecided
      rw [arguments_eq, (steady_argument more c).ok h₁ hsees]
      simp only [Cursor.accept?_extend h₂, hothers, extendResult]

theorem steady_filterArguments (c : Cursor) : IsSteadyAt more filterArguments c := by
  intro hdecided
  unfold filterArguments at hdecided ⊢
  split at hdecided
  · next hnone =>
      -- The colon that does not follow is missed across the blanks.
      have hsees : c.Sees := hdecided
      simp only [Cursor.skipBlanks_extend hsees,
        Cursor.accept?_extend_none (Cursor.sees_iff_skipBlanks.mp hsees) hnone, extendResult]
  · next c₁ h₁ =>
      have hopened := Cursor.takes_skipBlanks c
      have hsees : c.Sees := hopened.sees (Cursor.sees_of_accept? (by decide) h₁)
      have hstop : c₁.stop = c.stop := (hopened.trans (Cursor.takes_accept? h₁)).same_stop
      rw [← hstop] at hdecided
      simp only [Cursor.skipBlanks_extend hsees, Cursor.accept?_extend h₁]
      exact steady_arguments more c₁ hdecided

/-- What follows the name of a filter has been seen once it is decided. -/
theorem sees_of_filterArguments {c : Cursor} {stop : Nat}
    (h : IsDecided stop (filterArguments c)) : c.Sees := by
  cases hread : filterArguments c with
  | error e =>
      unfold filterArguments at hread
      split at hread
      · cases hread
      · next c₁ h₁ =>
          exact (Cursor.takes_skipBlanks c).sees (Cursor.sees_of_accept? (by decide) h₁)
  | ok found =>
      rw [hread] at h
      rcases reaches_filterArguments hread with ⟨cs, htakes⟩
      exact Cursor.Takes.sees htakes h

theorem steady_filterUse (start : Nat) (c : Cursor) : IsSteadyAt more (filterUse start) c := by
  intro hdecided
  have hopened := Cursor.takes_skipBlanks c
  unfold filterUse at hdecided ⊢
  cases hname : identifier c.skipBlanks with
  | error e =>
      rw [hname] at hdecided
      have hfault : e.IsDecided c.skipBlanks.stop := by
        rw [hopened.same_stop]
        exact hdecided
      -- With blanks alone the fault would lie at the end.
      have hsees : c.Sees := by
        refine Cursor.sees_iff_skipBlanks.mpr (Cursor.ne_nil_of_ne_stop ?_)
        have hoffset := hfault.2
        rwa [identifier_error_eq hname] at hoffset
      rw [Cursor.skipBlanks_extend hsees, (steady_identifier more _).error hname hfault]
      rfl
  | ok found =>
      rcases found with ⟨name, c₁⟩
      have hnamed := hopened.trans (takes_identifier hname).2
      have hargs : IsDecided c₁.stop (filterArguments c₁) := by
        rw [hnamed.same_stop]
        cases hread : filterArguments c₁ with
        | error e =>
            simp only [hname, hread] at hdecided
            exact hdecided
        | ok found =>
            simp only [hname, hread] at hdecided
            exact hdecided
      have hsees : c₁.Sees := sees_of_filterArguments hargs
      rw [Cursor.skipBlanks_extend (hnamed.sees hsees), (steady_identifier more _).ok hname hsees]
      simp only [steady_filterArguments more c₁ hargs]
      cases filterArguments c₁ with
      | error e => rfl
      | ok found => rfl

/-- What follows a path, or a filter, has been seen once the chain is decided. -/
theorem sees_of_filters {c : Cursor} {stop : Nat} (h : IsDecided stop (filters c)) : c.Sees := by
  cases hread : filters c with
  | error e =>
      rw [filters_eq] at hread
      split at hread
      · cases hread
      · next c₁ h₁ =>
          exact (Cursor.takes_skipBlanks c).sees (Cursor.sees_of_accept? (by decide) h₁)
  | ok found =>
      rw [hread] at h
      rcases takes_filters hread with ⟨cs, _, htakes, _⟩
      exact htakes.sees h

theorem filters_extend_of_pipe {c d : Cursor} (hpipe : c.skipBlanks.accept? '|' = some d) :
    filters (c.extend more) =
      match filterUse c.skipBlanks.offset (d.extend more) with
      | .error e => .error e
      | .ok (f, c₂) =>
        match filters c₂ with
        | .error e => .error e
        | .ok (fs, c₃) => .ok (f :: fs, c₃) := by
  have hsees := (Cursor.takes_skipBlanks c).sees (Cursor.sees_of_accept? (by decide) hpipe)
  rw [filters_eq, Cursor.skipBlanks_extend hsees]
  simp only [Cursor.accept?_extend hpipe]
  rfl

theorem steady_filters (c : Cursor) : IsSteadyAt more filters c := by
  intro hdecided
  fun_induction filters c with
  | case1 c opened hnone =>
      have hsees : c.Sees := (Cursor.takes_skipBlanks c).sees hdecided
      rw [filters_eq, Cursor.skipBlanks_extend hsees]
      simp only [Cursor.accept?_extend_none (Cursor.sees_iff_skipBlanks.mp hsees) hnone,
        extendResult]
      rfl
  | case2 c opened c₁ h₁ e he =>
      have hfront := (Cursor.takes_skipBlanks c).trans (Cursor.takes_accept? h₁)
      have huse := (steady_filterUse more _ c₁).error he (hfront.same_stop ▸ hdecided)
      rw [filters_extend_of_pipe more h₁, huse]
      rfl
  -- The fault is in a later filter, and this one was read up to a sign that decides its end.
  | case3 c opened c₁ h₁ f c₂ h₂ e he ih =>
      rcases takes_filterUse h₂ with ⟨cs, _, htakes, _⟩
      have hfront := (Cursor.takes_skipBlanks c).trans ((Cursor.takes_accept? h₁).trans htakes)
      have hrest : IsDecided c₂.stop (filters c₂) := by
        rw [he, hfront.same_stop]
        exact hdecided
      rw [filters_extend_of_pipe more h₁,
        (steady_filterUse more _ c₁).ok h₂ (sees_of_filters hrest)]
      simp only [ih hrest, he, extendResult]
  | case4 c opened c₁ h₁ f c₂ h₂ fs c₃ h₃ ih =>
      have hrest : IsDecided c₂.stop (filters c₂) := by
        rw [h₃]
        exact hdecided
      rw [filters_extend_of_pipe more h₁,
        (steady_filterUse more _ c₁).ok h₂ (sees_of_filters hrest)]
      simp only [ih hrest, h₃, extendResult]

theorem closeTag_error_eq {fault : ReadFault} {c : Cursor} {e : ReadError}
    (h : closeTag fault c = .error e) : e = ⟨fault, c.skipBlanks.offset⟩ := by
  unfold closeTag at h
  split at h
  · cases h
    rfl
  · cases h

theorem sees_of_closeTag {fault : ReadFault} {c : Cursor} {e : ReadError}
    (h : closeTag fault c = .error e) (he : e.IsDecided c.stop) : c.Sees := by
  refine Cursor.sees_iff_skipBlanks.mpr (Cursor.ne_nil_of_ne_stop ?_)
  have hoffset := he.2
  rwa [closeTag_error_eq h, ← (Cursor.takes_skipBlanks c).same_stop] at hoffset

theorem closeTag_extend {fault : ReadFault} {c : Cursor} {e : ReadError}
    (h : closeTag fault c = .error e) (he : e.IsDecided c.stop) :
    closeTag fault (c.extend more) = .error e := by
  have hsees := sees_of_closeTag h he
  unfold closeTag at h ⊢
  split at h
  · next hnone =>
      rw [Cursor.skipBlanks_extend hsees,
        Cursor.accept?_extend_none (Cursor.sees_iff_skipBlanks.mp hsees) hnone]
      exact h
  · cases h

theorem inclusionTag_extend {start : Nat} {c : Cursor} {e : ReadError}
    (h : inclusionTag start c = .error e) (he : e.IsDecided c.stop) :
    inclusionTag start (c.extend more) = .error e := by
  have hopened := Cursor.takes_skipBlanks c
  unfold inclusionTag at h ⊢
  split at h
  · next e' hpath =>
      cases h
      rw [← hopened.same_stop] at he
      have hsees : c.Sees := Cursor.sees_iff_skipBlanks.mpr (ne_nil_of_path hpath he)
      rw [Cursor.skipBlanks_extend hsees, (steady_path more _).error hpath he]
  · next names c₁ hpath =>
      split at h
      · next e' hclose =>
          cases h
          have hfront := hopened.trans (takes_path hpath).2
          rw [← hfront.same_stop] at he
          have hsees := sees_of_closeTag hclose he
          rw [Cursor.skipBlanks_extend (hfront.sees hsees), (steady_path more _).ok hpath hsees]
          simp only [closeTag_extend more hclose he]
      · cases h

theorem placeholderTag_extend {start : Nat} {c : Cursor} {e : ReadError}
    (h : placeholderTag start c = .error e) (he : e.IsDecided c.stop) :
    placeholderTag start (c.extend more) = .error e := by
  unfold placeholderTag at h ⊢
  -- Whichever part has the fault, the parts in front of it are read as before.
  split at h
  · next e' hpath =>
      cases h
      rw [(steady_path more c).error hpath he]
  · next names c₁ hpath =>
      have hnames := (takes_path hpath).2
      rw [← hnames.same_stop] at he
      split at h
      · next e' hfilters =>
          cases h
          have hdecided : IsDecided c₁.stop (filters c₁) := by
            rw [hfilters]
            exact he
          rw [(steady_path more c).ok hpath (sees_of_filters hdecided)]
          simp only [(steady_filters more c₁).error hfilters he]
      · next fs c₂ hfilters =>
          split at h
          · next e' hclose =>
              cases h
              rcases takes_filters hfilters with ⟨cs, _, htakes, _⟩
              rw [← htakes.same_stop] at he
              have hsees := sees_of_closeTag hclose he
              rw [(steady_path more c).ok hpath (htakes.sees hsees)]
              simp only [(steady_filters more c₁).ok hfilters hsees, closeTag_extend more hclose he]
          · cases h

theorem tag_extend {start : Nat} {c : Cursor} {e : ReadError} (h : tag start c = .error e)
    (he : e.IsDecided c.stop) : c.rest ≠ [] ∧ tag start (c.extend more) = .error e := by
  unfold tag at h ⊢
  split at h
  · next c₁ h₁ =>
      have hsign := Cursor.takes_accept? h₁
      rw [← hsign.same_stop] at he
      refine ⟨(Cursor.sees_of_accept? (by decide) h₁).ne_nil, ?_⟩
      rw [Cursor.accept?_extend h₁]
      exact inclusionTag_extend more h he
  · next hnone =>
      have hne : c.rest ≠ [] := by
        unfold placeholderTag at h
        split at h
        · next e' hpath =>
            cases h
            exact ne_nil_of_path hpath he
        · next names c₁ hpath =>
            -- A path that was read was there.
            intro hnil
            have hlength := (passes_path hpath).length_lt
            rw [hnil] at hlength
            exact Nat.not_lt_zero _ hlength
      refine ⟨hne, ?_⟩
      rw [Cursor.accept?_extend_none hne hnone]
      exact placeholderTag_extend more h he

theorem PiecesAt.nodes_append_brace {o : Nat} {before tail : List Char} {ns : List Node}
    {e : ReadError} (h : PiecesAt o before ns)
    (htail : nodes ⟨'{' :: tail, o + byteLength before⟩ = .error e) :
    nodes ⟨before ++ '{' :: tail, o⟩ = .error e := by
  induction h with
  | nil => exact htail
  | @cons o cs rest n ns hpiece _ ih =>
      rw [byteLength_append, ← Nat.add_assoc] at htail
      rw [List.append_assoc, (pieceAt_append_brace.mpr hpiece).nodes_eq, ih htail]
      rfl

theorem nodes_extend {c : Cursor} {e : ReadError} (h : nodes c = .error e)
    (he : e.IsDecided c.stop) : nodes (c.extend more) = .error e := by
  rcases stopsInTag_of_nodes h with ⟨before, ns, d, hbefore, hpieces, hsingle, htag⟩
  rw [← hbefore.same_stop] at he
  rcases tag_extend more htag he with ⟨hne, hagain⟩
  have hoffset : d.offset = c.offset + byteLength before + '{'.utf8Size := by
    rw [hbefore.2, byteLength_append, Nat.add_assoc]
    rfl
  have hrest : (c.extend more).rest = before ++ '{' :: (d.rest ++ more) := by
    rw [Cursor.extend, hbefore.1, List.append_assoc, List.append_assoc, List.singleton_append]
  -- The brace is still a single one, since what follows it has been seen.
  have hopening : nodes ⟨'{' :: (d.rest ++ more), c.offset + byteLength before⟩ = .error e := by
    rw [nodes_cons, if_neg, if_pos rfl, ← hoffset]
    · rw [Cursor.extend] at hagain
      rw [hagain]
    · rintro ⟨_, hdouble⟩
      rw [List.head?_append_of_ne_nil _ hne] at hdouble
      exact hsingle hdouble
  have hall := hpieces.nodes_append_brace hopening
  rw [← hrest] at hall
  exact hall

/-- Faults are reported at the earliest possible place. The offset is a character boundary of the
    source, and up to there the source can be completed to a template. Unless text in quotes is
    never closed, or the fault lies at the end, it does not depend on what follows: whatever is put
    behind the source, the same fault is reported at the same offset. -/
theorem error_earliest {source : String} {e : ReadError} (h : readTemplate source = .error e) :
    (⟨e.offset⟩ : String.Pos.Raw).IsValid source ∧ e.offset ≤ source.utf8ByteSize ∧
      (∃ more ns, readTemplate ((⟨0, e.offset⟩ : Span).slice source ++ more) = .ok ns) ∧
      (e.text ≠ "Unterminated string" → e.offset ≠ source.utf8ByteSize →
        ∀ more, readTemplate (source ++ more) = .error e) := by
  rcases exists_completion h with ⟨taken, rest, more, ns, hsource, hoffset, hread⟩
  have hcut : StandsIn source [] taken ⟨0, e.offset⟩ := by
    refine ⟨⟨rest, hsource⟩, ?_⟩
    rw [hoffset]
    rfl
  refine ⟨hcut.isAligned.2, ?_, ⟨String.ofList more, ns, ?_⟩, ?_⟩
  · rw [hoffset, ← byteLength_toList, hsource, byteLength_append]
    omega
  · rw [hcut.slice_eq, ← String.ofList_append]
    exact hread
  · intro htext hend more
    have hdecided : e.IsDecided (Cursor.start source).stop := by
      refine ⟨fun hfault => htext ?_, ?_⟩
      · rw [ReadError.text, hfault]
        rfl
      · rw [Cursor.stop, Cursor.start, byteLength_toList, Nat.zero_add]
        exact hend
    have hagain := nodes_extend more.toList h hdecided
    rw [readTemplate, Cursor.start, String.toList_append]
    exact hagain

/-- A source with characters of two bytes, in which a letter is escaped that cannot be. -/
def misspelt : String := "é\x7bü|f:'\\q'\x7d"

theorem error_earliest_misspelt :
    readTemplate misspelt = .error ⟨.escapeUnknown 'q', 9⟩ ∧
      (⟨9⟩ : String.Pos.Raw).IsValid misspelt ∧ 9 ≤ misspelt.utf8ByteSize ∧
      (∃ more ns, readTemplate ((⟨0, 9⟩ : Span).slice misspelt ++ more) = .ok ns) ∧
      ∀ more, readTemplate (misspelt ++ more) = .error ⟨.escapeUnknown 'q', 9⟩ := by
  have hread : readTemplate misspelt = .error ⟨.escapeUnknown 'q', 9⟩ := by decide +kernel
  rcases error_earliest hread with ⟨hvalid, hle, hcompletion, hdecided⟩
  exact ⟨hread, hvalid, hle, hcompletion, hdecided (by decide) (by decide)⟩

end Letterpress
