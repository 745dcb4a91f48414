import Letterpress.Proofs.Grammar

/-!
# What Readers Take

The readers of names, quotes, arguments and single filters, each with two lemmas. A reader that
succeeds has taken characters that the rules of the grammar derive; and in front of characters
that the rules derive it takes all of them, provided that what follows cannot be taken for more.

Both are stated with `Takes`, which names the characters between two cursors. A cursor and the
characters taken from it determine the cursor behind them, offset included, so no proof here has
to add up bytes.

What has to follow differs from piece to piece. A name must not be followed by a part of a name,
while an argument must be followed by one of the signs that end it, or by the end of the source,
since nothing else stops its reader. A filter without arguments is in between: the blanks behind
it are not its own, but its reader looks across them for a colon.

## Main definitions

* `Cursor.Takes`: The characters between two cursors.
* `EndsAt`: The next character, if there is one, is one of a few signs.

## Theorems

* `Takes.trans`, `Takes.exists_between`: Steps can be chained, and taken apart.
* `takes_identifier`, `takes_path`, `takes_quotedText`, `takes_argument`, `takes_arguments`,
  `takes_filterUse`: What a reader takes is derived by the rules.
* `identifier_of_takes`, `path_of_takes`, `quotedText_of_takes`, `argument_of_takes`,
  `arguments_of_takes`, `filterUse_of_takes`: What the rules derive is taken by the reader.
-/

namespace Letterpress

/-- The next character, if there is one, is one of a few signs. -/
def EndsAt (signs : List Char) (rest : List Char) : Prop := ∀ c ∈ rest.head?, c ∈ signs

theorem EndsAt.stopsAt {signs rest : List Char} {p : Char → Bool} (h : EndsAt signs rest)
    (hp : ∀ c ∈ signs, p c = false) : StopsAt p rest :=
  fun c hc => hp c (h c hc)

theorem endsAt_cons {signs : List Char} {c : Char} (h : c ∈ signs) (rest : List Char) :
    EndsAt signs (c :: rest) := by
  intro d hd
  rw [List.head?_cons, Option.mem_some_iff] at hd
  exact hd ▸ h

/-- The signs that may stand behind an argument. -/
def argumentEnds : List Char := ',' :: filterEnds

theorem mem_argumentEnds {c : Char} : c ∈ argumentEnds ↔ isArgumentEnd c = true := by
  rw [isArgumentEnd_iff, argumentEnds, List.mem_cons, mem_filterEnds]

theorem EndsAt.of_filterEnds {rest : List Char} (h : EndsAt filterEnds rest) :
    EndsAt argumentEnds rest :=
  fun c hc => List.mem_cons_of_mem _ (h c hc)

theorem EndsAt.stopsAt_isBlank {rest : List Char} (h : EndsAt argumentEnds rest) :
    StopsAt Text.isBlank rest :=
  h.stopsAt fun _ hc => isBlank_of_isArgumentEnd (mem_argumentEnds.mp hc)

namespace Cursor

/-- The second cursor lies behind the first, with the given characters in between. -/
def Takes (c : Cursor) (taken : List Char) (d : Cursor) : Prop :=
  c.rest = taken ++ d.rest ∧ d.offset = c.offset + byteLength taken

theorem Takes.trans {a b c : Cursor} {s t : List Char} (hab : a.Takes s b) (hbc : b.Takes t c) :
    a.Takes (s ++ t) c := by
  rcases hab with ⟨hs, hs'⟩
  rcases hbc with ⟨ht, ht'⟩
  refine ⟨by rw [hs, ht, List.append_assoc], ?_⟩
  rw [ht', hs', byteLength_append, Nat.add_assoc]

/-- Between the characters taken at first and those taken then there is a cursor. -/
theorem Takes.exists_between {a c : Cursor} {s t : List Char} (h : a.Takes (s ++ t) c) :
    ∃ b, a.Takes s b ∧ b.Takes t c := by
  rcases h with ⟨hrest, hoffset⟩
  refine ⟨⟨t ++ c.rest, a.offset + byteLength s⟩, ⟨?_, rfl⟩, rfl, ?_⟩
  · rw [hrest, List.append_assoc]
  · rw [hoffset, byteLength_append, Nat.add_assoc]

theorem Takes.exists_behind {a c : Cursor} {x : Char} {t : List Char} (h : a.Takes (x :: t) c) :
    ∃ b, a.Takes [x] b ∧ b.Takes t c :=
  exists_between (s := [x]) h

theorem Takes.start_eq {c d : Cursor} {taken : List Char} (h : c.Takes taken d) :
    c = ⟨taken ++ d.rest, c.offset⟩ := by
  rw [← h.1]

theorem Takes.stop_eq {c d : Cursor} {taken : List Char} (h : c.Takes taken d) :
    (⟨d.rest, c.offset + byteLength taken⟩ : Cursor) = d := by
  rw [← h.2]

/-- What a cursor sees is what is taken from it, and then what is left. -/
theorem Takes.stopsAt {p : Char → Bool} {c d : Cursor} {taken : List Char}
    (h : c.Takes taken d) (hstop : StopsAt p (taken ++ d.rest)) : StopsAt p c.rest :=
  h.1 ▸ hstop

theorem takes_cons (d : Char) (rest : List Char) (offset : Nat) :
    (⟨d :: rest, offset⟩ : Cursor).Takes [d] ⟨rest, offset + d.utf8Size⟩ := ⟨rfl, rfl⟩

theorem takes_takeWhile (p : Char → Bool) (c : Cursor) :
    c.Takes (c.rest.takeWhile p) (c.takeWhile p).2 :=
  ⟨List.takeWhile_append_dropWhile.symm, rfl⟩

theorem takeWhile_of_takes {p : Char → Bool} {c d : Cursor} {cs : List Char} (h : c.Takes cs d)
    (hall : ∀ x ∈ cs, p x = true) (hstop : StopsAt p d.rest) : c.takeWhile p = (cs, d) := by
  rw [h.start_eq, takeWhile_append hall hstop, h.stop_eq]

theorem takes_skipBlanks (c : Cursor) : c.Takes (c.rest.takeWhile Text.isBlank) c.skipBlanks :=
  takes_takeWhile Text.isBlank c

theorem skipBlanks_of_takes {c d : Cursor} {cs : List Char} (h : c.Takes cs d)
    (hblanks : IsBlanks cs) (hstop : StopsAt Text.isBlank d.rest) : c.skipBlanks = d := by
  unfold skipBlanks
  rw [takeWhile_of_takes h hblanks hstop]

theorem stopsAt_skipBlanks (c : Cursor) : StopsAt Text.isBlank c.skipBlanks.rest :=
  stopsAt_dropWhile Text.isBlank c.rest

theorem takes_accept? {x : Char} {c d : Cursor} (h : c.accept? x = some d) : c.Takes [x] d := by
  rcases c with ⟨rest, offset⟩
  cases rest with
  | nil => cases h
  | cons e rest =>
      simp only [accept?] at h
      split at h
      · next heq =>
          cases h
          rw [← heq]
          exact takes_cons e rest offset
      · cases h

theorem accept?_of_takes {x : Char} {c d : Cursor} (h : c.Takes [x] d) : c.accept? x = some d := by
  rw [h.start_eq, List.singleton_append, accept?_cons_self]
  exact congrArg some h.stop_eq

theorem accept?_eq_none {x : Char} {c : Cursor} (h : StopsAt (· == x) c.rest) :
    c.accept? x = none :=
  accept?_of_stopsAt h c.offset

end Cursor

open Cursor (Takes)

theorem takes_identifier {c d : Cursor} {name : String} (h : identifier c = .ok (name, d)) :
    isName name = true ∧ c.Takes name.toList d := by
  rcases c with ⟨rest, offset⟩
  cases rest with
  | nil => cases h
  | cons e rest =>
      simp only [identifier] at h
      split at h
      · next hstart =>
          cases h
          rw [String.toList_ofList]
          refine ⟨?_, (Cursor.takes_cons e rest offset).trans (Cursor.takes_takeWhile _ _)⟩
          unfold isName
          rw [String.toList_ofList, Bool.and_eq_true]
          exact ⟨hstart, List.all_takeWhile⟩
      · cases h

theorem identifier_of_takes {c d : Cursor} {name : String} (hname : isName name = true)
    (h : c.Takes name.toList d) (hstop : StopsAt isNamePart d.rest) :
    identifier c = .ok (name, d) := by
  rw [h.start_eq, identifier_append hname hstop, h.stop_eq]

theorem takes_path {c d : Cursor} {names : List String} (h : path c = .ok (names, d)) :
    IsPath names ∧ c.Takes (dotted names).toList d := by
  fun_induction path c generalizing names d with
  | case1 => cases h
  | case2 c name c₁ h₁ _ =>
      cases h
      rcases takes_identifier h₁ with ⟨hname, htakes⟩
      refine ⟨⟨List.cons_ne_nil _ _, ?_⟩, ?_⟩
      · intro n hn
        rw [List.mem_singleton.mp hn]
        exact hname
      · rw [dotted_singleton]
        exact htakes
  | case3 => cases h
  | case4 c name c₁ h₁ c₂ h₂ names' c₃ h₃ ih =>
      -- A name, a point, and the path behind it.
      cases h
      rcases takes_identifier h₁ with ⟨hname, hfirst⟩
      rcases ih h₃ with ⟨⟨hne, hnames⟩, hothers⟩
      refine ⟨⟨List.cons_ne_nil _ _, ?_⟩, ?_⟩
      · intro n hn
        rcases List.mem_cons.mp hn with hn | hn
        · rw [hn]
          exact hname
        · exact hnames n hn
      · rw [toList_dotted_cons name hne]
        exact hfirst.trans ((Cursor.takes_accept? h₂).trans hothers)

/-- A path is read up to its end, if behind the blanks that follow there is a pipe or a closing
    brace. None of these is a part of a name, or a point. -/
theorem path_of_takes {c d : Cursor} {names : List String} (hpath : IsPath names)
    (h : c.Takes (dotted names).toList d)
    (hend : EndsAt filterEnds (d.rest.dropWhile Text.isBlank)) : path c = .ok (names, d) := by
  have hname : StopsAt isNamePart d.rest :=
    stopsAt_of_dropWhile (fun _ => isBlank_of_isNamePart)
      (hend.stopsAt fun _ => isNamePart_of_mem_filterEnds)
  have hpoint : StopsAt (· == '.') d.rest := by
    refine stopsAt_of_dropWhile (fun x hx => ?_) (hend.stopsAt fun x hx => ?_)
    · rw [beq_iff_eq.mp hx]
      decide
    · exact beq_eq_false_iff_ne.mpr (ne_of_mem_filterEnds hx).1
  rw [h.start_eq, path_append hpath hname hpoint, h.stop_eq]

theorem takes_quotedText {quote : Char} {opened offset : Nat} {cs s : List Char} {d : Cursor}
    (h : quotedText quote opened cs offset = .ok (s, d)) :
    ∃ body, IsQuoted quote body s ∧ (⟨cs, offset⟩ : Cursor).Takes (body ++ [quote]) d := by
  fun_induction quotedText quote opened cs offset generalizing s d with
  | case1 => cases h
  | case2 rest offset =>
      -- The quote that closes the text is taken, but is no part of its body.
      cases h
      exact ⟨[], .nil, Cursor.takes_cons quote rest offset⟩
  | case3 => cases h
  | case4 => cases h
  | case5 offset e rest he t d' hd hquote ih =>
      cases h
      rcases ih hd with ⟨body, hbody, htakes⟩
      exact ⟨'\\' :: e :: body, .escape (isEscapable_iff.mp he) hbody,
        (Cursor.takes_cons '\\' (e :: rest) offset).trans
          ((Cursor.takes_cons e rest (offset + 1)).trans htakes)⟩
  | case6 => cases h
  | case7 => cases h
  | case8 c rest offset hquote hslash t d' hd ih =>
      cases h
      rcases ih hd with ⟨body, hbody, htakes⟩
      exact ⟨c :: body, .plain hquote hslash hbody, (Cursor.takes_cons c rest offset).trans htakes⟩

/-- Text in quotes is read up to the quote that closes it. -/
theorem quotedText_append {quote : Char} {body s : List Char} (hquote : quote ≠ '\\')
    (hbody : IsQuoted quote body s) (opened : Nat) (rest : List Char) (offset : Nat) :
    quotedText quote opened (body ++ quote :: rest) offset =
      .ok (s, ⟨rest, offset + byteLength (body ++ [quote])⟩) := by
  induction hbody generalizing offset with
  | nil =>
      rw [List.nil_append, quotedText.eq_def]
      simp only [if_pos]
      rfl
  | plain hnotquote hslash _ ih =>
      rw [List.cons_append, quotedText.eq_def]
      simp only [if_neg hnotquote, if_neg hslash, ih]
      rw [List.cons_append, byteLength_cons, Nat.add_assoc]
  | escape hc _ ih =>
      have hslash : '\\'.utf8Size = 1 := rfl
      rw [List.cons_append, List.cons_append, quotedText.eq_def]
      -- A backslash is never the quote itself, so it is looked at as an escape.
      simp only [if_neg hquote.symm, if_pos, isEscapable_iff.mpr hc, ih]
      simp only [List.cons_append, byteLength_cons, hslash, Nat.add_assoc]

theorem quotedText_of_takes {quote : Char} {body s : List Char} (hquote : quote ≠ '\\')
    (hbody : IsQuoted quote body s) (opened : Nat) {c d : Cursor}
    (h : c.Takes (body ++ [quote]) d) : quotedText quote opened c.rest c.offset = .ok (s, d) := by
  rw [h.1, List.append_assoc, List.singleton_append, quotedText_append hquote hbody, h.stop_eq]

theorem takes_afterQuoted {c d : Cursor} (h : afterQuoted c = .ok d) :
    ∃ after, IsBlanks after ∧ c.Takes after d ∧ EndsAt argumentEnds d.rest := by
  refine ⟨c.rest.takeWhile Text.isBlank, isBlanks_takeWhile _, ?_⟩
  simp only [afterQuoted, Cursor.next?] at h
  split at h
  · next hnone =>
      cases h
      refine ⟨Cursor.takes_skipBlanks c, fun x hx => ?_⟩
      rw [hnone] at hx
      cases hx
  · next x hsome =>
      split at h
      · next hend =>
          cases h
          refine ⟨Cursor.takes_skipBlanks c, fun y hy => ?_⟩
          rw [hsome, Option.mem_some_iff] at hy
          exact mem_argumentEnds.mpr (hy ▸ hend)
      · cases h

theorem afterQuoted_of_takes {c d : Cursor} {after : List Char} (hafter : IsBlanks after)
    (h : c.Takes after d) (hend : EndsAt argumentEnds d.rest) : afterQuoted c = .ok d := by
  unfold afterQuoted
  rw [Cursor.skipBlanks_of_takes h hafter hend.stopsAt_isBlank]
  simp only [Cursor.next?]
  cases hnext : d.rest.head? with
  | none => rfl
  | some x =>
      have hx : isArgumentEnd x = true := mem_argumentEnds.mp (hend x hnext)
      simp only [hx, if_pos]

theorem takes_bareArgument (c : Cursor) (hfirst : StopsAt isQuote c.skipBlanks.rest) :
    ∃ cs, IsArgument cs (bareArgument c).1 ∧ c.Takes cs (bareArgument c).2 ∧
      EndsAt argumentEnds (bareArgument c).2.rest := by
  have htakes := Cursor.takes_takeWhile (fun d => !isArgumentEnd d) c
  refine ⟨_, .bare (fun x hx => ?_) ?_, htakes, fun x hx => ?_⟩
  · have hall := List.all_eq_true.mp List.all_takeWhile x hx
    exact isArgumentEnd_eq_false_iff.mp (by simpa using hall)
  · -- The first character of the run that is no blank is the one that was looked at.
    rw [← stopsAt_isQuote_iff]
    by_cases hrun : (c.rest.takeWhile fun d => !isArgumentEnd d).dropWhile Text.isBlank = []
    · rw [hrun]
      exact stopsAt_nil isQuote
    · have hlooked : c.skipBlanks.rest = c.rest.dropWhile Text.isBlank := rfl
      rw [hlooked, htakes.1, dropWhile_append_of_ne_nil hrun] at hfirst
      exact hfirst.of_append_left
  · have hstop := stopsAt_dropWhile (fun d => !isArgumentEnd d) c.rest x hx
    exact mem_argumentEnds.mpr (by simpa using hstop)

theorem takes_argument {c d : Cursor} {arg : String} (h : argument c = .ok (arg, d)) :
    ∃ cs, IsArgument cs arg ∧ c.Takes cs d ∧ EndsAt argumentEnds d.rest := by
  simp only [argument] at h
  split at h
  · next hnone =>
      have hbare := takes_bareArgument c (by rw [hnone]; exact stopsAt_nil isQuote)
      rw [Except.ok.inj h] at hbare
      exact hbare
  · next q rest hsome =>
      split at h
      · next hquote =>
          split at h
          · cases h
          · next s closed hclosed =>
              split at h
              · cases h
              · next next hnext =>
                  cases h
                  rcases takes_quotedText hclosed with ⟨body, hbody, hbodytakes⟩
                  rcases takes_afterQuoted hnext with ⟨after, hafter, haftertakes, hend⟩
                  refine ⟨_, .quoted (isQuote_iff.mp hquote)
                    (isBlanks_takeWhile c.rest) hbody hafter, ?_, hend⟩
                  -- Blanks, the quote that opens, the body with the quote that closes, blanks.
                  have hopened : c.skipBlanks.Takes [q] ⟨rest, c.skipBlanks.offset + q.utf8Size⟩ :=
                    ⟨hsome, rfl⟩
                  have hall := (Cursor.takes_skipBlanks c).trans
                    (hopened.trans (hbodytakes.trans haftertakes))
                  simpa only [List.append_assoc, List.singleton_append] using hall
      · next hquote =>
          have hq : isQuote q = false := Bool.eq_false_iff.mpr hquote
          have hbare := takes_bareArgument c (by rw [hsome]; exact stopsAt_cons hq rest)
          rw [Except.ok.inj h] at hbare
          exact hbare

theorem argument_of_takes {c d : Cursor} {cs : List Char} {arg : String} (harg : IsArgument cs arg)
    (h : c.Takes cs d) (hend : EndsAt argumentEnds d.rest) : argument c = .ok (arg, d) := by
  cases harg with
  | @quoted quote before body after s hquote hbefore hbody hafter =>
      have hsign : isQuote quote = true := isQuote_iff.mpr hquote
      have hslash : quote ≠ '\\' := by
        rcases hquote with rfl | rfl
        · decide
        · decide
      have hblank : Text.isBlank quote = false := by
        rcases hquote with rfl | rfl
        · decide
        · decide
      rcases h.exists_between with ⟨c₁, h₁, h⟩
      rcases h.exists_behind with ⟨c₂, h₂, h⟩
      rw [List.append_cons] at h
      rcases h.exists_between with ⟨c₃, h₃, h₄⟩
      have hfirst : c₁.rest = quote :: c₂.rest := h₂.1
      have hopened := Cursor.skipBlanks_of_takes h₁ hbefore (h₂.stopsAt (stopsAt_cons hblank _))
      have hoffset : c₁.offset + quote.utf8Size = c₂.offset := h₂.2.symm
      simp only [argument, hopened, hfirst, hsign, if_pos, hoffset]
      simp only [quotedText_of_takes hslash hbody c₁.offset h₃, afterQuoted_of_takes hafter h₄ hend]
  | bare hrun hfirst =>
      have htaken : bareArgument c = (Text.trim (String.ofList cs), d) := by
        unfold bareArgument
        rw [Cursor.takeWhile_of_takes h]
        · intro x hx
          rw [isArgumentEnd_eq_false_iff.mpr (hrun x hx)]
          rfl
        · refine hend.stopsAt fun x hx => ?_
          rw [mem_argumentEnds.mp hx]
          rfl
      -- The reader looks for a quote across the blanks, which may be all there is in the run; then
      -- it sees what stands behind the argument.
      have hlooked : StopsAt isQuote c.skipBlanks.rest := by
        have hrest : c.skipBlanks.rest = (cs ++ d.rest).dropWhile Text.isBlank := by
          rw [← h.1]
          rfl
        rw [hrest]
        refine stopsAt_dropWhile_append (stopsAt_isQuote_iff.mpr hfirst) ?_
        rw [hend.stopsAt_isBlank.dropWhile]
        exact hend.stopsAt fun x hx => isQuote_of_isArgumentEnd (mem_argumentEnds.mp hx)
      simp only [argument]
      split
      · rw [htaken]
      · next q rest hsome =>
          have hq : isQuote q = false := hlooked q (by rw [hsome]; rfl)
          rw [hq, htaken]
          rfl

theorem takes_arguments {c d : Cursor} {args : List String} (h : arguments c = .ok (args, d)) :
    ∃ cs, IsArguments cs args ∧ c.Takes cs d ∧ EndsAt argumentEnds d.rest := by
  fun_induction arguments c generalizing args d with
  | case1 => cases h
  | case2 c arg c₁ h₁ _ =>
      cases h
      rcases takes_argument h₁ with ⟨cs, harg, htakes, hend⟩
      exact ⟨cs, .last harg, htakes, hend⟩
  | case3 => cases h
  | case4 c arg c₁ h₁ c₂ h₂ args' c₃ h₃ ih =>
      cases h
      rcases takes_argument h₁ with ⟨cs, harg, htakes, _⟩
      rcases ih h₃ with ⟨rest, hargs, hothers, hend⟩
      exact ⟨cs ++ ',' :: rest, .more harg hargs,
        htakes.trans ((Cursor.takes_accept? h₂).trans hothers), hend⟩

theorem arguments_of_takes {c d : Cursor} {cs : List Char} {args : List String}
    (hargs : IsArguments cs args) (h : c.Takes cs d) (hend : EndsAt filterEnds d.rest) :
    arguments c = .ok (args, d) := by
  induction hargs generalizing c with
  | last harg =>
      have hcomma : StopsAt (· == ',') d.rest :=
        hend.stopsAt fun x hx => beq_eq_false_iff_ne.mpr (ne_of_mem_filterEnds hx).2.1
      rw [arguments_eq, argument_of_takes harg h hend.of_filterEnds]
      simp only [Cursor.accept?_eq_none hcomma]
  | @more cs rest arg args harg _ ih =>
      rcases h.exists_between with ⟨c₁, h₁, h⟩
      rcases h.exists_behind with ⟨c₂, h₂, h₃⟩
      -- An argument that is not the last one is followed by its comma.
      have hfirst : EndsAt argumentEnds c₁.rest := by
        rw [h₂.1]
        exact endsAt_cons List.mem_cons_self c₂.rest
      rw [arguments_eq, argument_of_takes harg h₁ hfirst]
      simp only [Cursor.accept?_of_takes h₂, ih h₃]

/-- A filter ends with its name, or with the last of its arguments. -/
theorem takes_filterUse {start : Nat} {c d : Cursor} {f : FilterUse}
    (h : filterUse start c = .ok (f, d)) :
    ∃ cs, IsCall cs f.call ∧ c.Takes cs d ∧ f.span = ⟨start, d.offset⟩ ∧
      (f.args = [] ∨ StopsAt Text.isBlank d.rest) := by
  unfold filterUse at h
  split at h
  · cases h
  · next name c₁ h₁ =>
      rcases takes_identifier h₁ with ⟨hname, htakes⟩
      have hbefore := isBlanks_takeWhile c.rest
      have hnamed := (Cursor.takes_skipBlanks c).trans htakes
      split at h
      · cases h
      · next args c₂ h₂ =>
          cases h
          unfold filterArguments at h₂
          split at h₂
          · cases h₂
            exact ⟨_, .plain hbefore hname, hnamed, rfl, Or.inl rfl⟩
          · next c₃ h₃ =>
              -- Arguments take the blanks behind them, so none is left behind the call.
              rcases takes_arguments h₂ with ⟨cs, hargs, hothers, hend⟩
              have hbetween := isBlanks_takeWhile c₁.rest
              refine ⟨_, .applied hbefore hname hbetween hargs, ?_, rfl,
                Or.inr hend.stopsAt_isBlank⟩
              have hall := hnamed.trans ((Cursor.takes_skipBlanks c₁).trans
                ((Cursor.takes_accept? h₃).trans hothers))
              simpa only [List.append_assoc, List.singleton_append] using hall

/-- A filter is read up to its end, if behind the blanks that follow there is a pipe or a closing
    brace. With arguments there must be no such blanks, as the last argument would take them. -/
theorem filterUse_of_takes {c d : Cursor} {cs : List Char} {name : String} {args : List String}
    (hcall : IsCall cs (name, args)) (h : c.Takes cs d)
    (hend : EndsAt filterEnds (d.rest.dropWhile Text.isBlank))
    (hblank : args = [] ∨ StopsAt Text.isBlank d.rest) (start : Nat) :
    filterUse start c = .ok (⟨name, args, ⟨start, d.offset⟩⟩, d) := by
  unfold filterUse
  cases hcall with
  | @plain before _ hbefore hname =>
      rcases h.exists_between with ⟨c₁, h₁, h₂⟩
      have hopened := Cursor.skipBlanks_of_takes h₁ hbefore
        (h₂.stopsAt (stopsAt_name (fun _ => isBlank_of_isNamePart) hname _))
      -- No colon follows across the blanks, so the blanks are left where they are.
      have hcolon : StopsAt (· == ':') d.skipBlanks.rest :=
        hend.stopsAt fun x hx => beq_eq_false_iff_ne.mpr (ne_of_mem_filterEnds hx).2.2
      have hnamed : StopsAt isNamePart d.rest :=
        stopsAt_of_dropWhile (fun _ => isBlank_of_isNamePart)
          (hend.stopsAt fun _ => isNamePart_of_mem_filterEnds)
      rw [hopened, identifier_of_takes hname h₂ hnamed]
      simp only [filterArguments, Cursor.accept?_eq_none hcolon]
  | @applied before between cs _ _ hbefore hname hbetween hargs =>
      -- Blanks behind the arguments would have been taken for a part of the last one.
      have hnoblank := hblank.resolve_left hargs.ne_nil
      rw [hnoblank.dropWhile] at hend
      rcases h.exists_between with ⟨c₁, h₁, h⟩
      rcases h.exists_between with ⟨c₂, h₂, h⟩
      rcases h.exists_between with ⟨c₃, h₃, h⟩
      rcases h.exists_behind with ⟨c₄, h₄, h₅⟩
      have hopened := Cursor.skipBlanks_of_takes h₁ hbefore
        (h₂.stopsAt (stopsAt_name (fun _ => isBlank_of_isNamePart) hname _))
      have hsign : StopsAt Text.isBlank c₃.rest := h₄.stopsAt (stopsAt_cons (by decide) _)
      have hnamed : StopsAt isNamePart c₂.rest := by
        refine stopsAt_of_dropWhile (fun _ => isBlank_of_isNamePart) ?_
        rw [h₃.1, hbetween.dropWhile_append, hsign.dropWhile, h₄.1]
        exact stopsAt_cons (by decide) c₄.rest
      rw [hopened, identifier_of_takes hname h₂ hnamed]
      simp only [filterArguments, Cursor.skipBlanks_of_takes h₃ hbetween hsign,
        Cursor.accept?_of_takes h₄, arguments_of_takes hargs h₅ hend]

end Letterpress
