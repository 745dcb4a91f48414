import Letterpress.Proofs.Acceptance

/-!
# Completing What Was Read

A source that is no template is rejected at a certain offset. Up to there nothing is wrong with
it: some other characters behind that offset would have made it a template. So no reader goes on
once its source is beyond repair.

Each reader has a lemma that says so of the piece which it was to read, in terms of the rules of
the grammar. What completes a piece depends on where its reader stopped. Where a name was expected
a name will do, an unknown escape gives way to the closing quote, and in place of a closing brace
there is a closing brace. Text in quotes that is never closed is reported at its opening quote;
up to there the argument holds blanks and nothing else, which is a bare argument.

Above the tags there is nothing to complete. What stands in front of a tag that cannot be read is
a template by itself, and stays one with the tag behind it.

## Main definitions

* `Cursor.Begins`: The characters up to an offset begin something of a kind.
* `Cursor.StopsInTag`: A template, and then a tag that cannot be read.

## Theorems

* `begins_identifier`, `begins_path`, `begins_argument`, `begins_arguments`, `begins_filterUse`,
  `begins_filters`, `begins_tag`: What readers leave unfinished can be completed.
* `plainText_append_brace`: An opening brace ends plain text without changing it.
* `stopsInTag_of_nodes`: Reading stops inside of a tag, behind a template.
* `exists_completion`: A source can be completed from where reading stops.
-/

namespace Letterpress

open Cursor (Takes)

/-- The characters from a cursor up to an offset begin something of a kind. -/
def Cursor.Begins (c : Cursor) (offset : Nat) (kind : List Char → Prop) : Prop :=
  ∃ taken d, c.Takes taken d ∧ d.offset = offset ∧ ∃ more, kind (taken ++ more)

/-- From a cursor on there is a template, and behind it the opening brace of a tag that cannot be
    read. -/
def Cursor.StopsInTag (c : Cursor) (e : ReadError) : Prop :=
  ∃ before ns d, c.Takes (before ++ ['{']) d ∧ PiecesAt c.offset before ns ∧
    d.rest.head? ≠ some '{' ∧ tag (c.offset + byteLength before) d = .error e

namespace Cursor

theorem Takes.refl (c : Cursor) : c.Takes [] c := ⟨rfl, rfl⟩

/-- Where nothing has been taken, everything is still to come. -/
theorem begins_of_kind {c : Cursor} {kind : List Char → Prop} (more : List Char)
    (h : kind more) : c.Begins c.offset kind :=
  ⟨[], c, .refl c, rfl, more, h⟩

theorem Takes.begins {c d : Cursor} {taken : List Char} {kind : List Char → Prop}
    (htakes : c.Takes taken d) (more : List Char) (h : kind (taken ++ more)) :
    c.Begins d.offset kind :=
  ⟨taken, d, htakes, rfl, more, h⟩

/-- What begins behind characters that were taken begins with them. -/
theorem Begins.behind {c d : Cursor} {offset : Nat} {front : List Char}
    {kind whole : List Char → Prop} (h : d.Begins offset kind) (htakes : c.Takes front d)
    (hwhole : ∀ cs, kind cs → whole (front ++ cs)) : c.Begins offset whole := by
  rcases h with ⟨taken, stopped, hstopped, hoffset, more, hkind⟩
  refine ⟨front ++ taken, stopped, htakes.trans hstopped, hoffset, more, ?_⟩
  rw [List.append_assoc]
  exact hwhole _ hkind

/-- What begins may have something else behind it. -/
theorem Begins.before {c : Cursor} {offset : Nat} {kind whole : List Char → Prop}
    (h : c.Begins offset kind) (ending : List Char)
    (hwhole : ∀ cs, kind cs → whole (cs ++ ending)) : c.Begins offset whole := by
  rcases h with ⟨taken, stopped, hstopped, hoffset, more, hkind⟩
  refine ⟨taken, stopped, hstopped, hoffset, more ++ ending, ?_⟩
  rw [← List.append_assoc]
  exact hwhole _ hkind

end Cursor

theorem identifier_error_eq {c : Cursor} {e : ReadError} (h : identifier c = .error e) :
    e = ⟨.identifierExpected, c.offset⟩ := by
  unfold identifier at h
  split at h
  · cases h
    rfl
  · split at h
    · cases h
    · cases h
      rfl

theorem begins_identifier {c : Cursor} {e : ReadError} (h : identifier c = .error e) :
    c.Begins e.offset fun cs => ∃ name, isName name = true ∧ cs = name.toList := by
  rw [identifier_error_eq h]
  exact Cursor.begins_of_kind _ ⟨"x", by decide, rfl⟩

theorem begins_path {c : Cursor} {e : ReadError} (h : path c = .error e) :
    c.Begins e.offset fun cs => ∃ names, IsPath names ∧ cs = (dotted names).toList := by
  fun_induction path c with
  | case1 c e' he =>
      cases h
      refine (begins_identifier he).behind (.refl c) ?_
      rintro cs ⟨name, hname, rfl⟩
      refine ⟨[name], ⟨List.cons_ne_nil _ _, ?_⟩, by rw [dotted_singleton, List.nil_append]⟩
      exact List.forall_mem_singleton.mpr hname
  | case2 => cases h
  | case3 c name c₁ h₁ c₂ h₂ e' he ih =>
      -- A name and a point stand in front of the path that could not be read.
      cases h
      rcases takes_identifier h₁ with ⟨hname, hfirst⟩
      refine (ih he).behind (hfirst.trans (Cursor.takes_accept? h₂)) ?_
      rintro cs ⟨names, ⟨hne, hnames⟩, rfl⟩
      refine ⟨name :: names, ⟨List.cons_ne_nil _ _, List.forall_mem_cons.mpr ⟨hname, hnames⟩⟩, ?_⟩
      rw [toList_dotted_cons name hne, List.append_assoc, List.singleton_append]
  | case4 => cases h

/-- Text in quotes can be closed wherever its reader stops, unless that is its opening quote. -/
theorem begins_quotedText {quote : Char} {opened offset : Nat} {cs : List Char} {e : ReadError}
    (h : quotedText quote opened cs offset = .error e) : e = ⟨.quoteUnclosed, opened⟩ ∨
      (⟨cs, offset⟩ : Cursor).Begins e.offset fun cs =>
        ∃ body s, IsQuoted quote body s ∧ cs = body ++ [quote] := by
  have hescape : ∀ {offset : Nat} {cs : List Char}, (⟨'\\' :: cs, offset⟩ : Cursor).Takes ['\\']
      ⟨cs, offset + 1⟩ := Cursor.takes_cons '\\' _ _
  fun_induction quotedText quote opened cs offset with
  | case1 =>
      cases h
      exact Or.inl rfl
  | case2 => cases h
  | case3 offset =>
      -- The backslash that is there can be escaped.
      cases h
      refine Or.inr (hescape.begins ['\\', quote] ?_)
      exact ⟨['\\', '\\'], ['\\'], .escape (Or.inr (Or.inl rfl)) .nil, rfl⟩
  | case4 offset d rest hd err herr hquote ih =>
      cases h
      refine (ih herr).imp_right fun hbegins => ?_
      refine hbegins.behind (hescape.trans (Cursor.takes_cons d rest (offset + 1))) ?_
      rintro cs ⟨body, s, hbody, rfl⟩
      exact ⟨_, _, .escape (isEscapable_iff.mp hd) hbody, rfl⟩
  | case5 => cases h
  | case6 =>
      cases h
      exact Or.inr (Cursor.begins_of_kind [quote] ⟨[], [], .nil, rfl⟩)
  | case7 c rest offset hquote hslash err herr ih =>
      cases h
      refine (ih herr).imp_right fun hbegins => ?_
      refine hbegins.behind (Cursor.takes_cons c rest offset) ?_
      rintro cs ⟨body, s, hbody, rfl⟩
      exact ⟨_, _, .plain hquote hslash hbody, rfl⟩
  | case8 => cases h

theorem afterQuoted_error_eq {c : Cursor} {e : ReadError} (h : afterQuoted c = .error e) :
    e = ⟨.commaExpected, c.skipBlanks.offset⟩ := by
  simp only [afterQuoted] at h
  split at h
  · cases h
  · split at h
    · cases h
    · cases h
      rfl

/-- An argument cannot be read if it begins with a quote and the text in quotes cannot be read, or
    what follows it. -/
theorem quotedText_of_argument {c : Cursor} {e : ReadError} (h : argument c = .error e) :
    ∃ quote c₁, isQuote quote = true ∧ c.skipBlanks.Takes [quote] c₁ ∧
      (quotedText quote c.skipBlanks.offset c₁.rest c₁.offset = .error e ∨
        ∃ s c₂, quotedText quote c.skipBlanks.offset c₁.rest c₁.offset = .ok (s, c₂) ∧
          afterQuoted c₂ = .error e) := by
  simp only [argument] at h
  split at h
  · cases h
  · next q rest hsome =>
      split at h
      · next hquote =>
          refine ⟨q, ⟨rest, c.skipBlanks.offset + q.utf8Size⟩, hquote, ⟨hsome, rfl⟩, ?_⟩
          split at h
          · next e' he =>
              cases h
              exact Or.inl he
          · next s c₂ hs =>
              split at h
              · next e' he =>
                  cases h
                  exact Or.inr ⟨s, c₂, hs, he⟩
              · cases h
      · cases h

theorem begins_argument {c : Cursor} {e : ReadError} (h : argument c = .error e) :
    c.Begins e.offset fun cs => ∃ arg, IsArgument cs arg := by
  have hblanks := isBlanks_takeWhile c.rest
  have hopened := Cursor.takes_skipBlanks c
  rcases quotedText_of_argument h with ⟨quote, c₁, hquote, hsign, htext | ⟨s, c₂, htext, hafter⟩⟩
  · rcases begins_quotedText htext with rfl | hbegins
    · -- Without the quote there are only blanks in the argument.
      refine hopened.begins [] ⟨_, .bare ?_ ?_⟩
      · rw [List.append_nil]
        exact fun x hx => isArgumentEnd_eq_false_iff.mp (isArgumentEnd_of_isBlank (hblanks x hx))
      · rw [List.append_nil, hblanks.dropWhile]
        exact fun x hx => absurd hx (Option.not_mem_none x)
    · refine hbegins.behind (hopened.trans hsign) ?_
      rintro cs ⟨body, s, hbody, rfl⟩
      rw [List.append_assoc]
      exact ⟨_, .quoted (isQuote_iff.mp hquote) hblanks hbody isBlanks_nil⟩
  · -- The argument is there, and a comma is missing behind it.
    rw [afterQuoted_error_eq hafter]
    rcases takes_quotedText htext with ⟨body, hbody, hclosed⟩
    have hall := hopened.trans (hsign.trans (hclosed.trans (Cursor.takes_skipBlanks c₂)))
    refine hall.begins [] ⟨String.ofList s, ?_⟩
    have harg := IsArgument.quoted (isQuote_iff.mp hquote) hblanks hbody
      (isBlanks_takeWhile c₂.rest)
    simpa only [List.append_assoc, List.singleton_append, List.append_nil] using harg

theorem begins_arguments {c : Cursor} {e : ReadError} (h : arguments c = .error e) :
    c.Begins e.offset fun cs => ∃ args, IsArguments cs args := by
  fun_induction arguments c with
  | case1 c e' he =>
      cases h
      refine (begins_argument he).behind (.refl c) ?_
      rintro cs ⟨arg, harg⟩
      exact ⟨[arg], .last harg⟩
  | case2 => cases h
  | case3 c arg c₁ h₁ c₂ h₂ e' he ih =>
      cases h
      rcases takes_argument h₁ with ⟨cs, harg, hfirst, _⟩
      refine (ih he).behind (hfirst.trans (Cursor.takes_accept? h₂)) ?_
      rintro rest ⟨args, hargs⟩
      rw [List.append_assoc]
      exact ⟨arg :: args, .more harg hargs⟩
  | case4 => cases h

theorem begins_filterUse {start : Nat} {c : Cursor} {e : ReadError}
    (h : filterUse start c = .error e) : c.Begins e.offset fun cs => ∃ call, IsCall cs call := by
  have hblanks := isBlanks_takeWhile c.rest
  have hopened := Cursor.takes_skipBlanks c
  unfold filterUse at h
  split at h
  · next e' he =>
      cases h
      refine (begins_identifier he).behind hopened ?_
      rintro cs ⟨name, hname, rfl⟩
      exact ⟨(name, []), .plain hblanks hname⟩
  · next name c₁ h₁ =>
      rcases takes_identifier h₁ with ⟨hname, hnamed⟩
      split at h
      · next e' he =>
          cases h
          unfold filterArguments at he
          split at he
          · cases he
          · next c₂ h₂ =>
              have hbetween := isBlanks_takeWhile c₁.rest
              -- Everything up to the colon is there, and the arguments begin behind it.
              have hfront := hopened.trans (hnamed.trans ((Cursor.takes_skipBlanks c₁).trans
                (Cursor.takes_accept? h₂)))
              refine (begins_arguments he).behind hfront ?_
              rintro cs ⟨args, hargs⟩
              have hcall := IsCall.applied hblanks hname hbetween hargs
              refine ⟨(name, args), ?_⟩
              simpa only [List.append_assoc, List.singleton_append] using hcall
      · cases h

theorem begins_filters {c : Cursor} {e : ReadError} (h : filters c = .error e) :
    c.Begins e.offset fun cs => ∃ calls, IsChain cs calls := by
  fun_induction filters c with
  | case1 => cases h
  | case2 c opened c₁ h₁ e' he =>
      cases h
      have hfront := (Cursor.takes_skipBlanks c).trans (Cursor.takes_accept? h₁)
      refine (begins_filterUse he).behind hfront ?_
      rintro cs ⟨call, hcall⟩
      have hchain := IsChain.cons (isBlanks_takeWhile c.rest) hcall .nil
      rw [List.append_nil] at hchain
      rw [List.append_assoc]
      exact ⟨[call], hchain⟩
  | case3 c opened c₁ h₁ f c₂ h₂ e' he ih =>
      cases h
      rcases takes_filterUse h₂ with ⟨cs, hcall, htakes, _⟩
      have hfront := (Cursor.takes_skipBlanks c).trans ((Cursor.takes_accept? h₁).trans htakes)
      refine (ih he).behind hfront ?_
      rintro rest ⟨calls, hcalls⟩
      have hchain := IsChain.cons (isBlanks_takeWhile c.rest) hcall hcalls
      refine ⟨f.call :: calls, ?_⟩
      simpa only [List.append_assoc, List.singleton_append, List.nil_append, List.cons_append]
        using hchain
  | case4 => cases h

theorem begins_closeTag {fault : ReadFault} {c : Cursor} {e : ReadError}
    (h : closeTag fault c = .error e) :
    c.Begins e.offset fun cs => ∃ after, IsBlanks after ∧ cs = after ++ ['}'] := by
  unfold closeTag at h
  split at h
  · cases h
    exact (Cursor.takes_skipBlanks c).begins ['}'] ⟨_, isBlanks_takeWhile c.rest, rfl⟩
  · cases h

theorem begins_inclusionTag {start : Nat} {c c₁ : Cursor} {e : ReadError}
    (hsign : c.Takes ['>'] c₁) (h : inclusionTag start c₁ = .error e) :
    c.Begins e.offset fun cs => ∃ p, IsTemplate ('{' :: cs) [p] := by
  have hblanks := isBlanks_takeWhile c₁.rest
  have hopened := hsign.trans (Cursor.takes_skipBlanks c₁)
  unfold inclusionTag at h
  split at h
  · next e' he =>
      cases h
      have hclosed : c₁.skipBlanks.Begins e.offset fun cs =>
          ∃ names, IsPath names ∧ cs = (dotted names).toList ++ ['}'] := by
        refine (begins_path he).before ['}'] ?_
        rintro cs ⟨names, hpath, rfl⟩
        exact ⟨names, hpath, rfl⟩
      -- The sign and the blanks behind it are part of what has been taken.
      refine hclosed.behind hopened ?_
      rintro cs ⟨names, hpath, rfl⟩
      refine ⟨.inclusion (dotted names), ?_⟩
      have hrule := IsTemplate.inclusion hblanks hpath isBlanks_nil .nil
      simpa only [List.append_assoc, List.singleton_append, List.nil_append, List.cons_append]
        using hrule
  · next names c₂ h₂ =>
      rcases takes_path h₂ with ⟨hpath, hnames⟩
      split at h
      · next e' he =>
          cases h
          refine (begins_closeTag he).behind (hopened.trans hnames) ?_
          rintro cs ⟨after, hafter, rfl⟩
          refine ⟨.inclusion (dotted names), ?_⟩
          have hrule := IsTemplate.inclusion hblanks hpath hafter .nil
          simpa only [List.append_assoc, List.singleton_append, List.nil_append, List.cons_append]
            using hrule
      · cases h

theorem begins_placeholderTag {start : Nat} {c : Cursor} {e : ReadError}
    (h : placeholderTag start c = .error e) :
    c.Begins e.offset fun cs => ∃ p, IsTemplate ('{' :: cs) [p] := by
  unfold placeholderTag at h
  split at h
  · next e' he =>
      cases h
      refine (begins_path he).before ['}'] ?_
      rintro cs ⟨names, hpath, rfl⟩
      refine ⟨.placeholder names [], ?_⟩
      have hrule := IsTemplate.placeholder hpath .nil isBlanks_nil .nil
      simpa only [List.append_nil] using hrule
  · next names c₁ h₁ =>
      rcases takes_path h₁ with ⟨hpath, hnames⟩
      split at h
      · next e' he =>
          cases h
          have hclosed : c₁.Begins e.offset fun cs =>
              ∃ chain calls, IsChain chain calls ∧ cs = chain ++ ['}'] := by
            refine (begins_filters he).before ['}'] ?_
            rintro cs ⟨calls, hcalls⟩
            exact ⟨cs, calls, hcalls, rfl⟩
          refine hclosed.behind hnames ?_
          rintro cs ⟨chain, calls, hcalls, rfl⟩
          refine ⟨.placeholder names calls, ?_⟩
          have hrule := IsTemplate.placeholder hpath hcalls isBlanks_nil .nil
          simpa only [List.append_assoc, List.nil_append] using hrule
      · next fs c₂ h₂ =>
          split at h
          · next e' he =>
              cases h
              rcases takes_filters h₂ with ⟨cs, hcs, hfilters, _⟩
              -- Blanks behind the chain were taken with it, and belong to the end of the tag.
              rcases exists_isChain hcs with ⟨chain, between, rfl, hchain, hbetween⟩
              refine (begins_closeTag he).behind (hnames.trans hfilters) ?_
              rintro cs ⟨after, hafter, rfl⟩
              refine ⟨.placeholder names (fs.map FilterUse.call), ?_⟩
              have hrule := IsTemplate.placeholder hpath hchain (hbetween.append hafter) .nil
              simpa only [List.append_assoc] using hrule
          · cases h

theorem begins_tag {start : Nat} {c : Cursor} {e : ReadError} (h : tag start c = .error e) :
    c.Begins e.offset fun cs => ∃ p, IsTemplate ('{' :: cs) [p] := by
  unfold tag at h
  split at h
  · next c₁ h₁ => exact begins_inclusionTag (Cursor.takes_accept? h₁) h
  · exact begins_placeholderTag h

/-- An opening brace ends plain text, and does not change what is plain in front of it. -/
theorem plainText_append_brace (cs tail : List Char) :
    plainText (cs ++ '{' :: tail) = plainText cs := by
  induction cs with
  | nil => rfl
  | cons c cs ih =>
      have hhead : (cs ++ '{' :: tail).head? = some '}' ↔ cs.head? = some '}' := by
        cases cs with
        | nil => simp only [List.nil_append, List.head?_cons, List.head?_nil, Option.some.injEq,
            Char.reduceEq, reduceCtorEq]
        | cons d cs => exact Iff.rfl
      rw [List.cons_append]
      simp only [plainText, hhead, ih]

theorem startsPlain_append_brace {c : Char} {cs tail : List Char} :
    StartsPlain (c :: (cs ++ '{' :: tail)) ↔ StartsPlain (c :: cs) := by
  rw [← not_iff_not, ← plainText_eq_nil_iff, ← plainText_eq_nil_iff, ← List.cons_append,
    plainText_append_brace]

theorem pieceAt_append_brace {o : Nat} {cs rest tail : List Char} {n : Node} :
    PieceAt o cs (rest ++ '{' :: tail) n ↔ PieceAt o cs rest n := by
  constructor
  · intro h
    cases h with
    | brace hc => exact .brace hc
    | plain hfirst hrun =>
        rw [← List.append_assoc] at hfirst hrun
        rw [plainText_append_brace] at hrun
        exact .plain (startsPlain_append_brace.mp hfirst) hrun
    | tag htag => exact .tag htag
  · intro h
    cases h with
    | brace hc => exact .brace hc
    | plain hfirst hrun =>
        refine .plain ?_ ?_
        · rw [← List.append_assoc]
          exact startsPlain_append_brace.mpr hfirst
        · rw [← List.append_assoc, plainText_append_brace]
          exact hrun
    | tag htag => exact .tag htag

/-- One more piece in front of what stands before the tag. -/
theorem Cursor.StopsInTag.behind {c d : Cursor} {cs : List Char} {n : Node} {e : ReadError}
    (htakes : c.Takes cs d) (hpiece : PieceAt c.offset cs d.rest n) (h : d.StopsInTag e) :
    c.StopsInTag e := by
  rcases h with ⟨before, ns, stopped, hbefore, hpieces, hsingle, htag⟩
  have hrest : d.rest = before ++ '{' :: stopped.rest := by
    rw [hbefore.1, List.append_assoc, List.singleton_append]
  rw [hrest, pieceAt_append_brace] at hpiece
  rw [htakes.2] at hpieces htag
  refine ⟨cs ++ before, n :: ns, stopped, ?_, .cons hpiece hpieces, hsingle, ?_⟩
  · rw [List.append_assoc]
    exact htakes.trans hbefore
  · rw [byteLength_append, ← Nat.add_assoc]
    exact htag

/-- Reading stops inside of a tag. What stands in front of the tag is a template. -/
theorem stopsInTag_of_nodes {c : Cursor} {e : ReadError} (h : nodes c = .error e) :
    c.StopsInTag e := by
  fun_induction nodes c with
  | case1 => cases h
  | case2 c d rest hrest hdouble e' he ih =>
      cases h
      rcases List.head?_eq_some_iff.mp hdouble.2 with ⟨tail, htail⟩
      have htakes : c.Takes [d, d] ⟨rest.tail, c.offset + 2⟩ := by
        refine ⟨?_, by rw [byteLength_doubled hdouble.1]⟩
        rw [hrest, htail]
        rfl
      exact (ih he).behind htakes (.brace hdouble.1)
  | case3 => cases h
  -- Only a tag can have the fault; in all other cases the rest of the source has it.
  | case4 c rest e' hrest hsingle htag =>
      cases h
      refine ⟨[], [], ⟨rest, c.offset + '{'.utf8Size⟩, ⟨hrest, rfl⟩, .nil, ?_, htag⟩
      exact fun hhead => hsingle ⟨Or.inl rfl, hhead⟩
  | case5 c rest n c₁ e' he hrest hsingle htag ih =>
      cases h
      have hopen : c.Takes ['{'] ⟨rest, c.offset + '{'.utf8Size⟩ := ⟨hrest, rfl⟩
      rcases takes_tag rfl htag with ⟨cs, hcs, htakes⟩
      exact (ih he).behind (hopen.trans htakes) (.tag hcs)
  | case6 => cases h
  | case7 c d rest hrest hsingle hopen plain c₁ e' he =>
      rename_i ih
      cases h
      have htakes : c.Takes (d :: plainText rest) c₁ := by
        refine ⟨?_, rfl⟩
        rw [hrest, List.cons_append, plainText_append]
      have hfirst : StartsPlain (d :: rest) :=
        ⟨hopen, fun hclose => hsingle ⟨Or.inr hclose.1, hclose.1 ▸ hclose.2⟩⟩
      exact (ih he).behind htakes (pieceAt_plainText hfirst c.offset)
  | case8 => cases h

theorem PiecesAt.append_brace {o : Nat} {before tail : List Char} {ns ms : List Node}
    (h : PiecesAt o before ns) (htail : PiecesAt (o + byteLength before) ('{' :: tail) ms) :
    PiecesAt o (before ++ '{' :: tail) (ns ++ ms) := by
  induction h with
  | nil => exact htail
  | @cons o cs rest n ns hpiece _ ih =>
      rw [byteLength_append, ← Nat.add_assoc] at htail
      rw [List.append_assoc]
      exact .cons (pieceAt_append_brace.mpr hpiece) (ih htail)

/-- Where a source cannot be read any further, other characters make it a template. -/
theorem exists_completion {source : String} {e : ReadError} (h : readTemplate source = .error e) :
    ∃ taken rest more ns, source.toList = taken ++ rest ∧ e.offset = byteLength taken ∧
      readTemplate (String.ofList (taken ++ more)) = .ok ns := by
  rcases stopsInTag_of_nodes h with ⟨before, ns, d, hfront, hpieces, _, htag⟩
  have hbegins : (Cursor.start source).Begins e.offset fun cs => ∃ ms, PiecesAt 0 cs ms := by
    refine (begins_tag htag).behind hfront ?_
    rintro cs ⟨p, hp⟩
    rcases exists_piecesAt hp (0 + byteLength before) with ⟨ms, hms, _⟩
    rw [List.append_assoc, List.singleton_append]
    exact ⟨ns ++ ms, hpieces.append_brace hms⟩
  rcases hbegins with ⟨taken, stopped, htakes, hoffset, more, ms, hms⟩
  refine ⟨taken, stopped.rest, more, ms, htakes.1, ?_, ?_⟩
  · rw [← hoffset, htakes.2]
    exact Nat.zero_add _
  · rw [readTemplate_iff_piecesAt, String.toList_ofList]
    exact hms

end Letterpress
