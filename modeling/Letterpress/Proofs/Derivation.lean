import Letterpress.Proofs.Taking

/-!
# Derivations

The pieces that a source is read into, each with the offset it stands at. The rules of the
grammar leave a choice where blanks may belong to an argument or to the pipe behind it, and a
span shows which way the choice went. Here it is made: arguments take the blanks behind them.
With that a derivation determines the spans, and the reader of a source finds exactly what can be
derived.

A piece is derived from its own characters. What stands behind it matters for a run of plain text
only, which has to end where the next brace begins, and there a run in front of something is a
run in front of nothing as well.

## Main definitions

* `ChainAt`: Filters at an offset, with the blanks around them.
* `TagAt`: A tag behind its opening brace, which stands at an offset.
* `PieceAt`: The characters of one node at an offset, and what stands behind them.
* `PiecesAt`: The nodes of a source from an offset on.

## Theorems

* `takes_filters`, `filters_of_takes`, `takes_tag`, `tag_of_takes`: The readers of chains and
  tags find what can be derived.
* `PieceAt.nodes_eq`: The reader of nodes finds a piece and goes on behind it.
* `readTemplate_iff_piecesAt`: So does the reader of a source.
-/

namespace Letterpress

open Cursor (Takes)

/-- Filters at an offset, with the blanks around them. Blanks behind arguments belong to them. -/
inductive ChainAt : Nat → List Char → List FilterUse → Prop where
  | nil {o : Nat} {blanks : List Char} (hblanks : IsBlanks blanks) : ChainAt o blanks []
  | cons {o : Nat} {before cs rest : List Char} {name : String} {args : List String}
      {fs : List FilterUse} (hbefore : IsBlanks before) (hcall : IsCall cs (name, args))
      (hnext : args = [] ∨ StopsAt Text.isBlank rest)
      (hrest : ChainAt (o + byteLength (before ++ '|' :: cs)) rest fs) :
      ChainAt o (before ++ '|' :: (cs ++ rest))
        (⟨name, args, ⟨o + byteLength before, o + byteLength (before ++ '|' :: cs)⟩⟩ :: fs)

/-- A tag behind its opening brace, which stands at an offset. -/
inductive TagAt (o : Nat) : List Char → Node → Prop where
  | inclusion {before after cs : List Char} {names : List String} (hbefore : IsBlanks before)
      (hpath : IsPath names) (hafter : IsBlanks after)
      (hcs : cs = '>' :: (before ++ ((dotted names).toList ++ (after ++ ['}'])))) :
      TagAt o cs (.inclusion ⟨dotted names, ⟨o, o + byteLength ('{' :: cs)⟩⟩)
  | placeholder {chain cs : List Char} {names : List String} {fs : List FilterUse}
      (hpath : IsPath names)
      (hchain : ChainAt (o + byteLength ('{' :: (dotted names).toList)) chain fs)
      (hcs : cs = (dotted names).toList ++ (chain ++ ['}'])) :
      TagAt o cs (.placeholder ⟨names, fs, ⟨o, o + byteLength ('{' :: cs)⟩⟩)

/-- The characters of one node at an offset, and what stands behind them. -/
inductive PieceAt (o : Nat) : List Char → List Char → Node → Prop where
  | brace {c : Char} {rest : List Char} (hc : c = '{' ∨ c = '}') :
      PieceAt o [c, c] rest (.text c.toString ⟨o, o + 2⟩)
  | plain {c : Char} {run rest : List Char} (hfirst : StartsPlain (c :: (run ++ rest)))
      (hrun : plainText (run ++ rest) = run) :
      PieceAt o (c :: run) rest (.text (String.ofList (c :: run)) ⟨o, o + byteLength (c :: run)⟩)
  | tag {cs rest : List Char} {n : Node} (htag : TagAt o cs n) : PieceAt o ('{' :: cs) rest n

/-- The nodes of a source from an offset on. -/
inductive PiecesAt : Nat → List Char → List Node → Prop where
  | nil {o : Nat} : PiecesAt o [] []
  | cons {o : Nat} {cs rest : List Char} {n : Node} {ns : List Node} (hpiece : PieceAt o cs rest n)
      (hrest : PiecesAt (o + byteLength cs) rest ns) : PiecesAt o (cs ++ rest) (n :: ns)

theorem takes_filters {c d : Cursor} {fs : List FilterUse} (h : filters c = .ok (fs, d)) :
    ∃ cs, ChainAt c.offset cs fs ∧ c.Takes cs d ∧ StopsAt Text.isBlank d.rest := by
  fun_induction filters c generalizing fs d with
  | case1 c _ =>
      cases h
      exact ⟨_, .nil (isBlanks_takeWhile c.rest), Cursor.takes_skipBlanks c,
        Cursor.stopsAt_skipBlanks c⟩
  | case2 => cases h
  | case3 => cases h
  | case4 c opened c₁ h₁ f c₂ h₂ fs' c₃ h₃ =>
      rename_i ih
      cases h
      rcases takes_filterUse h₂ with ⟨cs, hcall, htakes, hspan, hblank⟩
      rcases ih h₃ with ⟨rest, hchain, hothers, hstop⟩
      have hbefore := Cursor.takes_skipBlanks c
      have hfirst : c.Takes (c.rest.takeWhile Text.isBlank ++ '|' :: cs) c₂ :=
        hbefore.trans ((Cursor.takes_accept? h₁).trans htakes)
      -- The span of the filter names the cursors at its pipe and behind it; what was taken in
      -- between says how far apart they are.
      rcases f with ⟨name, args, span⟩
      have hspan : span = ⟨opened.offset, c₂.offset⟩ := hspan
      have hnext : args = [] ∨ StopsAt Text.isBlank rest :=
        hblank.imp_right fun hstops => StopsAt.of_append_left (hothers.1 ▸ hstops)
      rw [hspan, hfirst.2, hbefore.2]
      rw [hfirst.2] at hchain
      refine ⟨_, .cons (isBlanks_takeWhile c.rest) hcall hnext hchain, ?_, hstop⟩
      have hall := hfirst.trans hothers
      rwa [List.append_assoc, List.cons_append] at hall

/-- Across the blanks behind a filter there is the pipe of the next one, or what stands behind the
    chain. -/
theorem ChainAt.endsAt {o : Nat} {cs tail : List Char} {fs : List FilterUse}
    (h : ChainAt o cs fs) : EndsAt filterEnds ((cs ++ '}' :: tail).dropWhile Text.isBlank) := by
  have hpipe : Text.isBlank '|' = false := by decide
  have hclose : Text.isBlank '}' = false := by decide
  cases h with
  | nil hblanks =>
      rw [hblanks.dropWhile_append, (stopsAt_cons hclose tail).dropWhile]
      exact endsAt_cons (by decide) tail
  | cons hbefore _ _ _ =>
      rw [List.append_assoc, hbefore.dropWhile_append, List.cons_append,
        (stopsAt_cons hpipe _).dropWhile]
      exact endsAt_cons (by decide) _

theorem filters_of_takes {o : Nat} {cs tail : List Char} {fs : List FilterUse}
    (hchain : ChainAt o cs fs) {c d : Cursor} (hoffset : c.offset = o) (h : c.Takes cs d)
    (hclose : d.rest = '}' :: tail) : filters c = .ok (fs, d) := by
  induction hchain generalizing c with
  | nil hblanks =>
      have hblank : Text.isBlank '}' = false := by decide
      have hpipe : '}' ≠ '|' := by decide
      have hopened : c.skipBlanks = d :=
        Cursor.skipBlanks_of_takes h hblanks (hclose ▸ stopsAt_cons hblank tail)
      have hnone : d.accept? '|' = none :=
        Cursor.accept?_eq_none (hclose ▸ stopsAt_sign hpipe tail)
      rw [filters_eq, hopened]
      simp only [hnone]
  | @cons o before cs rest name args fs hbefore hcall hnext hrest ih =>
      have hblank : Text.isBlank '|' = false := by decide
      rcases h.exists_between with ⟨c₁, h₁, h⟩
      rcases h.exists_behind with ⟨c₂, h₂, h⟩
      rcases h.exists_between with ⟨c₃, h₃, h₄⟩
      have hopened := Cursor.skipBlanks_of_takes h₁ hbefore (h₂.stopsAt (stopsAt_cons hblank _))
      -- What the reader of this filter sees behind it is the rest of the chain and the brace.
      have hbehind : c₃.rest = rest ++ '}' :: tail := by rw [h₄.1, hclose]
      have hend : EndsAt filterEnds (c₃.rest.dropWhile Text.isBlank) := by
        rw [hbehind]
        exact hrest.endsAt
      have hdirect : args = [] ∨ StopsAt Text.isBlank c₃.rest := by
        rw [hbehind]
        exact hnext.imp_right fun hstops => hstops.append (stopsAt_cons (by decide) tail)
      have hfirst : c.Takes (before ++ '|' :: cs) c₃ := h₁.trans (h₂.trans h₃)
      have hoffset₃ : c₃.offset = o + byteLength (before ++ '|' :: cs) := by
        rw [hfirst.2, hoffset]
      rw [filters_eq, hopened]
      simp only [Cursor.accept?_of_takes h₂, filterUse_of_takes hcall h₃ hend hdirect,
        ih hoffset₃ h₄]
      rw [hoffset₃, h₁.2, hoffset]

theorem takes_closeTag {fault : ReadFault} {c d : Cursor} (h : closeTag fault c = .ok d) :
    ∃ after, IsBlanks after ∧ c.Takes (after ++ ['}']) d := by
  unfold closeTag at h
  split at h
  · cases h
  · next e he =>
      cases h
      exact ⟨_, isBlanks_takeWhile c.rest,
        (Cursor.takes_skipBlanks c).trans (Cursor.takes_accept? he)⟩

theorem closeTag_of_takes {c d : Cursor} {after : List Char} (hafter : IsBlanks after)
    (h : c.Takes (after ++ ['}']) d) (fault : ReadFault) : closeTag fault c = .ok d := by
  rcases h.exists_between with ⟨c₁, h₁, h₂⟩
  have hopened : c.skipBlanks = c₁ :=
    Cursor.skipBlanks_of_takes h₁ hafter (h₂.stopsAt (stopsAt_cons (by decide) _))
  unfold closeTag
  rw [hopened, Cursor.accept?_of_takes h₂]

/-- The offset behind a tag is that of its opening brace and the bytes of the whole tag. -/
theorem offset_behind_tag {start : Nat} {c d : Cursor} {cs : List Char}
    (hoffset : c.offset = start + 1) (h : c.Takes cs d) :
    d.offset = start + byteLength ('{' :: cs) := by
  have hbrace : '{'.utf8Size = 1 := rfl
  have hbytes : byteLength ('{' :: cs) = 1 + byteLength cs := by rw [byteLength_cons, hbrace]
  rw [h.2, hoffset, hbytes]
  omega

theorem takes_inclusionTag {start : Nat} {c c₁ d : Cursor} {n : Node}
    (hoffset : c.offset = start + 1) (hsign : c.Takes ['>'] c₁)
    (h : inclusionTag start c₁ = .ok (n, d)) : ∃ cs, TagAt start cs n ∧ c.Takes cs d := by
  unfold inclusionTag at h
  split at h
  · cases h
  · next names c₂ h₂ =>
      split at h
      · cases h
      · next c₃ h₃ =>
          cases h
          rcases takes_path h₂ with ⟨hpath, hnames⟩
          rcases takes_closeTag h₃ with ⟨after, hafter, hclosed⟩
          have hall : c.Takes _ d :=
            hsign.trans ((Cursor.takes_skipBlanks c₁).trans (hnames.trans hclosed))
          refine ⟨_, ?_, hall⟩
          rw [offset_behind_tag hoffset hall]
          exact .inclusion (isBlanks_takeWhile c₁.rest) hpath hafter rfl

theorem takes_placeholderTag {start : Nat} {c d : Cursor} {n : Node}
    (hoffset : c.offset = start + 1) (h : placeholderTag start c = .ok (n, d)) :
    ∃ cs, TagAt start cs n ∧ c.Takes cs d := by
  unfold placeholderTag at h
  split at h
  · cases h
  · next names c₁ h₁ =>
      split at h
      · cases h
      · next fs c₂ h₂ =>
          split at h
          · cases h
          · next c₃ h₃ =>
              cases h
              rcases takes_path h₁ with ⟨hpath, hnames⟩
              rcases takes_filters h₂ with ⟨chain, hchain, hfilters, hstop⟩
              rcases takes_closeTag h₃ with ⟨after, hafter, hclosed⟩
              -- The reader of the chain has left no blanks in front of the closing brace.
              have hnothing : after = [] := by
                rw [hclosed.1, List.append_assoc] at hstop
                exact hafter.eq_nil hstop
              rw [hnothing] at hclosed
              have hall : c.Takes _ d := hnames.trans (hfilters.trans hclosed)
              rw [offset_behind_tag hoffset hnames] at hchain
              refine ⟨_, ?_, hall⟩
              rw [offset_behind_tag hoffset hall]
              exact .placeholder hpath hchain rfl

theorem takes_tag {start : Nat} {c d : Cursor} {n : Node} (hoffset : c.offset = start + 1)
    (h : tag start c = .ok (n, d)) : ∃ cs, TagAt start cs n ∧ c.Takes cs d := by
  unfold tag at h
  split at h
  · next c₁ h₁ => exact takes_inclusionTag hoffset (Cursor.takes_accept? h₁) h
  · exact takes_placeholderTag hoffset h

theorem inclusionTag_of_takes {start : Nat} {c d : Cursor} {before after : List Char}
    {names : List String} (hbefore : IsBlanks before) (hpath : IsPath names)
    (hafter : IsBlanks after)
    (h : c.Takes (before ++ ((dotted names).toList ++ (after ++ ['}']))) d) :
    inclusionTag start c = .ok (.inclusion ⟨dotted names, ⟨start, d.offset⟩⟩, d) := by
  rcases h.exists_between with ⟨c₁, h₁, h⟩
  rcases h.exists_between with ⟨c₂, h₂, h₃⟩
  have hopened := Cursor.skipBlanks_of_takes h₁ hbefore
    (h₂.stopsAt (stopsAt_path (fun _ => isBlank_of_isNamePart) hpath _))
  -- Across the blanks behind the path there is the closing brace.
  have hend : EndsAt filterEnds (c₂.rest.dropWhile Text.isBlank) := by
    rw [h₃.1, List.append_assoc]
    exact (ChainAt.nil (o := 0) hafter).endsAt
  unfold inclusionTag
  rw [hopened, path_of_takes hpath h₂ hend]
  simp only [closeTag_of_takes hafter h₃]

theorem placeholderTag_of_takes {start : Nat} {c d : Cursor} {chain : List Char}
    {names : List String} {fs : List FilterUse} (hoffset : c.offset = start + 1)
    (hpath : IsPath names)
    (hchain : ChainAt (start + byteLength ('{' :: (dotted names).toList)) chain fs)
    (h : c.Takes ((dotted names).toList ++ (chain ++ ['}'])) d) :
    placeholderTag start c = .ok (.placeholder ⟨names, fs, ⟨start, d.offset⟩⟩, d) := by
  rcases h.exists_between with ⟨c₁, h₁, h⟩
  rcases h.exists_between with ⟨c₂, h₂, h₃⟩
  have hclose : c₂.rest = '}' :: d.rest := h₃.1
  have hend : EndsAt filterEnds (c₁.rest.dropWhile Text.isBlank) := by
    rw [h₂.1, hclose]
    exact hchain.endsAt
  unfold placeholderTag
  rw [path_of_takes hpath h₁ hend]
  simp only [filters_of_takes hchain (offset_behind_tag hoffset h₁) h₂ hclose,
    closeTag_of_takes isBlanks_nil h₃]

theorem tag_of_takes {start : Nat} {c d : Cursor} {cs : List Char} {n : Node}
    (hoffset : c.offset = start + 1) (htag : TagAt start cs n) (h : c.Takes cs d) :
    tag start c = .ok (n, d) := by
  have hstop := offset_behind_tag hoffset h
  unfold tag
  cases htag with
  | inclusion hbefore hpath hafter hcs =>
      rw [hcs] at h
      rcases h.exists_behind with ⟨c₁, h₁, h₂⟩
      rw [Cursor.accept?_of_takes h₁, ← hstop]
      exact inclusionTag_of_takes hbefore hpath hafter h₂
  | @placeholder chain _ names fs hpath hchain hcs =>
      rw [hcs] at h
      -- A path does not begin with the sign of an inclusion.
      have hsign : StopsAt (· == '>') c.rest := by
        rw [h.1, List.append_assoc]
        exact stopsAt_path (fun _ => ne_of_isNamePart (by decide)) hpath _
      rw [Cursor.accept?_eq_none hsign, ← hstop]
      exact placeholderTag_of_takes hoffset hpath hchain h

theorem byteLength_doubled {c : Char} (hc : c = '{' ∨ c = '}') : byteLength [c, c] = 2 := by
  rcases hc with rfl | rfl
  · rfl
  · rfl

theorem afterPlainText_of_plainText {run rest : List Char} (h : plainText (run ++ rest) = run) :
    afterPlainText (run ++ rest) = rest := by
  rw [afterPlainText, h, List.drop_left]

theorem TagAt.stopsAt {o : Nat} {cs : List Char} {n : Node} (h : TagAt o cs n)
    (rest : List Char) : StopsAt (· == '{') (cs ++ rest) := by
  cases h with
  | inclusion _ _ _ hcs =>
      rw [hcs]
      exact stopsAt_sign (by decide) _
  | placeholder hpath _ hcs =>
      rw [hcs, List.append_assoc]
      exact stopsAt_path (fun _ => ne_of_isNamePart (by decide)) hpath _

/-- The first character of a text was looked at by the reader of nodes, the others by that of
    plain text; both ask the same of them. -/
theorem pieceAt_plainText {c : Char} {rest : List Char} (h : StartsPlain (c :: rest)) (o : Nat) :
    PieceAt o (c :: plainText rest) (afterPlainText rest)
      (.text (String.ofList (c :: plainText rest)) ⟨o, o + byteLength (c :: plainText rest)⟩) := by
  refine .plain ?_ ?_
  · rw [plainText_append]
    exact h
  · rw [plainText_append]

theorem piecesAt_of_nodes {c : Cursor} {ns : List Node} (h : nodes c = .ok ns) :
    PiecesAt c.offset c.rest ns := by
  fun_induction nodes c generalizing ns with
  | case1 c hnone =>
      cases h
      rw [hnone]
      exact .nil
  | case2 => cases h
  -- The cases that end in a fault go first: there are no nodes then.
  | case3 c d rest hrest hdouble ms hms ih =>
      cases h
      rcases List.head?_eq_some_iff.mp hdouble.2 with ⟨tail, htail⟩
      rw [hrest, htail]
      have hothers := ih hms
      rw [htail, List.tail_cons, ← byteLength_doubled hdouble.1] at hothers
      exact .cons (.brace hdouble.1) hothers
  | case4 => cases h
  | case5 => cases h
  | case6 c rest n c₁ ms hms hrest hsingle htag ih =>
      cases h
      rcases takes_tag (c := ⟨rest, c.offset + '{'.utf8Size⟩) rfl htag with ⟨cs, hcs, htakes⟩
      have hothers := ih hms
      rw [offset_behind_tag rfl htakes] at hothers
      have hall : c.rest = ('{' :: cs) ++ c₁.rest := by
        rw [hrest, List.cons_append, ← htakes.1]
      rw [hall]
      exact .cons (.tag hcs) hothers
  | case7 => cases h
  | case8 c d rest hrest hsingle hopen plain c₁ ms hms =>
      rename_i ih
      cases h
      have hall : c.rest = (d :: plainText rest) ++ afterPlainText rest := by
        rw [hrest, List.cons_append, plainText_append]
      have hfirst : StartsPlain (d :: rest) :=
        ⟨hopen, fun hclose => hsingle ⟨Or.inr hclose.1, hclose.1 ▸ hclose.2⟩⟩
      rw [hall]
      exact .cons (pieceAt_plainText hfirst c.offset) (ih hms)

/-- The reader of nodes finds a piece and goes on behind it. -/
theorem PieceAt.nodes_eq {o : Nat} {cs rest : List Char} {n : Node} (h : PieceAt o cs rest n) :
    nodes ⟨cs ++ rest, o⟩ = (nodes ⟨rest, o + byteLength cs⟩).map (n :: ·) := by
  cases h with
  | brace hc =>
      rw [byteLength_doubled hc, List.cons_append, List.cons_append, List.nil_append,
        nodes_of_brace hc]
  | @plain c run _ hfirst hrun =>
      rw [List.cons_append, nodes_of_plain hfirst.1 hfirst.2, hrun,
        afterPlainText_of_plainText hrun]
  | @tag cs _ _ htag =>
      -- Behind the opening brace the tag takes its characters, and the rest is left.
      have htakes : (⟨cs ++ rest, o + '{'.utf8Size⟩ : Cursor).Takes cs
          ⟨rest, o + byteLength ('{' :: cs)⟩ := by
        refine ⟨rfl, ?_⟩
        rw [byteLength_cons, Nat.add_assoc]
      rw [List.cons_append, nodes_of_tag (htag.stopsAt rest).head?_ne
        (tag_of_takes rfl htag htakes)]

theorem nodes_of_piecesAt {o : Nat} {cs : List Char} {ns : List Node} (h : PiecesAt o cs ns) :
    nodes ⟨cs, o⟩ = .ok ns := by
  induction h with
  | nil => exact nodes_nil _
  | cons hpiece _ ih =>
      rw [hpiece.nodes_eq, ih]
      rfl

/-- The reader of a source finds the pieces that can be derived, and no others. -/
theorem readTemplate_iff_piecesAt {source : String} {ns : List Node} :
    readTemplate source = .ok ns ↔ PiecesAt 0 source.toList ns :=
  ⟨piecesAt_of_nodes, nodes_of_piecesAt⟩

end Letterpress
