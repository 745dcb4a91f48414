import Letterpress.Proofs.Derivation

/-!
# What Is a Template

The reader of sources accepts what the rules of the grammar derive, with the meaning that they
derive, and nothing else. Between the two stand the pieces with their offsets, which the reader
is known to find. So it remains to compare two ways of putting a source together: by the rules,
where blanks behind an argument may be taken for a part of it or not, and piece by piece, where
they always are.

From the pieces to the rules there is nothing to decide. The other way round, blanks have to be
moved: where a filter has arguments, the blanks in front of the next pipe go over to it, and the
rest of the chain begins with the pipe. No meaning changes, as blanks around an argument do not
count.

That a source has one meaning only is a consequence. It is not obvious from the rules, which
overlap, but the reader finds one meaning and finds them all.

## Theorems

* `plainText_cons_eq_iff`, `plainText_eq_nil_iff`: Where plain text ends.
* `ChainAt.dropBlanks`: A chain may lose the blanks that it begins with.
* `isTemplate_of_piecesAt`, `exists_piecesAt`: The pieces of a source and the rules agree.
* `accepts_iff_isTemplate`: The reader accepts exactly what the rules derive.
-/

namespace Letterpress

theorem plainText_eq_nil_iff {cs : List Char} : plainText cs = [] ↔ ¬ StartsPlain cs := by
  cases cs with
  | nil => simp only [plainText, StartsPlain, not_false_eq_true]
  | cons c rest =>
      unfold plainText StartsPlain
      by_cases hopen : c = '{'
      · rw [if_pos hopen]
        exact ⟨fun _ hstarts => hstarts.1 hopen, fun _ => rfl⟩
      · rw [if_neg hopen]
        by_cases hclose : c = '}' ∧ rest.head? = some '}'
        · rw [if_pos hclose]
          exact ⟨fun _ hstarts => hstarts.2 hclose, fun _ => rfl⟩
        · rw [if_neg hclose]
          exact ⟨fun h => absurd h (List.cons_ne_nil _ _), fun h => absurd ⟨hopen, hclose⟩ h⟩

theorem plainText_cons_eq_iff {c d : Char} {cs run : List Char} :
    plainText (c :: cs) = d :: run ↔ StartsPlain (c :: cs) ∧ c = d ∧ plainText cs = run := by
  constructor
  · intro h
    have hstarts : StartsPlain (c :: cs) := by
      by_contra hnot
      rw [plainText_eq_nil_iff.mpr hnot] at h
      cases h
    rw [plainText, if_neg hstarts.1, if_neg hstarts.2, List.cons.injEq] at h
    exact ⟨hstarts, h⟩
  · rintro ⟨hstarts, hhead, htail⟩
    rw [plainText, if_neg hstarts.1, if_neg hstarts.2, hhead, htail]

/-- A run of plain characters is one text, however many rules it takes. -/
theorem isTemplate_plain {rest : List Char} {ps : List Phrase} (hrest : IsTemplate rest ps)
    {c : Char} {run : List Char} (hfirst : StartsPlain (c :: (run ++ rest)))
    (hrun : plainText (run ++ rest) = run) :
    IsTemplate (c :: (run ++ rest)) (.text (String.ofList (c :: run)) :: ps) := by
  induction run generalizing c with
  | nil =>
      have halone : ¬ StartsPlain rest := plainText_eq_nil_iff.mp hrun
      exact .plain hfirst halone hrest
  | cons d run ih =>
      rcases plainText_cons_eq_iff.mp hrun with ⟨hmore, _, hothers⟩
      have htext : String.ofList (c :: d :: run) = c.toString ++ String.ofList (d :: run) := by
        rw [Char.toString, String.singleton_eq_ofList, ← String.ofList_append,
          List.singleton_append]
      rw [htext]
      exact .join hfirst hmore (ih hmore hothers)

/-- The last filters of a chain end before the blanks behind them. -/
theorem exists_isChain {o : Nat} {cs : List Char} {fs : List FilterUse} (h : ChainAt o cs fs) :
    ∃ chain after, cs = chain ++ after ∧ IsChain chain (fs.map FilterUse.call) ∧
      IsBlanks after := by
  induction h with
  | nil hblanks => exact ⟨[], _, rfl, .nil, hblanks⟩
  | @cons o before cs rest name args fs hbefore hcall _ _ ih =>
      rcases ih with ⟨chain, after, hrest, hchain, hafter⟩
      refine ⟨before ++ '|' :: (cs ++ chain), after, ?_, .cons hbefore hcall hchain, hafter⟩
      simp only [hrest, List.append_assoc, List.cons_append]

/-- A chain may lose the blanks that it begins with. The filters keep their offsets. -/
theorem ChainAt.dropBlanks {o : Nat} {cs : List Char} {fs : List FilterUse} (h : ChainAt o cs fs) :
    ChainAt (o + byteLength (cs.takeWhile Text.isBlank)) (cs.dropWhile Text.isBlank) fs := by
  cases h with
  | nil hblanks =>
      rw [hblanks.dropWhile]
      exact .nil isBlanks_nil
  | @cons _ before cs rest name args fs hbefore hcall hnext hrest =>
      have hpipe : StopsAt Text.isBlank ('|' :: (cs ++ rest)) := stopsAt_cons (by decide) _
      have hkept : (before ++ '|' :: (cs ++ rest)).takeWhile Text.isBlank = before := by
        rw [List.takeWhile_append_of_pos hbefore, hpipe.takeWhile, List.append_nil]
      have hoffset : o + byteLength (before ++ '|' :: cs) =
          o + byteLength before + byteLength ([] ++ '|' :: cs) := by
        rw [byteLength_append, List.nil_append, Nat.add_assoc]
      rw [hoffset] at hrest ⊢
      rw [hkept, hbefore.dropWhile_append, hpipe.dropWhile]
      have hchain := ChainAt.cons (o := o + byteLength before) isBlanks_nil hcall hnext hrest
      rwa [byteLength_nil, Nat.add_zero] at hchain

/-- Wherever filters can be written by the rules, they can be written so that arguments take the
    blanks behind them. -/
theorem exists_chainAt {cs : List Char} {calls : List (String × List String)}
    (h : IsChain cs calls) {after : List Char} (hafter : IsBlanks after) (o : Nat) :
    ∃ fs, ChainAt o (cs ++ after) fs ∧ fs.map FilterUse.call = calls := by
  induction h generalizing o with
  | nil => exact ⟨[], .nil hafter, rfl⟩
  | @cons before cs rest call calls hbefore hcall _ ih =>
      rcases call with ⟨name, args⟩
      rcases ih (o + byteLength (before ++ '|' :: cs)) with ⟨fs, hchain, hcalls⟩
      have hassoc : before ++ '|' :: (cs ++ rest) ++ after =
          before ++ '|' :: (cs ++ (rest ++ after)) := by
        simp only [List.append_assoc, List.cons_append]
      rw [hassoc]
      by_cases hargs : args = []
      · refine ⟨_, .cons hbefore hcall (Or.inl hargs) hchain, ?_⟩
        rw [List.map_cons, hcalls]
        rfl
      · -- The arguments take the blanks that the rest of the chain begins with.
        have hblanks := isBlanks_takeWhile (rest ++ after)
        have hwhole := hcall.append_blanks hargs hblanks
        have hdropped := hchain.dropBlanks
        rw [Nat.add_assoc, ← byteLength_append, List.append_assoc, List.cons_append] at hdropped
        rw [← List.takeWhile_append_dropWhile (p := Text.isBlank) (l := rest ++ after),
          ← List.append_assoc cs]
        refine ⟨_, .cons hbefore hwhole (Or.inr (stopsAt_dropWhile _ _)) hdropped, ?_⟩
        rw [List.map_cons, hcalls]
        rfl

theorem isTemplate_of_piecesAt {o : Nat} {cs : List Char} {ns : List Node}
    (h : PiecesAt o cs ns) : IsTemplate cs (ns.map Node.phrase) := by
  induction h with
  | nil => exact .nil
  | @cons o cs rest n ns hpiece _ ih =>
      rw [List.map_cons]
      cases hpiece with
      | brace hc => exact .brace hc ih
      | plain hfirst hrun => exact isTemplate_plain ih hfirst hrun
      | tag htag =>
          cases htag with
          | inclusion hbefore hpath hafter hcs =>
              have hrule := IsTemplate.inclusion hbefore hpath hafter ih
              rw [hcs]
              simpa only [Node.phrase, List.append_assoc, List.cons_append, List.nil_append]
                using hrule
          | placeholder hpath hchain hcs =>
              -- The blanks that the last filter has left go in front of the closing brace.
              rcases exists_isChain hchain with ⟨chain, after, hsplit, hcalls, hafter⟩
              have hrule := IsTemplate.placeholder hpath hcalls hafter ih
              rw [hcs, hsplit]
              simpa only [Node.phrase, List.append_assoc, List.cons_append, List.nil_append]
                using hrule

/-- The pieces of a source that begins with a plain character begin with a run of plain text, and
    another plain character in front makes the run longer. -/
theorem PiecesAt.cons_plain {o : Nat} {c : Char} {rest : List Char} {ns : List Node}
    (hc : StartsPlain (c :: rest)) (hmore : StartsPlain rest)
    (h : PiecesAt (o + c.utf8Size) rest ns) {s : String} {ps : List Phrase}
    (hphrases : ns.map Node.phrase = .text s :: ps) :
    ∃ ms, PiecesAt o (c :: rest) ms ∧ ms.map Node.phrase = .text (c.toString ++ s) :: ps := by
  cases h with
  | nil => exact absurd hmore id
  | @cons _ cs rest n ns hpiece hrest =>
      cases hpiece with
      | @brace d _ hd =>
          -- Two equal braces do not stand for themselves.
          rcases hd with rfl | rfl
          · exact absurd rfl hmore.1
          · exact absurd ⟨rfl, rfl⟩ hmore.2
      | @plain d run _ hfirst hrun =>
          have hlonger : plainText (d :: run ++ rest) = d :: run :=
            plainText_cons_eq_iff.mpr ⟨hfirst, rfl, hrun⟩
          rw [Nat.add_assoc, ← byteLength_cons] at hrest
          refine ⟨_, .cons (.plain hc hlonger) hrest, ?_⟩
          rw [List.map_cons, Node.phrase, List.cons.injEq, Phrase.text.injEq] at hphrases
          rw [List.map_cons, Node.phrase, ← hphrases.1, ← hphrases.2, Char.toString,
            String.singleton_eq_ofList, ← String.ofList_append, List.singleton_append]
      | tag => exact absurd rfl hmore.1

theorem exists_piecesAt {cs : List Char} {ps : List Phrase} (h : IsTemplate cs ps) (o : Nat) :
    ∃ ns, PiecesAt o cs ns ∧ ns.map Node.phrase = ps := by
  induction h generalizing o with
  | nil => exact ⟨[], .nil, rfl⟩
  | @brace c rest ps hc _ ih =>
      rcases ih (o + byteLength [c, c]) with ⟨ns, hns, hphrases⟩
      refine ⟨_, .cons (.brace hc) hns, ?_⟩
      rw [List.map_cons, hphrases]
      rfl
  | @plain c rest ps hc halone _ ih =>
      rcases ih (o + byteLength [c]) with ⟨ns, hns, hphrases⟩
      refine ⟨_, .cons (.plain hc (plainText_eq_nil_iff.mpr halone)) hns, ?_⟩
      rw [List.map_cons, hphrases]
      rfl
  -- A character that joins a text makes one piece longer; all other rules add a piece.
  | @join c rest s ps hc hmore _ ih =>
      rcases ih (o + c.utf8Size) with ⟨ns, hns, hphrases⟩
      exact hns.cons_plain hc hmore hphrases
  | @inclusion before after rest names ps hbefore hpath hafter _ ih =>
      rcases ih (o + byteLength ('{' :: '>' ::
        (before ++ ((dotted names).toList ++ (after ++ ['}']))))) with ⟨ns, hns, hphrases⟩
      have hall := PiecesAt.cons (.tag (.inclusion hbefore hpath hafter rfl)) hns
      simp only [List.append_assoc, List.cons_append, List.nil_append] at hall ⊢
      refine ⟨_, hall, ?_⟩
      rw [List.map_cons, hphrases]
      rfl
  | @placeholder cs after rest names calls ps hpath hchain hafter _ ih =>
      rcases exists_chainAt hchain hafter (o + byteLength ('{' :: (dotted names).toList)) with
        ⟨fs, hfs, hcalls⟩
      rcases ih (o + byteLength ('{' ::
        ((dotted names).toList ++ (cs ++ after ++ ['}'])))) with ⟨ns, hns, hphrases⟩
      have hall := PiecesAt.cons (.tag (.placeholder hpath hfs rfl)) hns
      simp only [List.append_assoc, List.cons_append, List.nil_append] at hall ⊢
      refine ⟨_, hall, ?_⟩
      rw [List.map_cons, hphrases, Node.phrase, hcalls]

/-- A source is read as nodes that say certain phrases exactly if the rules derive these phrases
    from its characters. So a source that is read has one meaning, and only one. -/
theorem accepts_iff_isTemplate (source : String) :
    (∀ ps, (∃ ns, readTemplate source = .ok ns ∧ ns.map Node.phrase = ps) ↔
      IsTemplate source.toList ps) ∧
    ∀ ns, readTemplate source = .ok ns → ∃! ps, IsTemplate source.toList ps := by
  have hderived : ∀ ns, readTemplate source = .ok ns →
      IsTemplate source.toList (ns.map Node.phrase) := by
    intro ns hread
    exact isTemplate_of_piecesAt (readTemplate_iff_piecesAt.mp hread)
  have hread : ∀ ps, IsTemplate source.toList ps →
      ∃ ns, readTemplate source = .ok ns ∧ ns.map Node.phrase = ps := by
    intro ps hps
    rcases exists_piecesAt hps 0 with ⟨ns, hns, hphrases⟩
    exact ⟨ns, readTemplate_iff_piecesAt.mpr hns, hphrases⟩
  refine ⟨fun ps => ⟨?_, hread ps⟩, fun ns hns => ⟨ns.map Node.phrase, hderived ns hns, ?_⟩⟩
  · rintro ⟨ns, hns, rfl⟩
    exact hderived ns hns
  · -- Any other derivation is found by the reader as well, which answers only once.
    intro ps hps
    rcases hread ps hps with ⟨ms, hms, hphrases⟩
    rw [hns] at hms
    cases hms
    exact hphrases.symm

/-- A source in which braces meet a tag, and an argument holds the sign that would end it. -/
def crowded : String := "\x7b\x7b\x7bé.b | f : '\\'\x7d' ,  x \x7d\x7d\x7d a \x7d\x7b> c \x7d"

/-- What the crowded source says. -/
def crowdedPhrases : List Phrase :=
  [.text "\x7b", .placeholder ["é", "b"] [("f", ["'\x7d", "x"])], .text "\x7d", .text " a \x7d",
    .inclusion "c"]

theorem accepts_iff_isTemplate_crowded :
    IsTemplate crowded.toList crowdedPhrases ∧
      ∀ ps, IsTemplate crowded.toList ps → ps = crowdedPhrases := by
  have hread : ∃ ns, readTemplate crowded = .ok ns ∧ ns.map Node.phrase = crowdedPhrases :=
    ⟨[.text "\x7b" ⟨0, 2⟩,
      .placeholder ⟨["é", "b"], [⟨"f", ["'\x7d", "x"], ⟨8, 25⟩⟩], ⟨2, 26⟩⟩,
      .text "\x7d" ⟨26, 28⟩, .text " a \x7d" ⟨28, 32⟩, .inclusion ⟨"c", ⟨32, 38⟩⟩],
      by decide +kernel, by decide⟩
  rcases accepts_iff_isTemplate crowded with ⟨hiff, hunique⟩
  have hderived := (hiff crowdedPhrases).mp hread
  refine ⟨hderived, fun ps hps => ?_⟩
  rcases hread with ⟨ns, hns, _⟩
  exact (hunique ns hns).unique hps hderived

end Letterpress
