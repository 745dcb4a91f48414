import Letterpress.Proofs.Inclusion
import Letterpress.Proofs.Reading
import Letterpress.Proofs.Refusal
import Mathlib.Data.List.Chain

/-!
# Plans Are Canonical

Texts come to a plan in pieces. An escaped brace is a node of its own, and so is what stands in
front of it and behind it; an inclusion goes on in the middle of a line with the text of another
template, which may be empty, or hold nothing but inclusions of empty ones. None of this is left in
a plan. Between two holes there is one text, or none if there is nothing in between, and a template
in which no placeholder is left is a text and nothing else.

So a plan can be compared with what its template says, and not only with how it is written. What
matters are the placeholders and the gaps between them, with whatever text each of the gaps holds
when its pieces are put together. Many lists of parts have the same holes and the same gaps, since
a text can be cut anywhere; of canonical ones there is only one. Read from the front, an empty gap
can only mean that a hole comes next, and any other gap is one text, with a hole or nothing behind
it.

The parts are joined once all of them are there. A compiler may as well join them as they come, and
hold every new text against the last one it has kept, wherever that came from. Each step keeps what
it has made so far in canonical form, and the outcome is the same.

## Main definitions

* `Scope.Unrolls`: The nodes of a template with all that they include.
* `gaps`: The texts between the items of a list that are no texts.
* `IsCanonical`, `Body.IsCanonical`: Parts, and bodies, in canonical form.
* `Body.Alike`: Bodies with the same texts and with holes that are related.
* `pushPart`: Adds a part behind others.

## Theorems

* `exists_unrolls_of_expand`, `Scope.Unrolls.unique`: What nodes expand to is said in one way.
* `isCanonical_mergeParts`, `gaps_mergeParts`: Joining texts makes parts canonical, and keeps what
  is in the gaps.
* `foldl_pushPart`: Texts can be joined as they come.
* `IsCanonical.alike`: Canonical parts are known from their holes and gaps.
* `body_canonical`: Bodies are canonical, and known from placeholders and gaps.
-/

namespace Letterpress

/-- The nodes of a template with all that they include, in document order. The nodes of an included
    template stand in the place of the inclusion, and no inclusion is left. -/
inductive Scope.Unrolls (scope : Scope) : List Node → List Node → Prop where
  | nil : Unrolls scope [] []
  | text {s : String} {span : Span} {rest es : List Node} (hrest : Unrolls scope rest es) :
      Unrolls scope (.text s span :: rest) (.text s span :: es)
  | placeholder {p : Placeholder} {rest es : List Node} (hrest : Unrolls scope rest es) :
      Unrolls scope (.placeholder p :: rest) (.placeholder p :: es)
  | inclusion {i : Inclusion} {rest inner es fs : List Node}
      (hregistered : scope.registered? i.name = some inner) (hinner : Unrolls scope inner es)
      (hrest : Unrolls scope rest fs) : Unrolls scope (.inclusion i :: rest) (es ++ fs)

/-- The texts in the gaps between the items of a list that are no texts, with the pieces of each put
    together. There is a gap at both ends, so there is one more of them than of these items. -/
def gaps {α : Type} (text? : α → Option String) : List α → List String
  | [] => [""]
  | a :: rest =>
    match text? a with
    | some s => (gaps text? rest).modifyHead (s ++ ·)
    | none => "" :: gaps text? rest

/-- The text that a node is. -/
def Node.text? : Node → Option String
  | .text s _ => some s
  | .placeholder _ => none
  | .inclusion _ => none

/-- The text that a part is. -/
def Part.text? : Part → Option String
  | .literal s => some s
  | .hole _ => none

/-- The texts between the holes of a body. -/
def Body.gaps : Body → List String
  | .plain s => [s]
  | .mixed ps => Letterpress.gaps Part.text? ps

/-- Parts in canonical form: no text is empty, and no text stands next to another one. -/
structure IsCanonical (ps : List Part) : Prop where
  full : ∀ s, .literal s ∈ ps → s ≠ ""
  apart : ps.IsChain fun p q => p.text? = none ∨ q.text? = none

/-- A body in canonical form is a text, or has canonical parts with a hole among them. -/
def Body.IsCanonical : Body → Prop
  | .plain _ => True
  | .mixed ps => Letterpress.IsCanonical ps ∧ ps.filterMap Part.hole? ≠ []

/-- Parts with the same text, or with holes that are related. -/
inductive Part.Alike (r : Hole → Hole → Prop) : Part → Part → Prop where
  | literal (s : String) : Alike r (.literal s) (.literal s)
  | hole {h h' : Hole} (hholes : r h h') : Alike r (.hole h) (.hole h')

/-- Bodies that are the same, part by part, where holes need only be related. -/
inductive Body.Alike (r : Hole → Hole → Prop) : Body → Body → Prop where
  | plain (s : String) : Alike r (.plain s) (.plain s)
  | mixed {ps qs : List Part} (hparts : List.Forall₂ (Part.Alike r) ps qs) :
      Alike r (.mixed ps) (.mixed qs)

/-- A placeholder as it is written, wherever that was. -/
def Placeholder.written (p : Placeholder) : List String × List (String × List String) :=
  (p.path, p.filters.map FilterUse.call)

/-- A hole as its placeholder was written. What the names of its filters stand for is left out. -/
def Hole.written (h : Hole) : List String × List (String × List String) :=
  (h.path, h.steps.map fun s => (s.name, s.args))

/-- Adds a part behind others. An empty text is left out, and another one is joined to a text in
    front of it. -/
def pushPart (ps : List Part) : Part → List Part
  | .hole h => ps ++ [.hole h]
  | .literal s =>
    if s.isEmpty then ps
    else
      match ps.getLast? with
      | some (.literal t) => ps.dropLast ++ [.literal (t ++ s)]
      | _ => ps ++ [.literal s]

/-- A node and the part that it becomes. -/
inductive Scope.Makes (scope : Scope) : Node → Part → Prop where
  | literal (s : String) (span : Span) : Makes scope (.text s span) (.literal s)
  | hole {p : Placeholder} {h : Hole} (hole : scope.holeOf p = .ok h) :
      Makes scope (.placeholder p) (.hole h)

section

variable {scope : Scope}

/-- The parts of expanded nodes are made from the nodes and from what they include. -/
theorem exists_unrolls_of_expand {active : List String} {ns : List Node} {ps : List Part}
    (hexpand : expand scope active ns = .ok ps) :
    ∃ es, scope.Unrolls ns es ∧ List.Forall₂ scope.Makes es ps := by
  fun_induction expand scope active ns generalizing ps with
  | case1 =>
      cases hexpand
      exact ⟨[], .nil, .nil⟩
  | case2 => cases hexpand
  | case3 active s span rest qs hrest ih =>
      cases hexpand
      rcases ih hrest with ⟨es, hunrolls, hmakes⟩
      exact ⟨_, .text hunrolls, .cons (.literal s span) hmakes⟩
  | case4 => cases hexpand
  | case5 => cases hexpand
  | case6 active p rest h hole qs hrest ih =>
      cases hexpand
      rcases ih hrest with ⟨es, hunrolls, hmakes⟩
      exact ⟨_, .placeholder hunrolls, .cons (.hole hole) hmakes⟩
  | case7 => cases hexpand
  | case8 => cases hexpand
  | case9 => cases hexpand
  | case10 active i rest inner henter qs hinner qs' hrest ihinner ihrest =>
      cases hexpand
      -- What is included takes the place of the inclusion on both sides.
      rcases ihinner hinner with ⟨es, hunrolls, hmakes⟩
      rcases ihrest hrest with ⟨es', hunrolls', hmakes'⟩
      exact ⟨_, .inclusion (registered?_of_enter henter) hunrolls hunrolls',
        List.rel_append hmakes hmakes'⟩

/-- There is one way at most to put what nodes include in the place of the inclusions. -/
theorem Scope.Unrolls.unique {ns es es' : List Node} (h : scope.Unrolls ns es)
    (h' : scope.Unrolls ns es') : es' = es := by
  induction h generalizing es' with
  | nil =>
      cases h'
      rfl
  | text _ ih =>
      cases h' with
      | text hrest => rw [ih hrest]
  | placeholder _ ih =>
      cases h' with
      | placeholder hrest => rw [ih hrest]
  | inclusion hregistered _ _ ihinner ihrest =>
      cases h' with
      | inclusion hregistered' hinner hrest =>
          rw [hregistered, Option.some_inj] at hregistered'
          subst hregistered'
          rw [ihinner hinner, ihrest hrest]

variable {es : List Node} {ps : List Part}

/-- Parts have the texts of the nodes that they were made from. -/
theorem gaps_of_makes (h : List.Forall₂ scope.Makes es ps) :
    gaps Part.text? ps = gaps Node.text? es := by
  induction h with
  | nil => rfl
  | cons hmakes _ ih =>
      cases hmakes with
      | literal s span => simp only [gaps, Part.text?, Node.text?, ih]
      | hole => simp only [gaps, Part.text?, Node.text?, ih]

/-- Their holes are those of the placeholders. -/
theorem holes_of_makes (h : List.Forall₂ scope.Makes es ps) :
    List.Forall₂ (fun p h => scope.holeOf p = .ok h) (placeholders es)
      (ps.filterMap Part.hole?) := by
  induction h with
  | nil => exact .nil
  | cons hmakes _ ih =>
      cases hmakes with
      | literal s span => exact ih
      | hole hole => exact .cons hole ih

end

theorem exists_gaps {α : Type} (text? : α → Option String) (xs : List α) :
    ∃ g gs, gaps text? xs = g :: gs := by
  induction xs with
  | nil => exact ⟨"", [], rfl⟩
  | cons x xs ih =>
      rcases ih with ⟨g, gs, hgaps⟩
      unfold gaps
      cases text? x with
      | none => exact ⟨_, _, rfl⟩
      | some s =>
          dsimp only
          rw [hgaps]
          exact ⟨_, _, rfl⟩

@[simp]
theorem gaps_literal (s : String) (ps : List Part) :
    gaps Part.text? (.literal s :: ps) = (gaps Part.text? ps).modifyHead (s ++ ·) := rfl

@[simp]
theorem gaps_hole (h : Hole) (ps : List Part) :
    gaps Part.text? (.hole h :: ps) = "" :: gaps Part.text? ps := rfl

/-- Joining texts keeps what is in the gaps. -/
theorem gaps_mergeParts (ps : List Part) :
    gaps Part.text? (mergeParts ps) = gaps Part.text? ps := by
  fun_induction mergeParts ps with
  | case1 => rfl
  | case2 h rest ih => rw [gaps_hole, gaps_hole, ih]
  | case3 s rest hempty ih =>
      rcases exists_gaps Part.text? rest with ⟨g, gs, hgaps⟩
      rw [ih, gaps_literal, hgaps, String.isEmpty_iff.mp hempty, List.modifyHead_cons,
        String.empty_append]
  | case4 s rest hfull t rest' hmerged ih =>
      -- Both texts are in the first gap, one by one or joined.
      rcases exists_gaps Part.text? rest' with ⟨g, gs, hgaps⟩
      rw [gaps_literal, gaps_literal, ← ih, hmerged, gaps_literal, hgaps]
      simp only [List.modifyHead_cons, String.append_assoc]
  | case5 s rest hfull hmerged ih => rw [gaps_literal, gaps_literal, ih]

theorem isCanonical_nil : IsCanonical [] where
  full _ hs := absurd hs List.not_mem_nil
  apart := .nil

theorem isCanonical_hole {h : Hole} {ps : List Part} :
    IsCanonical (.hole h :: ps) ↔ IsCanonical ps := by
  constructor
  · rintro ⟨hfull, hapart⟩
    exact ⟨fun s hs => hfull s (List.mem_cons_of_mem _ hs), hapart.tail⟩
  · rintro ⟨hfull, hapart⟩
    refine ⟨fun s hs => ?_, List.isChain_cons.mpr ⟨fun q _ => Or.inl rfl, hapart⟩⟩
    rcases List.mem_cons.mp hs with heq | hs
    · cases heq
    · exact hfull s hs

theorem isCanonical_literal {s : String} {ps : List Part} :
    IsCanonical (.literal s :: ps) ↔
      s ≠ "" ∧ (∀ t rest, ps ≠ .literal t :: rest) ∧ IsCanonical ps := by
  constructor
  · rintro ⟨hfull, hapart⟩
    refine ⟨hfull s List.mem_cons_self, ?_, fun t ht => hfull t (List.mem_cons_of_mem _ ht),
      hapart.tail⟩
    rintro t rest rfl
    rcases (List.isChain_cons.mp hapart).1 _ rfl with hs | ht
    · cases hs
    · cases ht
  · rintro ⟨hs, hnext, hfull, hapart⟩
    refine ⟨fun t ht => ?_, List.isChain_cons.mpr ⟨fun q hq => ?_, hapart⟩⟩
    · rcases List.mem_cons.mp ht with heq | ht
      · cases heq
        exact hs
      · exact hfull t ht
    · cases q with
      | hole h => exact Or.inr rfl
      | literal t =>
          rcases List.head?_eq_some_iff.mp hq with ⟨rest, hrest⟩
          exact absurd hrest (hnext t rest)

/-- Joining texts makes parts canonical. -/
theorem isCanonical_mergeParts (ps : List Part) : IsCanonical (mergeParts ps) := by
  fun_induction mergeParts ps with
  | case1 => exact isCanonical_nil
  | case2 h rest ih => exact isCanonical_hole.mpr ih
  | case3 s rest hempty ih => exact ih
  | case4 s rest hfull t rest' hmerged ih =>
      rw [hmerged, isCanonical_literal] at ih
      refine isCanonical_literal.mpr ⟨fun hjoined => ?_, ih.2⟩
      exact ih.1 (String.append_eq_empty_iff.mp hjoined).2
  | case5 s rest hfull hmerged ih =>
      refine isCanonical_literal.mpr ⟨fun hs => ?_, hmerged, ih⟩
      exact hfull (String.isEmpty_iff.mpr hs)

/-- Canonical parts without a hole are one text, or nothing. -/
theorem IsCanonical.eq_of_holes_eq_nil {ps : List Part} (h : IsCanonical ps)
    (hholes : ps.filterMap Part.hole? = []) : ps = [] ∨ ∃ s, ps = [.literal s] := by
  cases ps with
  | nil => exact Or.inl rfl
  | cons p rest =>
      cases p with
      | hole => cases hholes
      | literal s =>
          refine Or.inr ⟨s, ?_⟩
          rcases isCanonical_literal.mp h with ⟨_, hnext, _⟩
          cases rest with
          | nil => rfl
          | cons q rest =>
              cases q with
              | hole => cases hholes
              | literal t => exact absurd rfl (hnext t rest)

/-- The first gap is empty where parts do not begin with a text. -/
theorem exists_gaps_of_no_literal {ps : List Part} (hnext : ∀ t rest, ps ≠ .literal t :: rest) :
    ∃ gs, gaps Part.text? ps = "" :: gs := by
  cases ps with
  | nil => exact ⟨[], rfl⟩
  | cons p rest =>
      cases p with
      | hole => exact ⟨_, rfl⟩
      | literal t => exact absurd rfl (hnext t rest)

/-- A text in front of canonical parts that goes with it fills the first gap. -/
theorem IsCanonical.gaps_literal {s : String} {ps : List Part}
    (h : IsCanonical (.literal s :: ps)) :
    s ≠ "" ∧
      ∃ gs, gaps Part.text? ps = "" :: gs ∧ gaps Part.text? (.literal s :: ps) = s :: gs := by
  rcases isCanonical_literal.mp h with ⟨hs, hnext, _⟩
  rcases exists_gaps_of_no_literal hnext with ⟨gs, hgaps⟩
  refine ⟨hs, gs, hgaps, ?_⟩
  rw [Letterpress.gaps_literal, hgaps, List.modifyHead_cons, String.append_empty]

/-- Canonical parts begin with the same text as parts that begin with one and have their gaps. -/
theorem IsCanonical.exists_literal {s : String} {ps qs : List Part}
    (hps : IsCanonical (.literal s :: ps)) (hqs : IsCanonical qs)
    (hgaps : gaps Part.text? (.literal s :: ps) = gaps Part.text? qs) :
    ∃ qs', qs = .literal s :: qs' ∧ gaps Part.text? ps = gaps Part.text? qs' := by
  rcases hps.gaps_literal with ⟨hs, gs, hbehind, hfirst⟩
  rw [hfirst] at hgaps
  cases qs with
  | nil =>
      -- The first gap would be empty, here and in front of a hole, and the text is not.
      rw [gaps, List.cons.injEq] at hgaps
      exact absurd hgaps.1 hs
  | cons q qs =>
      cases q with
      | hole h =>
          rw [gaps_hole, List.cons.injEq] at hgaps
          exact absurd hgaps.1 hs
      | literal t =>
          rcases hqs.gaps_literal with ⟨_, gs', hbehind', hfirst'⟩
          rw [hfirst', List.cons.injEq] at hgaps
          rcases hgaps with ⟨rfl, rfl⟩
          exact ⟨qs, rfl, hbehind.trans hbehind'.symm⟩

/-- Canonical parts are known from their holes and gaps. If the holes are only related, one by one,
    this is all in which the parts can differ. -/
theorem IsCanonical.alike {r : Hole → Hole → Prop} {ps qs : List Part} (hps : IsCanonical ps)
    (hqs : IsCanonical qs)
    (hholes : List.Forall₂ r (ps.filterMap Part.hole?) (qs.filterMap Part.hole?))
    (hgaps : gaps Part.text? ps = gaps Part.text? qs) : List.Forall₂ (Part.Alike r) ps qs := by
  induction ps generalizing qs with
  | nil =>
      -- There are no holes on either side, so only one text could make a difference.
      rcases hqs.eq_of_holes_eq_nil (List.forall₂_nil_left_iff.mp hholes) with rfl | ⟨t, rfl⟩
      · exact .nil
      · rcases hqs.exists_literal hps hgaps.symm with ⟨_, heq, _⟩
        cases heq
  | cons p ps ih =>
      cases p with
      | literal s =>
          rcases hps.exists_literal hqs hgaps with ⟨qs', rfl, hbehind⟩
          exact .cons (.literal s) (ih (isCanonical_literal.mp hps).2.2
            (isCanonical_literal.mp hqs).2.2 hholes hbehind)
      | hole h =>
          cases qs with
          | nil => cases hholes
          | cons q qs =>
              cases q with
              | literal t =>
                  -- Then both would begin with this text.
                  rcases hqs.exists_literal hps hgaps.symm with ⟨_, heq, _⟩
                  cases heq
              | hole h' =>
                  rw [gaps_hole, gaps_hole, List.cons.injEq] at hgaps
                  cases hholes with
                  | cons hfirst hrest =>
                      exact .cons (.hole hfirst)
                        (ih (isCanonical_hole.mp hps) (isCanonical_hole.mp hqs) hrest hgaps.2)

theorem eq_of_alike {ps qs : List Part} (h : List.Forall₂ (Part.Alike (· = ·)) ps qs) :
    ps = qs := by
  induction h with
  | nil => rfl
  | cons hfirst _ ih =>
      cases hfirst with
      | literal s => rw [ih]
      | hole heq => rw [heq, ih]

/-- Canonical parts with the same holes and gaps are the same. -/
theorem IsCanonical.eq_of_gaps {ps qs : List Part} (hps : IsCanonical ps) (hqs : IsCanonical qs)
    (hholes : ps.filterMap Part.hole? = qs.filterMap Part.hole?)
    (hgaps : gaps Part.text? ps = gaps Part.text? qs) : ps = qs := by
  refine eq_of_alike (hps.alike hqs ?_ hgaps)
  rw [List.forall₂_eq_eq_eq]
  exact hholes

theorem Body.Alike.eq {b b' : Body} (h : Body.Alike (· = ·) b b') : b = b' := by
  cases h with
  | plain s => rfl
  | mixed hparts => rw [eq_of_alike hparts]

theorem gaps_ofParts (ps : List Part) : (Body.ofParts ps).gaps = gaps Part.text? ps := by
  unfold Body.ofParts
  split
  · rfl
  · rw [Body.gaps, gaps_literal, gaps, List.modifyHead_cons, String.append_empty]
  · rfl

/-- Canonical parts make a canonical body. It is a text where nothing else is left. -/
theorem isCanonical_ofParts {ps : List Part} (h : IsCanonical ps) :
    (Body.ofParts ps).IsCanonical := by
  by_cases hholes : ps.filterMap Part.hole? = []
  · rcases h.eq_of_holes_eq_nil hholes with rfl | ⟨s, rfl⟩
    · exact trivial
    · exact trivial
  · unfold Body.ofParts
    split
    · exact trivial
    · exact trivial
    · exact ⟨h, hholes⟩

section

variable {plan plan' : Plan}

theorem isPlain_iff (h : plan.body.IsCanonical) :
    (∃ s, plan.body = .plain s) ↔ plan.holes = [] := by
  unfold Plan.holes Plan.parts
  cases hbody : plan.body with
  | plain s => simp
  | mixed ps =>
      rw [hbody] at h
      simpa using h.2

/-- Canonical bodies are known from their holes and gaps. -/
theorem alike_of_gaps {r : Hole → Hole → Prop} (h : plan.body.IsCanonical)
    (h' : plan'.body.IsCanonical) (hholes : List.Forall₂ r plan.holes plan'.holes)
    (hgaps : plan.body.gaps = plan'.body.gaps) : Body.Alike r plan.body plan'.body := by
  unfold Plan.holes Plan.parts at hholes
  cases hbody : plan.body with
  | plain s =>
      cases hbody' : plan'.body with
      | plain t =>
          rw [hbody, hbody', Body.gaps, Body.gaps, List.cons.injEq] at hgaps
          rw [hgaps.1]
          exact .plain t
      | mixed qs =>
          -- One of the two has a hole.
          rw [hbody, hbody'] at hholes
          rw [hbody'] at h'
          exact absurd (List.forall₂_nil_left_iff.mp hholes) h'.2
  | mixed ps =>
      rw [hbody] at h hholes hgaps
      cases hbody' : plan'.body with
      | plain t =>
          rw [hbody'] at hholes
          exact absurd (List.forall₂_nil_right_iff.mp hholes) h.2
      | mixed qs =>
          rw [hbody'] at h' hholes hgaps
          exact .mixed (h.1.alike h'.1 hholes hgaps)

end

theorem mergeParts_append_congr {qs qs' : List Part} (h : mergeParts qs = mergeParts qs')
    (ps : List Part) : mergeParts (ps ++ qs) = mergeParts (ps ++ qs') := by
  induction ps with
  | nil => exact h
  | cons p ps ih =>
      cases p with
      | hole h => simp only [List.cons_append, mergeParts, ih]
      | literal s => simp only [List.cons_append, mergeParts, ih]

/-- A text that is cut in two is joined again. -/
theorem mergeParts_literal_append {s t : String} (hs : s ≠ "") (ht : t ≠ "") (ps : List Part) :
    mergeParts (.literal (s ++ t) :: ps) = mergeParts (.literal s :: .literal t :: ps) := by
  have hs' : s.isEmpty = false := by simpa using hs
  have ht' : t.isEmpty = false := by simpa using ht
  have hst : (s ++ t).isEmpty = false := by simp [hs]
  simp only [mergeParts, hs', ht', hst, Bool.false_eq_true, if_false]
  cases mergeParts ps with
  | nil => rfl
  | cons q rest =>
      cases q with
      | hole h => rfl
      | literal u => simp only [String.append_assoc]

theorem isCanonical_concat {ps : List Part} {p : Part} : IsCanonical (ps ++ [p]) ↔
    IsCanonical ps ∧ p ≠ .literal "" ∧ ∀ q ∈ ps.getLast?, q.text? = none ∨ p.text? = none := by
  constructor
  · rintro ⟨hfull, hapart⟩
    rcases List.isChain_append.mp hapart with ⟨hps, _, hlast⟩
    refine ⟨⟨fun s hs => hfull s (List.mem_append_left _ hs), hps⟩, ?_,
      fun q hq => hlast q hq p rfl⟩
    rintro rfl
    exact hfull "" (List.mem_append_right _ List.mem_cons_self) rfl
  · rintro ⟨⟨hfull, hapart⟩, hp, hlast⟩
    refine ⟨fun s hs => ?_, List.isChain_append.mpr ⟨hapart, .singleton _, ?_⟩⟩
    · rcases List.mem_append.mp hs with hs | hs
      · exact hfull s hs
      · rintro rfl
        exact hp (List.mem_singleton.mp hs).symm
    · intro q hq p' hp'
      rw [List.head?_cons, Option.mem_def, Option.some_inj] at hp'
      exact hp' ▸ hlast q hq

/-- What adding a part can do: leave out an empty text, join a text to another one, or put the part
    where it does not come next to a text of its own sort. -/
theorem pushPart_cases (ps : List Part) (p : Part) :
    (p = .literal "" ∧ pushPart ps p = ps) ∨
      (∃ front t s, s ≠ "" ∧ p = .literal s ∧ ps = front ++ [.literal t] ∧
        pushPart ps p = front ++ [.literal (t ++ s)]) ∨
      (p ≠ .literal "" ∧ (∀ q ∈ ps.getLast?, q.text? = none ∨ p.text? = none) ∧
        pushPart ps p = ps ++ [p]) := by
  cases p with
  | hole h => exact Or.inr (Or.inr ⟨nofun, fun _ _ => Or.inr rfl, rfl⟩)
  | literal s =>
      by_cases hs : s = ""
      · rw [hs]
        exact Or.inl ⟨rfl, rfl⟩
      · have hfull : ¬ s.isEmpty = true := fun hempty => hs (String.isEmpty_iff.mp hempty)
        have hne : Part.literal s ≠ .literal "" := fun heq => hs (Part.literal.inj heq)
        -- What a text is joined to depends on the last of the parts.
        rcases List.eq_nil_or_concat ps with rfl | ⟨front, q, rfl⟩
        · exact Or.inr (Or.inr ⟨hne, nofun, if_neg hfull⟩)
        · rw [List.concat_eq_append]
          cases q with
          | hole h =>
              refine Or.inr (Or.inr ⟨hne, fun q hq => ?_, ?_⟩)
              · rw [List.getLast?_concat, Option.mem_def, Option.some_inj] at hq
                exact Or.inl (hq ▸ rfl)
              · simp only [pushPart, if_neg hfull, List.getLast?_concat]
          | literal t =>
              refine Or.inr (Or.inl ⟨front, t, s, hs, rfl, rfl, ?_⟩)
              simp only [pushPart, if_neg hfull, List.getLast?_concat, List.dropLast_concat]

/-- Adding a part keeps parts canonical. -/
theorem isCanonical_pushPart {ps : List Part} (h : IsCanonical ps) (p : Part) :
    IsCanonical (pushPart ps p) := by
  rcases pushPart_cases ps p with ⟨_, hpush⟩ | ⟨front, t, s, hs, _, rfl, hpush⟩ |
    ⟨hfull, hlast, hpush⟩
  · rwa [hpush]
  · -- The longer text stands where the last one stood.
    rcases isCanonical_concat.mp h with ⟨hfront, _, hlast⟩
    rw [hpush]
    refine isCanonical_concat.mpr ⟨hfront, fun heq => ?_, fun q hq => ?_⟩
    · exact hs (String.append_eq_empty_iff.mp (Part.literal.inj heq)).2
    · exact (hlast q hq).imp_right nofun
  · rw [hpush]
    exact isCanonical_concat.mpr ⟨h, hfull, hlast⟩

/-- A part may be added first, whatever comes behind it. -/
theorem mergeParts_pushPart {ps : List Part} (h : IsCanonical ps) (p : Part) (qs : List Part) :
    mergeParts (pushPart ps p ++ qs) = mergeParts (ps ++ p :: qs) := by
  rcases pushPart_cases ps p with ⟨rfl, hpush⟩ | ⟨front, t, s, hs, rfl, rfl, hpush⟩ |
    ⟨_, _, hpush⟩
  · have hempty : mergeParts qs = mergeParts (.literal "" :: qs) := rfl
    rw [hpush]
    exact mergeParts_append_congr hempty ps
  · have ht : t ≠ "" := h.full t (List.mem_append_right _ List.mem_cons_self)
    rw [hpush, List.append_assoc, List.append_assoc]
    exact mergeParts_append_congr (mergeParts_literal_append ht hs qs) front
  · rw [hpush, List.append_assoc, List.singleton_append]

/-- Texts can be joined as they come, behind whatever is canonical so far. -/
theorem foldl_pushPart {ps : List Part} (h : IsCanonical ps) (qs : List Part) :
    qs.foldl pushPart ps = mergeParts (ps ++ qs) := by
  induction qs generalizing ps with
  | nil =>
      rw [List.foldl_nil, List.append_nil]
      exact h.eq_of_gaps (isCanonical_mergeParts ps) (holes_mergeParts ps).symm
        (gaps_mergeParts ps).symm
  | cons q qs ih => rw [List.foldl_cons, ih (isCanonical_pushPart h q), mergeParts_pushPart h]

section

variable {scope scope' : Scope}

theorem map_call_of_resolved {table : FilterTable} {calls : List FilterUse} {steps : List Step}
    (h : List.Forall₂ (IsResolved table) calls steps) :
    steps.map (fun s => (s.name, s.args)) = calls.map FilterUse.call := by
  induction h with
  | nil => rfl
  | cons hfirst _ ih =>
      rw [List.map_cons, List.map_cons, ih, hfirst.1, hfirst.2.1]
      rfl

/-- A hole is as its placeholder was written. -/
theorem written_of_holeOf {p : Placeholder} {h : Hole} (hole : scope.holeOf p = .ok h) :
    h.written = p.written := by
  rcases isResolved_of_holeOf hole with ⟨hpath, hsteps⟩
  rw [Hole.written, Placeholder.written, hpath, map_call_of_resolved hsteps]

theorem step_eq_of_resolved {table table' : FilterTable} {call call' : FilterUse} {s s' : Step}
    (h : IsResolved table call s) (h' : IsResolved table' call' s')
    (hcall : call.call = call'.call)
    (hsame : table.filter? call.name = table'.filter? call.name) : s = s' := by
  rcases h with ⟨hname, hargs, hfilter⟩
  rcases h' with ⟨hname', hargs', hfilter'⟩
  rw [FilterUse.call, FilterUse.call, Prod.mk.injEq] at hcall
  rw [← hcall.1, ← hsame, hfilter, Option.some_inj] at hfilter'
  rcases s with ⟨name, args, filter⟩
  rcases s' with ⟨name', args', filter'⟩
  rw [Step.mk.injEq]
  exact ⟨hname.trans (hcall.1.trans hname'.symm), hargs.trans (hcall.2.trans hargs'.symm), hfilter'⟩

/-- Filters that are written alike, and whose names stand for the same, become the same steps. -/
theorem steps_eq_of_resolved {table table' : FilterTable} {calls calls' : List FilterUse}
    {steps steps' : List Step} (h : List.Forall₂ (IsResolved table) calls steps)
    (h' : List.Forall₂ (IsResolved table') calls' steps')
    (hcalls : calls.map FilterUse.call = calls'.map FilterUse.call)
    (hsame : ∀ call ∈ calls, table.filter? call.name = table'.filter? call.name) :
    steps = steps' := by
  induction h generalizing calls' steps' with
  | nil =>
      rw [List.map_nil, eq_comm, List.map_eq_nil_iff] at hcalls
      subst hcalls
      cases h'
      rfl
  | cons hfirst _ ih =>
      cases h' with
      | nil => cases hcalls
      | cons hfirst' hrest' =>
          rw [List.map_cons, List.map_cons, List.cons.injEq] at hcalls
          rcases List.forall_mem_cons.mp hsame with ⟨hfilter, hfilters⟩
          rw [step_eq_of_resolved hfirst hfirst' hcalls.1 hfilter, ih hrest' hcalls.2 hfilters]

theorem hole_eq_of_written {p p' : Placeholder} {h h' : Hole} (hole : scope.holeOf p = .ok h)
    (hole' : scope'.holeOf p' = .ok h') (hwritten : p.written = p'.written)
    (hsame : ∀ call ∈ p.filters,
      scope.filters.filter? call.name = scope'.filters.filter? call.name) : h = h' := by
  rcases isResolved_of_holeOf hole with ⟨hpath, hsteps⟩
  rcases isResolved_of_holeOf hole' with ⟨hpath', hsteps'⟩
  rw [Placeholder.written, Placeholder.written, Prod.mk.injEq] at hwritten
  rcases h with ⟨path, steps⟩
  rcases h' with ⟨path', steps'⟩
  rw [Hole.mk.injEq]
  exact ⟨hpath.trans (hwritten.1.trans hpath'.symm),
    steps_eq_of_resolved hsteps hsteps' hwritten.2 hsame⟩

/-- The holes of placeholders that are written alike are related if those of any two of them are. -/
theorem forall₂_of_written {r : Hole → Hole → Prop} {ps ps' : List Placeholder}
    {hs hs' : List Hole} (h : List.Forall₂ (fun p h => scope.holeOf p = .ok h) ps hs)
    (h' : List.Forall₂ (fun p h => scope'.holeOf p = .ok h) ps' hs')
    (hwritten : ps.map Placeholder.written = ps'.map Placeholder.written)
    (hr : ∀ p ∈ ps, ∀ p' h h', p.written = p'.written → scope.holeOf p = .ok h →
      scope'.holeOf p' = .ok h' → r h h') : List.Forall₂ r hs hs' := by
  induction h generalizing ps' hs' with
  | nil =>
      rw [List.map_nil, eq_comm, List.map_eq_nil_iff] at hwritten
      subst hwritten
      cases h'
      exact .nil
  | cons hfirst _ ih =>
      cases h' with
      | nil => cases hwritten
      | cons hfirst' hrest' =>
          rw [List.map_cons, List.map_cons, List.cons.injEq] at hwritten
          rcases List.forall_mem_cons.mp hr with ⟨hone, hothers⟩
          exact .cons (hone _ _ _ hwritten.1 hfirst hfirst') (ih hrest' hwritten.2 hothers)

theorem exists_unrolls_of_compile {ns : List Node} {plan : Plan}
    (hplan : compile scope ns = .ok plan) :
    ∃ es, scope.Unrolls ns es ∧ plan.body.IsCanonical ∧
      List.Forall₂ (fun p h => scope.holeOf p = .ok h) (placeholders es) plan.holes ∧
      plan.body.gaps = gaps Node.text? es := by
  unfold compile at hplan
  split at hplan
  · cases hplan
  · next parts hexpand =>
      cases hplan
      rcases exists_unrolls_of_expand hexpand with ⟨es, hunrolls, hmakes⟩
      refine ⟨es, hunrolls, isCanonical_ofParts (isCanonical_mergeParts parts), ?_, ?_⟩
      · rw [holes_ofParts, holes_mergeParts]
        exact holes_of_makes hmakes
      · rw [gaps_ofParts, gaps_mergeParts]
        exact gaps_of_makes hmakes

/-- Bodies are canonical. The body of compiled nodes is a text exactly if no placeholder is left
    among the nodes and all that they include; otherwise none of its texts is empty or next to
    another one. Its holes are the placeholders in document order, and between them are the texts of
    the nodes, with what belongs to one gap put together. So two templates, of whatever scopes, that
    have placeholders written alike and the same text in the gaps have the same body, apart from
    what the names of filters stand for, and without any difference if they stand for the same. -/
theorem body_canonical {ns : List Node} {plan : Plan} (hplan : compile scope ns = .ok plan) :
    ∃ es, (∀ fs, scope.Unrolls ns fs ↔ fs = es) ∧
      ((∃ s, plan.body = .plain s) ↔ placeholders es = []) ∧
      (∀ ps, plan.body = .mixed ps → IsCanonical ps) ∧
      List.Forall₂ (fun p h => scope.holeOf p = .ok h) (placeholders es) plan.holes ∧
      plan.body.gaps = gaps Node.text? es ∧
      ∀ (scope' : Scope) ns' es' plan', compile scope' ns' = .ok plan' → scope'.Unrolls ns' es' →
        (placeholders es).map Placeholder.written = (placeholders es').map Placeholder.written →
        gaps Node.text? es = gaps Node.text? es' →
          Body.Alike (fun h h' => h.written = h'.written) plan.body plan'.body ∧
          ((∀ p ∈ placeholders es, ∀ call ∈ p.filters,
              scope.filters.filter? call.name = scope'.filters.filter? call.name) →
            plan.body = plan'.body) := by
  rcases exists_unrolls_of_compile hplan with ⟨es, hunrolls, hcanonical, hholes, hgaps⟩
  refine ⟨es, fun fs => ⟨hunrolls.unique, fun heq => heq ▸ hunrolls⟩, ?_, ?_, hholes, hgaps, ?_⟩
  · rw [isPlain_iff hcanonical, ← List.length_eq_zero_iff, ← List.length_eq_zero_iff,
      hholes.length_eq]
  · intro ps hbody
    rw [hbody] at hcanonical
    exact hcanonical.1
  -- Both bodies are canonical and have the same gaps, so only holes are left to be compared.
  · intro scope' ns' es' plan' hplan' hunrolls' hwritten hsame
    rcases exists_unrolls_of_compile hplan' with ⟨fs, hfs, hcanonical', hholes', hgaps'⟩
    rw [← hfs.unique hunrolls'] at hholes' hgaps'
    have hbodies : plan.body.gaps = plan'.body.gaps := hgaps.trans (hsame.trans hgaps'.symm)
    refine ⟨alike_of_gaps hcanonical hcanonical' ?_ hbodies, fun hfilters => ?_⟩
    · refine forall₂_of_written hholes hholes' hwritten ?_
      intro p _ p' h h' hpp hole hole'
      rw [written_of_holeOf hole, written_of_holeOf hole', hpp]
    · refine Body.Alike.eq (alike_of_gaps hcanonical hcanonical' ?_ hbodies)
      refine forall₂_of_written hholes hholes' hwritten ?_
      intro p hp p' h h' hpp hole hole'
      exact hole_eq_of_written hole hole' hpp (hfilters p hp)

end

/-- A scope with a template that has nothing in it, and one that has an escaped brace behind it. -/
def quilt : Scope where
  filters := Dictionary.empty.insert "shout" ⟨shout, .caller⟩
  templates := (Dictionary.empty.insert "blank" "").insert "edge" "\x7b>blank\x7d\x7b\x7b"
  options := {}

/-- A text in three pieces, a placeholder, and a text behind nothing. -/
def patches : List Node :=
  [.text "a" ⟨0, 1⟩, .inclusion ⟨"edge", ⟨1, 8⟩⟩,
    .placeholder ⟨["x"], [⟨"shout", [], ⟨10, 16⟩⟩], ⟨8, 17⟩⟩, .inclusion ⟨"blank", ⟨17, 25⟩⟩,
    .text "b" ⟨25, 26⟩]

/-- The same in one piece each, for a scope without these templates. -/
def cloth : List Node :=
  [.text "a\x7b" ⟨0, 2⟩, .placeholder ⟨["x"], [⟨"shout", [], ⟨4, 10⟩⟩], ⟨2, 11⟩⟩,
    .text "b" ⟨11, 12⟩]

/-- The plan of both. -/
def clothPlan : Plan where
  body := .mixed [.literal "a\x7b", .hole ⟨["x"], [⟨"shout", [], shout⟩]⟩, .literal "b"]
  whenAbsent := .keep

theorem registered?_blank : quilt.registered? "blank" = some [] := by decide +kernel

theorem registered?_edge : quilt.registered? "edge" =
    some [.inclusion ⟨"blank", ⟨0, 8⟩⟩, .text "\x7b" ⟨8, 10⟩] := by decide +kernel

theorem compile_patches : compile quilt patches = .ok clothPlan := by
  have h₁ : quilt.enter [] "edge" = .ok _ := enter_eq_ok_iff.mpr ⟨by decide, registered?_edge⟩
  have h₂ : quilt.enter ["edge"] "blank" = .ok _ :=
    enter_eq_ok_iff.mpr ⟨by decide, registered?_blank⟩
  have h₃ : quilt.enter [] "blank" = .ok _ := enter_eq_ok_iff.mpr ⟨by decide, registered?_blank⟩
  unfold compile patches
  simp only [expand, expand_inclusion, h₁, h₂, h₃, List.nil_append, Scope.holeOf]
  rfl

theorem compile_cloth : compile letterScope cloth = .ok clothPlan := by
  unfold compile cloth
  simp only [expand, Scope.holeOf]
  rfl

/-- The seams of the patches do not show. -/
theorem body_canonical_patches :
    ∃ plan plan', compile quilt patches = .ok plan ∧ compile letterScope cloth = .ok plan' ∧
      plan.body.gaps = ["a\x7b", "b"] ∧ (¬ ∃ s, plan.body = .plain s) ∧
      plan.body = plan'.body := by
  have hcloth : letterScope.Unrolls cloth cloth := .text (.placeholder (.text .nil))
  have hpatches : quilt.Unrolls patches [.text "a" ⟨0, 1⟩, .text "\x7b" ⟨8, 10⟩,
      .placeholder ⟨["x"], [⟨"shout", [], ⟨10, 16⟩⟩], ⟨8, 17⟩⟩, .text "b" ⟨25, 26⟩] :=
    .text (.inclusion registered?_edge (.inclusion registered?_blank .nil (.text .nil))
      (.placeholder (.inclusion registered?_blank .nil (.text .nil))))
  rcases body_canonical compile_patches with ⟨es, hall, hplain, _, _, hgaps, hother⟩
  have hes := (hall _).mp hpatches
  subst hes
  have hsame := hother letterScope cloth cloth clothPlan compile_cloth hcloth (by decide)
    (by decide)
  refine ⟨clothPlan, clothPlan, compile_patches, compile_cloth, ?_, ?_, hsame.2 ?_⟩
  · rw [hgaps]
    decide
  · rw [hplain]
    decide
  · exact fun _ _ _ _ => rfl

end Letterpress
