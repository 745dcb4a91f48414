import Letterpress.Proofs.Tiling

/-!
# Concatenation

Two sources that are written one behind the other. The nodes are those of the first source and
those of the second one, read further on, with one exception that is no surprise: where the first
source ends with plain text and the second one begins with it, this is one text and not two.

There is exactly one way for this to go wrong. A closing brace stands for itself unless another
one follows, so a first source that ends with one brace of this sort must not be followed by a
second one. Everything else is safe at the seam. A tag ends with its own brace and looks no
further, and so do two braces that stand for one; whatever number of them there is, they were
paired in the first source, and the pairing is not begun anew. An opening brace cannot be the last
character that is left over, as the first source would be no template.

What carries the proof is how far plain text reaches. A run of it in the middle of the first source
has ended before the seam, and what ended it is still there. Only a run that reaches the seam sees
what stands behind it, and it goes on exactly as far as the second source begins with a run. At the
bad seam the run ends earlier than it did, before its last brace, so the nodes are others.

## Main definitions

* `Node.plain?`: The text of a node that stands for itself.
* `Node.join?`: Two neighbouring texts as one.
* `joined`: The nodes of two sources, one behind the other.
* `ClosesAcross`: The seam makes one brace of two.

## Theorems

* `plainText_append_of_seam`, `plainText_of_closes`: How far plain text reaches across a seam.
* `PieceAt.extend`: In front of the seam nothing changes.
* `piecesAt_plainText_append`, `PieceAt.append`: What becomes of the last node at a good seam.
* `PieceAt.not_append`: At a bad seam the last node is lost.
* `PiecesAt.append_iff`: The nodes of two sources, if the seam is a good one and only then.
* `PiecesAt.moved`: The nodes of a source, read further on.
* `readTemplate_append_iff`: All of it, for sources that are templates.
-/

namespace Letterpress

/-- The text of a node, if it was written as it is and not as two braces. -/
def Node.plain? : Node → Option String
  | .text s span => if span.length = s.utf8ByteSize then some s else none
  | _ => none

/-- Two neighbouring texts as one, if both were written as they are. -/
def Node.join? (n m : Node) : Option Node :=
  match n.plain?, m.plain? with
  | some s, some t => some (.text (s ++ t) ⟨n.span.start, m.span.stop⟩)
  | _, _ => none

/-- The nodes of two sources, one behind the other. Only the last node of the first source and the
    first node of the second one may become one. -/
def joined (ns ms : List Node) : List Node :=
  match ns.getLast?, ms with
  | some n, m :: rest =>
    match n.join? m with
    | some k => ns.dropLast ++ k :: rest
    | none => ns ++ ms
  | _, _ => ns ++ ms

/-- The last node is a text that stands for itself and ends with a closing brace, and another one
    follows. -/
def ClosesAcross (ns : List Node) (cs : List Char) : Prop :=
  ∃ n s, ns.getLast? = some n ∧ n.plain? = some s ∧ s.toList.getLast? = some '}' ∧
    cs.head? = some '}'

theorem joined_nil (ns : List Node) : joined ns [] = ns := by
  unfold joined
  split
  · next h => cases h
  · exact List.append_nil ns

theorem joined_singleton_cons (n m : Node) (ms : List Node) :
    joined [n] (m :: ms) =
      match n.join? m with
      | some k => k :: ms
      | none => n :: m :: ms := rfl

/-- Nodes in front of the last one have no part in what happens at the seam. -/
theorem joined_cons {ns : List Node} (hne : ns ≠ []) (n : Node) (ms : List Node) :
    joined (n :: ns) ms = n :: joined ns ms := by
  unfold joined
  rw [List.getLast?_cons_of_ne_nil hne, List.dropLast_cons_of_ne_nil hne]
  split
  · split
    · rfl
    · rfl
  · rfl

theorem closesAcross_cons_iff {n : Node} {ns : List Node} {cs : List Char} (hne : ns ≠ []) :
    ClosesAcross (n :: ns) cs ↔ ClosesAcross ns cs := by
  unfold ClosesAcross
  rw [List.getLast?_cons_of_ne_nil hne]

/-- Whether a character stands for itself is seen from the next one, if there is one. -/
theorem StartsPlain.append {c : Char} {cs : List Char} (h : StartsPlain (c :: cs)) (hne : cs ≠ [])
    (ds : List Char) : StartsPlain (c :: (cs ++ ds)) := by
  rw [StartsPlain, List.head?_append_of_ne_nil _ hne]
  exact h

/-- A run that reaches the seam goes on behind it, unless the seam makes one brace of two. -/
theorem plainText_append_of_seam {cs ds : List Char} (hcs : plainText cs = cs)
    (hseam : ¬(cs.getLast? = some '}' ∧ ds.head? = some '}')) :
    plainText (cs ++ ds) = cs ++ plainText ds := by
  induction cs with
  | nil => rfl
  | cons c cs ih =>
      rcases plainText_cons_eq_iff.mp hcs with ⟨hstarts, _, hothers⟩
      refine plainText_cons_eq_iff.mpr ⟨?_, rfl, ?_⟩
      · by_cases hlast : cs = []
        · rw [hlast] at hseam ⊢
          exact ⟨hstarts.1, fun hclose => hseam ⟨congrArg some hclose.1, hclose.2⟩⟩
        · exact hstarts.append hlast ds
      · refine ih hothers fun hclose => hseam ⟨?_, hclose.2⟩
        rw [List.getLast?_cons, hclose.1]
        rfl

/-- A run that has ended before the seam ends in the same place with something behind the seam. -/
theorem plainText_extend {run rest : List Char} (h : plainText (run ++ rest) = run)
    (hne : rest ≠ []) (ds : List Char) : plainText (run ++ (rest ++ ds)) = run := by
  induction run with
  | nil =>
      rcases List.exists_cons_of_ne_nil hne with ⟨x, xs, rfl⟩
      exact plainText_eq_nil_iff.mpr fun hstarts =>
        plainText_eq_nil_iff.mp h hstarts.of_append_left
  | cons c run ih =>
      rw [List.cons_append] at h ⊢
      rcases plainText_cons_eq_iff.mp h with ⟨hstarts, _, hothers⟩
      refine plainText_cons_eq_iff.mpr ⟨?_, rfl, ih hothers⟩
      rw [← List.append_assoc]
      exact hstarts.append (List.append_ne_nil_of_right_ne_nil run hne) ds

/-- Where the seam makes one brace of two, a run does not reach it. -/
theorem plainText_of_closes {cs ds : List Char} (hcs : cs.getLast? = some '}')
    (hds : ds.head? = some '}') : ∃ tail, tail ≠ [] ∧ cs = plainText (cs ++ ds) ++ tail := by
  induction cs with
  | nil => cases hcs
  | cons c cs ih =>
      by_cases hstarts : StartsPlain (c :: (cs ++ ds))
      · have hne : cs ≠ [] := by
          rintro rfl
          exact hstarts.2 ⟨Option.some.inj hcs, hds⟩
        rw [List.getLast?_cons_of_ne_nil hne] at hcs
        rcases ih hcs with ⟨tail, htail, hsplit⟩
        refine ⟨tail, htail, ?_⟩
        rw [List.cons_append, plainText_cons_eq_iff.mpr ⟨hstarts, rfl, rfl⟩, List.cons_append,
          ← hsplit]
      · refine ⟨c :: cs, List.cons_ne_nil _ _, ?_⟩
        rw [List.cons_append, plainText_eq_nil_iff.mpr hstarts, List.nil_append]

theorem length_span (o n : Nat) : (⟨o, o + n⟩ : Span).length = n :=
  Nat.add_sub_cancel_left _ _

/-- A run of plain text is a piece, whatever it consists of. -/
theorem pieceAt_of_plainText {cs rest : List Char} (hne : cs ≠ [])
    (h : plainText (cs ++ rest) = cs) (o : Nat) :
    PieceAt o cs rest (.text (String.ofList cs) ⟨o, o + byteLength cs⟩) := by
  rcases List.exists_cons_of_ne_nil hne with ⟨c, run, rfl⟩
  rcases plainText_cons_eq_iff.mp h with ⟨hfirst, _, hrun⟩
  exact .plain hfirst hrun

theorem plain?_text (cs : List Char) (o : Nat) :
    (Node.text (String.ofList cs) ⟨o, o + byteLength cs⟩).plain? = some (String.ofList cs) := by
  rw [Node.plain?, length_span, ← byteLength_toList, String.toList_ofList, if_pos rfl]

/-- Texts that follow each other are one text with one span. -/
theorem join?_text (cs cs' : List Char) (o : Nat) :
    (Node.text (String.ofList cs) ⟨o, o + byteLength cs⟩).join?
        (.text (String.ofList cs') ⟨o + byteLength cs, o + byteLength cs + byteLength cs'⟩) =
      some (.text (String.ofList (cs ++ cs')) ⟨o, o + byteLength (cs ++ cs')⟩) := by
  rw [String.ofList_append, byteLength_append, ← Nat.add_assoc]
  simp only [Node.join?, plain?_text, Node.span]

theorem plain?_brace {c : Char} (hc : c = '{' ∨ c = '}') (o : Nat) :
    (Node.text c.toString ⟨o, o + 2⟩).plain? = none := by
  rw [Node.plain?, length_span, if_neg]
  rcases hc with rfl | rfl
  · decide
  · decide

variable {o : Nat} {cs ds rest : List Char} {n : Node} {ns ms : List Node}

/-- A text that stands for itself is a run of plain text. -/
theorem PieceAt.eq_of_plain? (h : PieceAt o cs rest n) {s : String} (hs : n.plain? = some s) :
    n = .text (String.ofList cs) ⟨o, o + byteLength cs⟩ ∧ s = String.ofList cs ∧
      plainText (cs ++ rest) = cs := by
  cases h with
  | brace hc =>
      rw [plain?_brace hc] at hs
      cases hs
  | plain hfirst hrun =>
      rw [plain?_text] at hs
      exact ⟨rfl, (Option.some.inj hs).symm, plainText_cons_eq_iff.mpr ⟨hfirst, rfl, hrun⟩⟩
  | tag htag => cases htag <;> cases hs

/-- Any other node begins with a brace, and what stands behind it has no part in it. -/
theorem PieceAt.of_plain?_none (h : PieceAt o cs rest n) (hnone : n.plain? = none) :
    plainText (cs ++ rest) = [] ∧ ∀ ds, PieceAt o cs ds n := by
  cases h with
  | @brace c _ hc =>
      refine ⟨plainText_eq_nil_iff.mpr fun hstarts => ?_, fun _ => .brace hc⟩
      rcases hc with rfl | rfl
      · exact hstarts.1 rfl
      · exact hstarts.2 ⟨rfl, rfl⟩
  | plain =>
      rw [plain?_text] at hnone
      cases hnone
  | tag htag => exact ⟨plainText_eq_nil_iff.mpr fun hstarts => hstarts.1 rfl, fun _ => .tag htag⟩

/-- A piece that does not reach the seam is the same with something behind the seam. -/
theorem PieceAt.extend (h : PieceAt o cs rest n) (hne : rest ≠ []) (ds : List Char) :
    PieceAt o cs (rest ++ ds) n := by
  cases hplain : n.plain? with
  | none => exact (h.of_plain?_none hplain).2 _
  | some s =>
      rcases h.eq_of_plain? hplain with ⟨rfl, _, hrun⟩
      exact pieceAt_of_plainText h.ne_nil (plainText_extend hrun hne ds) o

/-- A run that reaches the seam, in front of another source. It takes up the run that this source
    begins with, if there is one. -/
theorem piecesAt_plainText_append (hne : cs ≠ []) (hrun : plainText cs = cs)
    (hds : PiecesAt (o + byteLength cs) ds ms)
    (hseam : ¬(cs.getLast? = some '}' ∧ ds.head? = some '}')) :
    PiecesAt o (cs ++ ds) (joined [.text (String.ofList cs) ⟨o, o + byteLength cs⟩] ms) := by
  have hreach := plainText_append_of_seam hrun hseam
  cases hds with
  | nil =>
      have hend : plainText (cs ++ []) = cs := by rwa [List.append_nil]
      rw [joined_nil]
      exact .cons (pieceAt_of_plainText hne hend o) .nil
  | @cons _ cs' rest m ms hpiece hrest =>
      rw [joined_singleton_cons]
      cases hplain : m.plain? with
      | none =>
          -- The other source begins with a brace that is no text, and the run ends there.
          rw [(hpiece.of_plain?_none hplain).1, List.append_nil] at hreach
          simp only [Node.join?, hplain, plain?_text]
          exact .cons (pieceAt_of_plainText hne hreach o) (.cons hpiece hrest)
      | some t =>
          rcases hpiece.eq_of_plain? hplain with ⟨rfl, _, hrun'⟩
          have hboth : cs ++ cs' ≠ [] := List.append_ne_nil_of_left_ne_nil hne _
          rw [hrun', ← List.append_assoc] at hreach
          rw [Nat.add_assoc, ← byteLength_append] at hrest
          simp only [join?_text]
          rw [← List.append_assoc]
          exact .cons (pieceAt_of_plainText hboth hreach o) hrest

/-- The last piece of a source in front of another source. -/
theorem PieceAt.append (h : PieceAt o cs [] n) (hds : PiecesAt (o + byteLength cs) ds ms)
    (hseam : ¬ ClosesAcross [n] ds) : PiecesAt o (cs ++ ds) (joined [n] ms) := by
  cases hplain : n.plain? with
  | none =>
      have hkeep : joined [n] ms = n :: ms := by
        cases ms with
        | nil => rfl
        | cons m ms => simp only [joined_singleton_cons, Node.join?, hplain]
      rw [hkeep]
      exact .cons ((h.of_plain?_none hplain).2 ds) hds
  | some s =>
      rcases h.eq_of_plain? hplain with ⟨rfl, rfl, hrun⟩
      rw [List.append_nil] at hrun
      refine piecesAt_plainText_append h.ne_nil hrun hds fun hclose => ?_
      refine hseam ⟨_, _, rfl, hplain, ?_, hclose.2⟩
      rw [String.toList_ofList]
      exact hclose.1

theorem PiecesAt.eq_nil_iff (h : PiecesAt o cs ns) : ns = [] ↔ cs = [] := by
  cases h with
  | nil => exact ⟨fun _ => rfl, fun _ => rfl⟩
  | cons hpiece _ =>
      refine ⟨fun h => absurd h (List.cons_ne_nil _ _), fun h => ?_⟩
      exact absurd (List.append_eq_nil_iff.mp h).1 hpiece.ne_nil

/-- Characters that begin in two ways with the same number of bytes begin in one way. -/
theorem eq_of_byteLength_eq {cs cs' ds ds' : List Char} (h : cs ++ ds = cs' ++ ds')
    (hlength : byteLength cs = byteLength cs') : cs = cs' ∧ ds = ds' := by
  have hempty : ∀ more : List Char, byteLength more = 0 → more = [] := by
    intro more hzero
    by_contra hne
    exact Nat.ne_of_gt (byteLength_pos hne) hzero
  rcases List.append_eq_append_iff.mp h with ⟨more, rfl, rfl⟩ | ⟨more, rfl, rfl⟩
  · rw [byteLength_append] at hlength
    rw [hempty more (by omega), List.append_nil, List.nil_append]
    exact ⟨rfl, rfl⟩
  · rw [byteLength_append] at hlength
    rw [hempty more (by omega), List.append_nil, List.nil_append]
    exact ⟨rfl, rfl⟩

/-- If the last node is plain text, the node that the seam makes of it is that text or a longer
    one. -/
theorem exists_joined_text (hds : PiecesAt (o + byteLength cs) ds ms) :
    ∃ more rest, joined [.text (String.ofList cs) ⟨o, o + byteLength cs⟩] ms =
      .text (String.ofList (cs ++ more)) ⟨o, o + byteLength (cs ++ more)⟩ :: rest := by
  cases hds with
  | nil =>
      refine ⟨[], [], ?_⟩
      rw [joined_nil, List.append_nil]
  | @cons _ cs' _ m ms hpiece _ =>
      rw [joined_singleton_cons]
      cases hplain : m.plain? with
      | none =>
          refine ⟨[], m :: ms, ?_⟩
          simp only [Node.join?, hplain, plain?_text, List.append_nil]
      | some t =>
          rcases hpiece.eq_of_plain? hplain with ⟨rfl, _, _⟩
          refine ⟨cs', ms, ?_⟩
          simp only [join?_text]

/-- At a bad seam the last piece is no piece any more, as its run ends before its last brace. -/
theorem PieceAt.not_append (h : PieceAt o cs [] n) (hds : PiecesAt (o + byteLength cs) ds ms)
    (hclose : ClosesAcross [n] ds) : ¬ PiecesAt o (cs ++ ds) (joined [n] ms) := by
  rcases hclose with ⟨n', s, hn, hplain, hend, hbrace⟩
  cases hn
  rcases h.eq_of_plain? hplain with ⟨rfl, rfl, _⟩
  rw [String.toList_ofList] at hend
  rcases plainText_of_closes hend hbrace with ⟨tail, htail, hsplit⟩
  rcases exists_joined_text hds with ⟨more, others, hjoined⟩
  rw [hjoined]
  intro hall
  generalize hwhole : cs ++ ds = whole at hall hsplit
  cases hall with
  | cons hpiece _ =>
      -- The text would be a run that takes up all of the last piece.
      rcases hpiece.eq_of_plain? (plain?_text _ _) with ⟨_, htext, hrun⟩
      rw [hrun, ← String.ofList_injective htext, List.append_assoc] at hsplit
      have hnone := List.self_eq_append_right.mp hsplit
      exact htail (List.append_eq_nil_iff.mp hnone).2

/-- Behind its first node, which says where it ends, a source can be read without it. -/
theorem PieceAt.piecesAt_cons_iff (h : PieceAt o cs rest n) :
    PiecesAt o (cs ++ rest) (n :: ns) ↔ PiecesAt (o + byteLength cs) rest ns := by
  refine ⟨fun hall => ?_, .cons h⟩
  generalize hwhole : cs ++ rest = whole at hall
  cases hall with
  | cons hpiece hrest =>
      have hspan := h.span_eq.symm.trans hpiece.span_eq
      rw [Span.mk.injEq] at hspan
      rcases eq_of_byteLength_eq hwhole (Nat.add_left_cancel hspan.2) with ⟨rfl, rfl⟩
      exact hrest

/-- The nodes of two sources are those of both together exactly if the seam is a good one. -/
theorem PiecesAt.append_iff (h : PiecesAt o cs ns) (hds : PiecesAt (o + byteLength cs) ds ms) :
    PiecesAt o (cs ++ ds) (joined ns ms) ↔ ¬ ClosesAcross ns ds := by
  induction h with
  | nil =>
      refine ⟨fun _ hclose => ?_, fun _ => hds⟩
      rcases hclose with ⟨_, _, hlast, _⟩
      cases hlast
  | @cons o cs rest n ns hpiece hrest ih =>
      by_cases hlast : rest = []
      · rw [hrest.eq_nil_iff.mpr hlast]
        rw [hlast] at hpiece hds ⊢
        rw [List.append_nil] at hds ⊢
        exact ⟨fun hall hclose => hpiece.not_append hds hclose hall, hpiece.append hds⟩
      · have hne : ns ≠ [] := fun hnil => hlast (hrest.eq_nil_iff.mp hnil)
        rw [byteLength_append, ← Nat.add_assoc] at hds
        rw [closesAcross_cons_iff hne, joined_cons hne, List.append_assoc,
          (hpiece.extend hlast ds).piecesAt_cons_iff]
        exact ih hds

theorem PiecesAt.exists_moved {k : Nat} (h : PiecesAt (o + k) cs ns) :
    ∃ ms, PiecesAt o cs ms ∧ ms.map (Node.moved k) = ns := by
  generalize hp : o + k = p at h
  induction h generalizing o with
  | nil => exact ⟨[], .nil, rfl⟩
  | @cons p cs rest n ns hpiece _ ih =>
      subst hp
      rcases hpiece.exists_moved with ⟨m, hm, hmoved⟩
      rcases ih (o := o + byteLength cs) (Nat.add_right_comm _ _ _) with ⟨ms, hms, hothers⟩
      refine ⟨m :: ms, .cons hm hms, ?_⟩
      rw [List.map_cons, hmoved, hothers]

/-- The grammar knows no offsets, so the same characters have nodes further on. Moved back they are
    those that were read. -/
theorem PiecesAt.moved (h : PiecesAt 0 cs ns) (k : Nat) :
    PiecesAt (0 + k) cs (ns.map (Node.moved k)) := by
  rcases exists_piecesAt (isTemplate_of_piecesAt h) (0 + k) with ⟨far, hfar, _⟩
  rcases hfar.exists_moved with ⟨near, hnear, hmoved⟩
  have heq := (nodes_of_piecesAt h).symm.trans (nodes_of_piecesAt hnear)
  rwa [Except.ok.inj heq, hmoved]

/-- Two sources that can be read can be read one behind the other. The nodes are those of both, with
    the spans of the second source moved by the bytes of the first one, and with plain texts that
    meet at the seam joined. This fails exactly if the seam makes one brace of two, where the first
    source ends with plain text that ends with a closing brace, and the second one begins with a
    closing brace. -/
theorem readTemplate_append_iff {a b : String} {ns ms : List Node} (ha : readTemplate a = .ok ns)
    (hb : readTemplate b = .ok ms) :
    readTemplate (a ++ b) = .ok (joined ns (ms.map (Node.moved a.utf8ByteSize))) ↔
      ¬ ClosesAcross ns b.toList := by
  have hfirst := readTemplate_iff_piecesAt.mp ha
  have hsecond := (readTemplate_iff_piecesAt.mp hb).moved (byteLength a.toList)
  rw [← byteLength_toList, readTemplate_iff_piecesAt, String.toList_append]
  exact hfirst.append_iff hsecond

/-- A source that ends with a closing brace which stands for itself. -/
def halfClosed : String := "Dear \x7byou\x7d\x7d"

/-- The nodes of this source. -/
def halfClosedNodes : List Node :=
  [.text "Dear " ⟨0, 5⟩, .placeholder ⟨["you"], [], ⟨5, 10⟩⟩, .text "\x7d" ⟨10, 11⟩]

theorem readTemplate_append_iff_halfClosed :
    readTemplate halfClosed = .ok halfClosedNodes ∧
      readTemplate (halfClosed ++ " \x7b\x7b") = .ok [.text "Dear " ⟨0, 5⟩,
        .placeholder ⟨["you"], [], ⟨5, 10⟩⟩, .text "\x7d " ⟨10, 12⟩, .text "\x7b" ⟨12, 14⟩] ∧
      readTemplate (halfClosed ++ "\x7d") ≠
        .ok (joined halfClosedNodes [.text "\x7d" ⟨11, 12⟩]) := by
  have hfirst : readTemplate halfClosed = .ok halfClosedNodes := by decide +kernel
  have hopening : readTemplate " \x7b\x7b" = .ok [.text " " ⟨0, 1⟩, .text "\x7b" ⟨1, 3⟩] := by
    decide +kernel
  have hclosing : readTemplate "\x7d" = .ok [.text "\x7d" ⟨0, 1⟩] := by decide +kernel
  have hjoined : joined halfClosedNodes
      ([.text " " ⟨0, 1⟩, .text "\x7b" ⟨1, 3⟩].map (Node.moved halfClosed.utf8ByteSize)) =
        [.text "Dear " ⟨0, 5⟩, .placeholder ⟨["you"], [], ⟨5, 10⟩⟩, .text "\x7d " ⟨10, 12⟩,
          .text "\x7b" ⟨12, 14⟩] := by decide +kernel
  refine ⟨hfirst, ?_, fun hall => ?_⟩
  · rw [← hjoined]
    refine (readTemplate_append_iff hfirst hopening).mpr ?_
    rintro ⟨_, _, _, _, _, hhead⟩
    exact absurd hhead (by decide)
  · exact (readTemplate_append_iff hfirst hclosing).mp hall ⟨_, _, rfl, rfl, rfl, rfl⟩

end Letterpress
