import Letterpress.Proofs.Acceptance
import Mathlib.Data.String.Basic

/-!
# Spans Tile the Source

Every message about a template points at a span, so the spans have to be right: they follow each
other without gaps from the beginning of the source to its end, they never cut a character in
two, and what stands between the ends of a span is the node, whatever stands around it.

The last of these is the one that needs an argument. A node that is cut out of its source is read
again from offset zero, with nothing behind it. Offsets enter a derivation as differences only,
so a derivation can be moved; and of all pieces only plain text depends on what follows, where
the end of the source does as well as a brace. For a filter the surroundings are made up, a
placeholder that has nothing but this filter, and there the rules of the grammar are enough,
since no offset is asked for.

Slices are those of `String`, by byte offsets, and a boundary is a valid position of `String`.

## Main definitions

* `Tiles`: Spans that follow each other without gaps.
* `Span.IsAligned`, `Span.slice`: The ends of a span, and what stands between them.
* `Span.moved`, `FilterUse.moved`, `Node.moved`: The same, read further on.
* `Placeholder.IsFaithful`, `Node.IsFaithful`: What is found at a span is what was read there.

## Theorems

* `PieceAt.exists_moved`: A derivation can be moved to another offset.
* `PieceAt.alone`: A piece in front of something is a piece in front of nothing.
* `PiecesAt.tiles`: The pieces of a source follow each other without gaps.
* `PieceAt.read_alone`: A piece that is cut out of its source is read as the same node.
* `read_call_alone`: A filter that is cut out of its placeholder is read as the same filter.
* `spans_faithful`: All of it, for every source that is a template.
-/

namespace Letterpress

/-- Spans that follow each other without gaps from one offset up to another, none of them
    empty. -/
inductive Tiles : Nat → List Span → Nat → Prop where
  | nil {o : Nat} : Tiles o [] o
  | cons {start stop last : Nat} {rest : List Span} (hne : start < stop)
      (hrest : Tiles stop rest last) : Tiles start (⟨start, stop⟩ :: rest) last

/-- Both ends of the span are character boundaries of a source. -/
def Span.IsAligned (span : Span) (source : String) : Prop :=
  (⟨span.start⟩ : String.Pos.Raw).IsValid source ∧ (⟨span.stop⟩ : String.Pos.Raw).IsValid source

/-- What a source holds between the ends of the span. -/
def Span.slice (span : Span) (source : String) : String :=
  String.Pos.Raw.extract source ⟨span.start⟩ ⟨span.stop⟩

/-- The span with both ends moved forward. -/
def Span.moved (k : Nat) (s : Span) : Span := ⟨s.start + k, s.stop + k⟩

/-- The filter, read further on. -/
def FilterUse.moved (k : Nat) (f : FilterUse) : FilterUse := { f with span := f.span.moved k }

/-- The node, read further on. -/
def Node.moved (k : Nat) : Node → Node
  | .text s span => .text s (span.moved k)
  | .placeholder p => .placeholder ⟨p.path, p.filters.map (FilterUse.moved k), p.span.moved k⟩
  | .inclusion i => .inclusion ⟨i.name, i.span.moved k⟩

/-- Each filter of a placeholder stands in its span, behind the one before it, and is read from
    there as the only filter of a placeholder. -/
structure Placeholder.IsFaithful (p : Placeholder) (source : String) : Prop where
  ordered : p.filters.Pairwise fun f g => f.span.stop ≤ g.span.start
  inside : ∀ f ∈ p.filters, p.span.start < f.span.start ∧ f.span.start < f.span.stop ∧
    f.span.stop < p.span.stop
  aligned : ∀ f ∈ p.filters, f.span.IsAligned source
  piped : ∀ f ∈ p.filters, (f.span.slice source).toList.head? = some '|'
  again : ∀ f ∈ p.filters, ∃ q, readTemplate ("\x7bx" ++ f.span.slice source ++ "\x7d") =
    .ok [.placeholder q] ∧ q.path = ["x"] ∧ q.filters.map FilterUse.call = [f.call]

/-- A node stands in its span, and is read from there as the only node of a source. -/
structure Node.IsFaithful (n : Node) (source : String) : Prop where
  aligned : n.span.IsAligned source
  again : ∃ m, readTemplate (n.span.slice source) = .ok [m] ∧ m.moved n.span.start = n
  filters : ∀ p, n = .placeholder p → p.IsFaithful source

/-- Offsets enter a derivation as differences only. -/
theorem ChainAt.exists_moved {o k : Nat} {cs : List Char} {fs : List FilterUse}
    (h : ChainAt (o + k) cs fs) : ∃ gs, ChainAt o cs gs ∧ gs.map (FilterUse.moved k) = fs := by
  generalize hp : o + k = p at h
  induction h generalizing o with
  | nil hblanks => exact ⟨[], .nil hblanks, rfl⟩
  | @cons p before cs rest name args fs hbefore hcall hnext _ ih =>
      -- Every offset in the chain is that of its beginning and some bytes.
      have hoffset : ∀ n, o + n + k = p + n := by
        intro n
        omega
      rcases ih (hoffset _) with ⟨gs, hgs, hmoved⟩
      refine ⟨_, .cons hbefore hcall hnext hgs, ?_⟩
      rw [List.map_cons, hmoved]
      simp only [FilterUse.moved, Span.moved, hoffset]

theorem PieceAt.exists_moved {o k : Nat} {cs rest : List Char} {n : Node}
    (h : PieceAt (o + k) cs rest n) : ∃ m, PieceAt o cs rest m ∧ m.moved k = n := by
  have hoffset : ∀ n, o + n + k = o + k + n := by
    intro n
    omega
  cases h with
  | brace hc =>
      refine ⟨_, .brace hc, ?_⟩
      simp only [Node.moved, Span.moved, hoffset]
  | plain hfirst hrun =>
      refine ⟨_, .plain hfirst hrun, ?_⟩
      simp only [Node.moved, Span.moved, hoffset]
  | tag htag =>
      cases htag with
      | inclusion hbefore hpath hafter hcs =>
          refine ⟨_, .tag (.inclusion hbefore hpath hafter hcs), ?_⟩
          simp only [Node.moved, Span.moved, hoffset]
      | placeholder hpath hchain hcs =>
          rw [← hoffset] at hchain
          rcases hchain.exists_moved with ⟨gs, hgs, hmoved⟩
          refine ⟨_, .tag (.placeholder hpath hgs hcs), ?_⟩
          simp only [Node.moved, Span.moved, hoffset, hmoved]

theorem StartsPlain.of_append_left {c : Char} {cs ds : List Char}
    (h : StartsPlain (c :: (cs ++ ds))) : StartsPlain (c :: cs) := by
  refine ⟨h.1, fun hclose => h.2 ⟨hclose.1, ?_⟩⟩
  rcases List.head?_eq_some_iff.mp hclose.2 with ⟨tail, htail⟩
  rw [htail]
  rfl

theorem plainText_of_append {cs ds : List Char} (h : plainText (cs ++ ds) = cs) :
    plainText cs = cs := by
  induction cs with
  | nil => rfl
  | cons c cs ih =>
      rcases plainText_cons_eq_iff.mp h with ⟨hstarts, _, hothers⟩
      exact plainText_cons_eq_iff.mpr ⟨hstarts.of_append_left, rfl, ih hothers⟩

/-- A piece in front of something is the same piece in front of nothing. -/
theorem PieceAt.alone {o : Nat} {cs rest : List Char} {n : Node} (h : PieceAt o cs rest n) :
    PieceAt o cs [] n := by
  cases h with
  | brace hc => exact .brace hc
  | @plain c run _ hfirst hrun =>
      have halone : plainText (run ++ []) = run := by
        rw [List.append_nil]
        exact plainText_of_append hrun
      have hstarts : StartsPlain (c :: (run ++ [])) := by
        rw [List.append_nil]
        exact hfirst.of_append_left
      exact .plain hstarts halone
  | tag htag => exact .tag htag

theorem utf8Len_eq_byteLength (cs : List Char) : String.utf8Len cs = byteLength cs := by
  induction cs with
  | nil => rfl
  | cons c cs ih => rw [String.utf8Len_cons, byteLength_cons, ih, Nat.add_comm]

theorem byteLength_toList (s : String) : byteLength s.toList = s.utf8ByteSize := by
  rw [← utf8Len_eq_byteLength, String.utf8Len_toList]

theorem isValid_of_append {source : String} {before after : List Char}
    (h : source.toList = before ++ after) :
    (⟨byteLength before⟩ : String.Pos.Raw).IsValid source := by
  have hsplit : source = String.ofList before ++ String.ofList after := by
    rw [← String.ofList_append, ← h, String.ofList_toList]
  refine String.Pos.Raw.isValid_iff_exists_append.mpr ⟨_, _, hsplit, ?_⟩
  rw [String.rawEndPos_ofList, utf8Len_eq_byteLength]

/-- The characters `cs` stand in the source behind the characters `before`. -/
def StandsIn (source : String) (before cs : List Char) (span : Span) : Prop :=
  (∃ after, source.toList = before ++ cs ++ after) ∧
    span = ⟨byteLength before, byteLength (before ++ cs)⟩

theorem StandsIn.isAligned {source : String} {before cs : List Char} {span : Span}
    (h : StandsIn source before cs span) : span.IsAligned source := by
  rcases h with ⟨⟨after, hsource⟩, rfl⟩
  have hbegins : source.toList = before ++ (cs ++ after) := by rw [hsource, List.append_assoc]
  exact ⟨isValid_of_append hbegins, isValid_of_append hsource⟩

theorem StandsIn.slice_eq {source : String} {before cs : List Char} {span : Span}
    (h : StandsIn source before cs span) : span.slice source = String.ofList cs := by
  rcases h with ⟨⟨after, hsource⟩, rfl⟩
  have hextract := String.extract_of_valid before cs after
  rw [← hsource, String.ofList_toList, utf8Len_eq_byteLength, utf8Len_eq_byteLength,
    ← byteLength_append] at hextract
  exact hextract

theorem byteLength_pos {cs : List Char} (h : cs ≠ []) : 0 < byteLength cs := by
  cases cs with
  | nil => exact absurd rfl h
  | cons c cs =>
      have hc := c.utf8Size_pos
      rw [byteLength_cons]
      omega

theorem PieceAt.ne_nil {o : Nat} {cs rest : List Char} {n : Node} (h : PieceAt o cs rest n) :
    cs ≠ [] := by
  cases h with
  | brace => exact List.cons_ne_nil _ _
  | plain => exact List.cons_ne_nil _ _
  | tag => exact List.cons_ne_nil _ _

theorem PieceAt.span_eq {o : Nat} {cs rest : List Char} {n : Node} (h : PieceAt o cs rest n) :
    n.span = ⟨o, o + byteLength cs⟩ := by
  cases h with
  | brace hc => rw [byteLength_doubled hc, Node.span]
  | plain => rfl
  | tag htag =>
      cases htag with
      | inclusion => rfl
      | placeholder => rfl

/-- The pieces of a source follow each other without gaps. -/
theorem PiecesAt.tiles {o : Nat} {cs : List Char} {ns : List Node} (h : PiecesAt o cs ns) :
    Tiles o (ns.map Node.span) (o + byteLength cs) := by
  induction h with
  | nil => exact .nil
  | cons hpiece _ ih =>
      have hpos := byteLength_pos hpiece.ne_nil
      rw [List.map_cons, hpiece.span_eq, byteLength_append, ← Nat.add_assoc]
      exact .cons (by omega) ih

/-- Every node of a source is a piece of it. -/
theorem PiecesAt.exists_piece {o : Nat} {cs : List Char} {ns : List Node} (h : PiecesAt o cs ns)
    {n : Node} (hn : n ∈ ns) : ∃ before piece after, cs = before ++ piece ++ after ∧
      PieceAt (o + byteLength before) piece after n := by
  induction h with
  | nil => cases hn
  | @cons o cs rest m ns hpiece _ ih =>
      rcases List.mem_cons.mp hn with rfl | hn
      · exact ⟨[], cs, rest, rfl, hpiece⟩
      · rcases ih hn with ⟨before, piece, after, hsplit, hinner⟩
        refine ⟨cs ++ before, piece, after, ?_, ?_⟩
        · rw [hsplit, List.append_assoc, List.append_assoc, List.append_assoc]
        · rw [byteLength_append, ← Nat.add_assoc]
          exact hinner

/-- A piece that is cut out of its source is read as the same node. -/
theorem PieceAt.read_alone {o : Nat} {cs rest : List Char} {n : Node} (h : PieceAt o cs rest n) :
    ∃ m, readTemplate (String.ofList cs) = .ok [m] ∧ m.moved o = n := by
  -- Cut out, the piece begins at zero and has nothing behind it.
  have hzero : PieceAt (0 + o) cs [] n := by
    rw [Nat.zero_add]
    exact h.alone
  rcases hzero.exists_moved with ⟨m, hm, hmoved⟩
  have hpieces : PiecesAt 0 (cs ++ []) [m] := .cons hm .nil
  refine ⟨m, readTemplate_iff_piecesAt.mpr ?_, hmoved⟩
  rwa [String.toList_ofList, ← List.append_nil cs]

/-- Every filter of a chain stands behind a pipe, at the offsets of its span. -/
theorem ChainAt.exists_call {o : Nat} {cs : List Char} {fs : List FilterUse}
    (h : ChainAt o cs fs) {f : FilterUse} (hf : f ∈ fs) :
    ∃ before call after, cs = before ++ '|' :: call ++ after ∧ IsCall call f.call ∧
      f.span = ⟨o + byteLength before, o + byteLength (before ++ '|' :: call)⟩ := by
  induction h with
  | nil => cases hf
  | @cons o before cs rest name args fs hbefore hcall _ _ ih =>
      rcases List.mem_cons.mp hf with rfl | hf
      · refine ⟨before, cs, rest, ?_, hcall, rfl⟩
        rw [List.append_assoc, List.cons_append]
      · rcases ih hf with ⟨between, call, after, hsplit, hinner, hspan⟩
        refine ⟨before ++ '|' :: cs ++ between, call, after, ?_, hinner, ?_⟩
        · simp only [hsplit, List.append_assoc, List.cons_append]
        · simp only [hspan, byteLength_append, Nat.add_assoc]

theorem ChainAt.ordered {o : Nat} {cs : List Char} {fs : List FilterUse} (h : ChainAt o cs fs) :
    fs.Pairwise fun f g => f.span.stop ≤ g.span.start := by
  induction h with
  | nil => exact .nil
  | cons _ _ _ hrest ih =>
      refine List.pairwise_cons.mpr ⟨fun g hg => ?_, ih⟩
      -- The filters behind the first one begin where it ends, or later.
      rcases hrest.exists_call hg with ⟨before, _, _, _, _, hspan⟩
      rw [hspan]
      exact Nat.le_add_right _ _

/-- A filter that is put into a placeholder of its own is read as the same filter. -/
theorem read_call_alone {cs : List Char} {call : String × List String} (h : IsCall cs call) :
    ∃ q, readTemplate ("\x7bx" ++ String.ofList ('|' :: cs) ++ "\x7d") = .ok [.placeholder q] ∧
      q.path = ["x"] ∧ q.filters.map FilterUse.call = [call] := by
  have hpath : IsPath ["x"] := by
    refine ⟨List.cons_ne_nil _ _, fun name hname => ?_⟩
    rw [List.mem_singleton.mp hname]
    decide
  have hrule := IsTemplate.placeholder hpath (.cons isBlanks_nil h .nil) isBlanks_nil .nil
  have hchars : ("\x7bx" ++ String.ofList ('|' :: cs) ++ "\x7d").toList =
      '{' :: ((dotted ["x"]).toList ++ ([] ++ '|' :: (cs ++ [])) ++ [] ++ ['}']) := by
    simp only [dotted_singleton, String.toList_append, String.toList_ofList, List.append_nil,
      List.nil_append]
    rfl
  rw [← hchars] at hrule
  -- The rules derive one placeholder, so the reader finds one node, and it is a placeholder.
  rcases exists_piecesAt hrule 0 with ⟨ns, hns, hphrases⟩
  rcases ns with _ | ⟨n, _ | ⟨m, ms⟩⟩
  · cases hphrases
  · cases n with
    | text => cases hphrases
    | inclusion => cases hphrases
    | placeholder q =>
        simp only [List.map_cons, List.map_nil, Node.phrase, List.cons.injEq, and_true,
          Phrase.placeholder.injEq] at hphrases
        exact ⟨q, readTemplate_iff_piecesAt.mpr hns, hphrases⟩
  · simp only [List.map_cons, List.cons.injEq, reduceCtorEq, and_false] at hphrases

/-- The chain of a placeholder stands between its path and its closing brace. -/
theorem PieceAt.exists_chain {o : Nat} {cs rest : List Char} {p : Placeholder}
    (h : PieceAt o cs rest (.placeholder p)) : ∃ opening chain, cs = opening ++ chain ++ ['}'] ∧
      opening ≠ [] ∧ ChainAt (o + byteLength opening) chain p.filters := by
  cases h with
  | tag htag =>
      cases htag with
      | @placeholder chain _ names _ hpath hchain hcs =>
          refine ⟨'{' :: (dotted names).toList, chain, ?_, List.cons_ne_nil _ _, hchain⟩
          rw [hcs, List.append_assoc, List.cons_append]

/-- The filters of a placeholder that stands in a source stand in it as well, inside of the
    placeholder. -/
theorem PieceAt.exists_standsIn {source : String} {before piece after : List Char}
    {p : Placeholder} (hsource : source.toList = before ++ piece ++ after)
    (h : PieceAt (byteLength before) piece after (.placeholder p)) {f : FilterUse}
    (hf : f ∈ p.filters) :
    ∃ front call, StandsIn source front ('|' :: call) f.span ∧ IsCall call f.call ∧
      byteLength before < byteLength front ∧
      byteLength (front ++ '|' :: call) < byteLength (before ++ piece) := by
  rcases h.exists_chain with ⟨opening, chain, hpiece, hne, hchain⟩
  rcases hchain.exists_call hf with ⟨between, call, behind, hsplit, hcall, hspan⟩
  -- The opening brace keeps a filter off the beginning, and the closing brace off the end.
  have hopening := byteLength_pos hne
  have hclosing : byteLength ['}'] = 1 := rfl
  refine ⟨before ++ opening ++ between, call, ⟨⟨behind ++ '}' :: after, ?_⟩, ?_⟩, hcall, ?_, ?_⟩
  · rw [hsource, hpiece, hsplit]
    simp only [List.append_assoc, List.cons_append, List.nil_append]
  · rw [hspan]
    simp only [byteLength_append, Nat.add_assoc]
  · simp only [byteLength_append]
    omega
  · simp only [hpiece, hsplit, byteLength_append, hclosing]
    omega

theorem PieceAt.filters_faithful {source : String} {before piece after : List Char}
    {p : Placeholder} (hsource : source.toList = before ++ piece ++ after)
    (h : PieceAt (byteLength before) piece after (.placeholder p)) : p.IsFaithful source := by
  have hstands : ∀ f ∈ p.filters, _ := fun f hf => h.exists_standsIn hsource hf
  have hspan : p.span = ⟨byteLength before, byteLength before + byteLength piece⟩ := h.span_eq
  constructor
  case ordered =>
    rcases h.exists_chain with ⟨_, _, _, _, hchain⟩
    exact hchain.ordered
  -- Each filter stands in the source as a pipe and a call, and the other facts follow from this.
  case inside =>
    intro f hf
    rcases hstands f hf with ⟨front, call, ⟨_, hcut⟩, _, hbegin, hend⟩
    have hpipe := byteLength_pos (List.cons_ne_nil '|' call)
    simp only [byteLength_append] at hend
    simp only [hcut, hspan, byteLength_append]
    omega
  case aligned =>
    intro f hf
    rcases hstands f hf with ⟨front, call, hcut, _⟩
    exact hcut.isAligned
  case piped =>
    intro f hf
    rcases hstands f hf with ⟨front, call, hcut, _⟩
    rw [hcut.slice_eq, String.toList_ofList]
    rfl
  case again =>
    intro f hf
    rcases hstands f hf with ⟨front, call, hcut, hcall, _⟩
    rw [hcut.slice_eq]
    exact read_call_alone hcall

theorem PieceAt.node_faithful {source : String} {before piece after : List Char} {n : Node}
    (hsource : source.toList = before ++ piece ++ after)
    (h : PieceAt (byteLength before) piece after n) : n.IsFaithful source := by
  have hcut : StandsIn source before piece n.span := by
    refine ⟨⟨after, hsource⟩, ?_⟩
    rw [h.span_eq, byteLength_append]
  constructor
  case aligned => exact hcut.isAligned
  case again =>
    rw [hcut.slice_eq, h.span_eq]
    exact h.read_alone
  case filters =>
    rintro p rfl
    exact h.filters_faithful hsource

/-- The spans of a template tile its source, and what is found at a span is what was read there.
    An empty source has no nodes. -/
theorem spans_faithful {source : String} {ns : List Node} (h : readTemplate source = .ok ns) :
    Tiles 0 (ns.map Node.span) source.utf8ByteSize ∧ (source = "" → ns = []) ∧
      ∀ n ∈ ns, n.IsFaithful source := by
  have hpieces := readTemplate_iff_piecesAt.mp h
  refine ⟨?_, ?_, ?_⟩
  · have htiles := hpieces.tiles
    rwa [Nat.zero_add, byteLength_toList] at htiles
  · rintro rfl
    have hnothing : readTemplate "" = .ok [] := nodes_nil 0
    rw [hnothing] at h
    cases h
    rfl
  · intro n hn
    rcases hpieces.exists_piece hn with ⟨before, piece, after, hsource, hpiece⟩
    rw [Nat.zero_add] at hpiece
    exact hpiece.node_faithful hsource

/-- A source with characters of two bytes, with blanks around its pipes, and with a closing brace in
    an argument. -/
def greeting : String :=
  "Grüße, \x7bname | upper|pad : 4 , '\x7d' \x7d\x7d \x7b\x7b\x7b> a.b \x7d"

/-- The nodes of the greeting. -/
def greetingNodes : List Node :=
  [.text "Grüße, " ⟨0, 9⟩,
    .placeholder ⟨["name"], [⟨"upper", [], ⟨15, 22⟩⟩, ⟨"pad", ["4", "\x7d"], ⟨22, 37⟩⟩], ⟨9, 38⟩⟩,
    .text "\x7d " ⟨38, 40⟩, .text "\x7b" ⟨40, 42⟩, .inclusion ⟨"a.b", ⟨42, 50⟩⟩]

theorem spans_faithful_greeting :
    readTemplate greeting = .ok greetingNodes ∧
      Tiles 0 (greetingNodes.map Node.span) greeting.utf8ByteSize ∧
      (greeting = "" → greetingNodes = []) ∧ ∀ n ∈ greetingNodes, n.IsFaithful greeting := by
  have hread : readTemplate greeting = .ok greetingNodes := by decide +kernel
  exact ⟨hread, spans_faithful hread⟩

end Letterpress
