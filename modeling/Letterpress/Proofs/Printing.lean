import Letterpress.Proofs.Reading

/-!
# Printing

Every list of nodes can be written down as a template, and is read back from there. In a text
every brace is doubled. The arguments of a filter are always put into quotes, with a backslash in
front of the quotes and the backslashes that they hold, so they may hold anything, a brace or a
pipe included. Names are written as they are, and that is the only restriction: what is not a
name cannot be written in its place.

Reading back goes piece by piece. For each piece the next character behind it is known: it is a
comma, a pipe or a closing brace, and each of them stops the reader of the piece that it stands
behind. The one place where the next character is not known is behind a text or a tag, and there
`Reads` is enough, which says nothing about the characters that follow.

## Main definitions

* `escaped`, `printArgument`, `printArguments`: Arguments in quotes.
* `FilterUse.print`, `Placeholder.print`, `Inclusion.print`: The pieces of a tag.
* `doubled`: Text in which every brace is written twice.
* `Node.print`, `printTemplate`: Nodes as a template.
* `Node.IsPrintable`: The names in a node are names.

## Theorems

* `quotedText_escaped`: Text in quotes is read up to the quote that closes it.
* `argument_print`, `arguments_print`, `filterUse_print`, `filters_print`: The pieces of a tag
  are read up to their ends.
* `reads_doubled`, `reads_placeholder`, `reads_inclusion`: A printed node adds what it says.
* `readTemplate_print`: What was printed is read back.
-/

namespace Letterpress

/-- Text for quotes, with a backslash in front of every quote and every backslash. -/
def escaped (quote : Char) (cs : List Char) : List Char :=
  cs.flatMap fun c => if c = quote ∨ c = '\\' then ['\\', c] else [c]

/-- An argument in single quotes. -/
def printArgument (arg : String) : List Char :=
  '\'' :: escaped '\'' arg.toList ++ ['\'']

/-- Arguments with commas between them. -/
def printArguments : List String → List Char
  | [] => []
  | [arg] => printArgument arg
  | arg :: args => printArgument arg ++ ',' :: printArguments args

/-- The arguments of a filter with the colon in front of them. Without arguments there is no
    colon, since a colon is always followed by an argument, if only by an empty one. -/
def printFilterArguments (args : List String) : List Char :=
  if args = [] then [] else ':' :: printArguments args

/-- A filter with the pipe in front of it. -/
def FilterUse.print (f : FilterUse) : List Char :=
  '|' :: f.name.toList ++ printFilterArguments f.args

/-- A placeholder in its braces. -/
def Placeholder.print (p : Placeholder) : List Char :=
  '{' :: (dotted p.path).toList ++ p.filters.flatMap FilterUse.print ++ ['}']

/-- An inclusion in its braces. -/
def Inclusion.print (i : Inclusion) : List Char :=
  '{' :: '>' :: i.name.toList ++ ['}']

/-- Text in which every brace is written twice. -/
def doubled (cs : List Char) : List Char :=
  cs.flatMap fun c => if c = '{' ∨ c = '}' then [c, c] else [c]

namespace Node

/-- A node as it is written in a template. -/
def print : Node → List Char
  | .text s _ => doubled s.toList
  | .placeholder p => p.print
  | .inclusion i => i.print

/-- All that stands for a name can be read as one. Texts and arguments may be anything. -/
def IsPrintable : Node → Prop
  | .text _ _ => True
  | .placeholder p => IsPath p.path ∧ ∀ f ∈ p.filters, isName f.name = true
  | .inclusion i => ∃ names, IsPath names ∧ i.name = dotted names

end Node

/-- Nodes as a template. -/
def printTemplate (ns : List Node) : String :=
  String.ofList (ns.flatMap Node.print)

theorem isEscapable_of_special {quote c : Char} (h : c = quote ∨ c = '\\') :
    isEscapable quote c = true := by
  unfold isEscapable
  rcases h with h | h
  · rw [h, beq_self_eq_true]
    rfl
  · rw [h, beq_self_eq_true, Bool.or_true]
    rfl

/-- Text in quotes is read up to the quote that closes it. -/
theorem quotedText_escaped {quote : Char} (hquote : quote ≠ '\\') (opened : Nat)
    (cs rest : List Char) (offset : Nat) :
    quotedText quote opened (escaped quote cs ++ quote :: rest) offset =
      .ok (cs, ⟨rest, offset + byteLength (escaped quote cs ++ [quote])⟩) := by
  induction cs generalizing offset with
  | nil =>
      simp only [escaped, List.flatMap_nil, List.nil_append]
      rw [quotedText.eq_def]
      simp only [if_pos]
      rfl
  | cons c cs ih =>
      have hstep : escaped quote (c :: cs) =
          (if c = quote ∨ c = '\\' then ['\\', c] else [c]) ++ escaped quote cs :=
        List.flatMap_cons
      rw [hstep]
      by_cases hspecial : c = quote ∨ c = '\\'
      -- The backslash in front hides the character from the test for the closing quote.
      · rw [if_pos hspecial]
        simp only [List.cons_append, List.nil_append]
        rw [quotedText.eq_def]
        simp only [if_neg hquote.symm, if_pos, isEscapable_of_special hspecial, ih]
        have hslash : '\\'.utf8Size = 1 := rfl
        simp only [byteLength_cons, hslash, Nat.add_assoc]
      · rw [if_neg hspecial]
        rw [not_or] at hspecial
        simp only [List.cons_append, List.nil_append]
        rw [quotedText.eq_def]
        simp only [if_neg hspecial.1, if_neg hspecial.2, ih]
        rw [byteLength_cons, Nat.add_assoc]

/-- The signs that may stand behind a filter. -/
def filterEnds : List Char := ['|', '}']

theorem mem_filterEnds {x : Char} : x ∈ filterEnds ↔ x = '|' ∨ x = '}' := by
  simp only [filterEnds, List.mem_cons, List.not_mem_nil, or_false]

theorem isNamePart_of_mem_filterEnds {x : Char} (h : x ∈ filterEnds) : isNamePart x = false := by
  rcases mem_filterEnds.mp h with rfl | rfl
  · decide
  · decide

theorem isArgumentEnd_of_mem_filterEnds {x : Char} (h : x ∈ filterEnds) :
    isArgumentEnd x = true := by
  rcases mem_filterEnds.mp h with rfl | rfl
  · decide
  · decide

theorem ne_of_mem_filterEnds {x : Char} (h : x ∈ filterEnds) : x ≠ '.' ∧ x ≠ ',' ∧ x ≠ ':' := by
  rcases mem_filterEnds.mp h with rfl | rfl
  · decide
  · decide

/-- The characters that end a bare argument are no blanks. -/
theorem isBlank_of_isArgumentEnd {c : Char} (h : isArgumentEnd c = true) :
    Text.isBlank c = false := by
  simp only [isArgumentEnd, Bool.or_eq_true, beq_iff_eq] at h
  rcases h with (rfl | rfl) | rfl
  · decide
  · decide
  · decide

theorem argument_print {x : Char} (hend : isArgumentEnd x = true) (arg : String)
    (rest : List Char) (offset : Nat) :
    argument ⟨printArgument arg ++ x :: rest, offset⟩ =
      .ok (arg, ⟨x :: rest, offset + byteLength (printArgument arg)⟩) := by
  have hquote : Text.isBlank '\'' = false := by decide
  have hsign : isQuote '\'' = true := by decide
  have hescape : '\'' ≠ '\\' := by decide
  have hopened : printArgument arg ++ x :: rest =
      '\'' :: (escaped '\'' arg.toList ++ '\'' :: x :: rest) := by
    simp only [printArgument, List.cons_append, List.append_assoc, List.nil_append]
  have hclosed : ∀ next, afterQuoted ⟨x :: rest, next⟩ = .ok ⟨x :: rest, next⟩ := by
    intro next
    unfold afterQuoted
    rw [Cursor.skipBlanks_of_stopsAt (stopsAt_cons (isBlank_of_isArgumentEnd hend) rest)]
    simp only [Cursor.next?, List.head?_cons, hend, if_pos]
  rw [hopened, argument, Cursor.skipBlanks_of_stopsAt (stopsAt_cons hquote _)]
  simp only [hsign, if_pos, quotedText_escaped hescape, hclosed, String.ofList_toList]
  simp only [printArgument, List.cons_append, byteLength_cons, Nat.add_assoc]

theorem arguments_print {x : Char} (hx : x ∈ filterEnds) {args : List String}
    (hargs : args ≠ []) (rest : List Char) (offset : Nat) :
    arguments ⟨printArguments args ++ x :: rest, offset⟩ =
      .ok (args, ⟨x :: rest, offset + byteLength (printArguments args)⟩) := by
  fun_induction printArguments args generalizing offset with
  | case1 => exact absurd rfl hargs
  | case2 arg =>
      have hcomma := Cursor.accept?_cons_of_ne (ne_of_mem_filterEnds hx).2.1 rest
      rw [arguments_eq, argument_print (isArgumentEnd_of_mem_filterEnds hx)]
      simp only [hcomma]
  | case3 arg args hmore ih =>
      rw [List.append_assoc, List.cons_append, arguments_eq, argument_print (by decide)]
      simp only [Cursor.accept?_cons_self, ih hmore, byteLength_append, byteLength_cons,
        Nat.add_assoc]

/-- What follows the name of a printed filter is read up to the next pipe or brace. -/
theorem filterArguments_print {x : Char} (hx : x ∈ filterEnds) (args : List String)
    (rest : List Char) (offset : Nat) :
    filterArguments ⟨printFilterArguments args ++ x :: rest, offset⟩ =
      .ok (args, ⟨x :: rest, offset + byteLength (printFilterArguments args)⟩) := by
  unfold filterArguments printFilterArguments
  by_cases hargs : args = []
  · have hblank := stopsAt_cons (isBlank_of_isArgumentEnd (isArgumentEnd_of_mem_filterEnds hx)) rest
    rw [if_pos hargs, List.nil_append, Cursor.skipBlanks_of_stopsAt hblank,
      Cursor.accept?_cons_of_ne (ne_of_mem_filterEnds hx).2.2, hargs]
    rfl
  · have hblank : Text.isBlank ':' = false := by decide
    rw [if_neg hargs, List.cons_append, Cursor.skipBlanks_of_stopsAt (stopsAt_cons hblank _),
      Cursor.accept?_cons_self]
    simp only [arguments_print hx hargs, byteLength_cons, Nat.add_assoc]

theorem filterUse_print {f : FilterUse} (hname : isName f.name = true) {x : Char}
    (hx : x ∈ filterEnds) (rest : List Char) (start offset : Nat) :
    ∃ next, filterUse start ⟨f.name.toList ++ (printFilterArguments f.args ++ x :: rest), offset⟩ =
      .ok (⟨f.name, f.args, ⟨start, next⟩⟩, ⟨x :: rest, next⟩) := by
  have hstop : StopsAt isNamePart (printFilterArguments f.args ++ x :: rest) := by
    unfold printFilterArguments
    by_cases hargs : f.args = []
    · rw [if_pos hargs, List.nil_append]
      exact stopsAt_cons (isNamePart_of_mem_filterEnds hx) rest
    · have hcolon : isNamePart ':' = false := by decide
      rw [if_neg hargs, List.cons_append]
      exact stopsAt_cons hcolon _
  have hblank := stopsAt_name (fun _ => isBlank_of_isNamePart) hname
    (printFilterArguments f.args ++ x :: rest)
  unfold filterUse
  rw [Cursor.skipBlanks_of_stopsAt hblank, identifier_append hname hstop]
  simp only [filterArguments_print hx]
  exact ⟨_, rfl⟩

/-- Printed filters begin with a pipe, and where there are none the tag ends. -/
theorem exists_cons_filters (fs : List FilterUse) (rest : List Char) :
    ∃ x tail, fs.flatMap FilterUse.print ++ '}' :: rest = x :: tail ∧ x ∈ filterEnds := by
  cases fs with
  | nil => exact ⟨'}', rest, rfl, by decide⟩
  | cons f fs =>
      rw [List.flatMap_cons, FilterUse.print]
      exact ⟨'|', _, rfl, by decide⟩

theorem filters_print {fs : List FilterUse} (hnames : ∀ f ∈ fs, isName f.name = true)
    (rest : List Char) (offset : Nat) :
    ∃ gs next, filters ⟨fs.flatMap FilterUse.print ++ '}' :: rest, offset⟩ =
      .ok (gs, ⟨'}' :: rest, next⟩) ∧ gs.map FilterUse.call = fs.map FilterUse.call := by
  induction fs generalizing offset with
  | nil =>
      have hblank : Text.isBlank '}' = false := by decide
      have hpipe : '}' ≠ '|' := by decide
      refine ⟨[], offset, ?_, rfl⟩
      rw [filters_eq, List.flatMap_nil, List.nil_append,
        Cursor.skipBlanks_of_stopsAt (stopsAt_cons hblank rest), Cursor.accept?_cons_of_ne hpipe]
  | cons f fs ih =>
      have hblank : Text.isBlank '|' = false := by decide
      -- The first filter is followed by the pipe of the next one, or by the brace behind the last.
      rcases exists_cons_filters fs rest with ⟨x, tail, htail, hx⟩
      have hpieces : (f :: fs).flatMap FilterUse.print ++ '}' :: rest =
          '|' :: (f.name.toList ++ (printFilterArguments f.args ++ x :: tail)) := by
        rw [← htail]
        simp only [List.flatMap_cons, FilterUse.print, List.cons_append, List.append_assoc]
      rcases filterUse_print (hnames f List.mem_cons_self) hx tail offset
        (offset + '|'.utf8Size) with ⟨next, hfirst⟩
      rcases ih (fun g hg => hnames g (List.mem_cons_of_mem _ hg)) next with
        ⟨gs, last, hothers, hcalls⟩
      rw [htail] at hothers
      refine ⟨⟨f.name, f.args, ⟨offset, next⟩⟩ :: gs, last, ?_, ?_⟩
      · rw [hpieces, filters_eq, Cursor.skipBlanks_of_stopsAt (stopsAt_cons hblank _)]
        simp only [Cursor.accept?_cons_self, hfirst, hothers]
      · rw [List.map_cons, List.map_cons, hcalls]
        rfl

theorem closeTag_brace (fault : ReadFault) (rest : List Char) (offset : Nat) :
    closeTag fault ⟨'}' :: rest, offset⟩ = .ok ⟨rest, offset + '}'.utf8Size⟩ := by
  have hblank : Text.isBlank '}' = false := by decide
  unfold closeTag
  rw [Cursor.skipBlanks_of_stopsAt (stopsAt_cons hblank rest), Cursor.accept?_cons_self]

theorem placeholderTag_print {p : Placeholder} (hpath : IsPath p.path)
    (hnames : ∀ f ∈ p.filters, isName f.name = true) (rest : List Char) (start offset : Nat) :
    ∃ q next, placeholderTag start
        ⟨(dotted p.path).toList ++ (p.filters.flatMap FilterUse.print ++ '}' :: rest), offset⟩ =
        .ok (.placeholder q, ⟨rest, next⟩) ∧
      q.path = p.path ∧ q.filters.map FilterUse.call = p.filters.map FilterUse.call := by
  rcases exists_cons_filters p.filters rest with ⟨x, tail, htail, hx⟩
  have hname := stopsAt_cons (isNamePart_of_mem_filterEnds hx) tail
  have hpoint := stopsAt_sign (ne_of_mem_filterEnds hx).1 tail
  rcases filters_print hnames rest (offset + byteLength (dotted p.path).toList) with
    ⟨gs, next, hfilters, hcalls⟩
  rw [htail] at hfilters
  refine ⟨⟨p.path, gs, ⟨start, next + '}'.utf8Size⟩⟩, next + '}'.utf8Size, ?_, rfl, hcalls⟩
  unfold placeholderTag
  rw [htail, path_append hpath hname hpoint]
  simp only [hfilters, closeTag_brace]

theorem inclusionTag_print {names : List String} (h : IsPath names) (rest : List Char)
    (start offset : Nat) :
    ∃ next, inclusionTag start ⟨(dotted names).toList ++ '}' :: rest, offset⟩ =
      .ok (.inclusion ⟨dotted names, ⟨start, next⟩⟩, ⟨rest, next⟩) := by
  have hblank := stopsAt_path (fun _ => isBlank_of_isNamePart) h ('}' :: rest)
  have hname : isNamePart '}' = false := by decide
  have hpoint : '}' ≠ '.' := by decide
  unfold inclusionTag
  rw [Cursor.skipBlanks_of_stopsAt hblank,
    path_append h (stopsAt_cons hname rest) (stopsAt_sign hpoint rest)]
  simp only [closeTag_brace]
  exact ⟨_, rfl⟩

/-- A printed text adds its characters. -/
theorem reads_doubled {rest : List Char} {said : List Content} (h : Reads rest said)
    (cs : List Char) : Reads (doubled cs ++ rest) (cs.map .char ++ said) := by
  induction cs with
  | nil => exact h
  | cons c cs ih =>
      have hstep : doubled (c :: cs) = (if c = '{' ∨ c = '}' then [c, c] else [c]) ++ doubled cs :=
        List.flatMap_cons
      rw [hstep, List.map_cons, List.cons_append, List.append_assoc]
      by_cases hbrace : c = '{' ∨ c = '}'
      · rw [if_pos hbrace]
        exact Reads.brace hbrace ih
      · rw [if_neg hbrace]
        rw [not_or] at hbrace
        exact Reads.plain hbrace.1 hbrace.2 ih

/-- A printed placeholder adds itself. -/
theorem reads_placeholder {p : Placeholder} (hpath : IsPath p.path)
    (hnames : ∀ f ∈ p.filters, isName f.name = true) {rest : List Char} {said : List Content}
    (h : Reads rest said) :
    Reads (p.print ++ rest) (.placeholder p.path (p.filters.map FilterUse.call) :: said) := by
  have hpieces : p.print ++ rest =
      '{' :: ((dotted p.path).toList ++ (p.filters.flatMap FilterUse.print ++ '}' :: rest)) := by
    simp only [Placeholder.print, List.append_assoc, List.cons_append, List.nil_append]
  have hsign : ∀ x, isNamePart x = false → StopsAt (· == x)
      ((dotted p.path).toList ++ (p.filters.flatMap FilterUse.print ++ '}' :: rest)) :=
    fun x hx => stopsAt_path (fun _ => ne_of_isNamePart hx) hpath _
  rw [hpieces]
  -- A path begins with neither a brace nor the sign of an inclusion, so that neither an escaped
  -- brace nor an inclusion can be seen in its place.
  refine Reads.tag (hsign '{' (by decide)) ?_ h
  intro start offset
  rcases placeholderTag_print hpath hnames rest start offset with
    ⟨q, next, hread, hqpath, hqcalls⟩
  refine ⟨.placeholder q, next, ?_, ?_⟩
  · unfold tag
    rw [Cursor.accept?_of_stopsAt (hsign '>' (by decide))]
    exact hread
  · rw [Node.contents, hqpath, hqcalls]

/-- A printed inclusion adds itself. -/
theorem reads_inclusion {names : List String} {i : Inclusion} (hpath : IsPath names)
    (hname : i.name = dotted names) {rest : List Char} {said : List Content}
    (h : Reads rest said) : Reads (i.print ++ rest) (.inclusion i.name :: said) := by
  have hpieces : i.print ++ rest = '{' :: '>' :: ((dotted names).toList ++ '}' :: rest) := by
    simp only [Inclusion.print, hname, List.append_assoc, List.cons_append, List.nil_append]
  rw [hpieces]
  refine Reads.tag (stopsAt_sign (by decide) _) ?_ h
  intro start offset
  rcases inclusionTag_print hpath rest start (offset + '>'.utf8Size) with ⟨next, hread⟩
  refine ⟨.inclusion ⟨dotted names, ⟨start, next⟩⟩, next, ?_, ?_⟩
  · unfold tag
    rw [Cursor.accept?_cons_self]
    exact hread
  · rw [Node.contents, hname]

theorem reads_print {ns : List Node} (h : ∀ n ∈ ns, n.IsPrintable) :
    Reads (ns.flatMap Node.print) (contents ns) := by
  induction ns with
  | nil => exact reads_nil
  | cons n ns ih =>
      have hfirst := h n List.mem_cons_self
      have hothers := ih fun m hm => h m (List.mem_cons_of_mem _ hm)
      rw [List.flatMap_cons, contents_cons]
      cases n with
      | text s span => exact reads_doubled hothers s.toList
      | placeholder p => exact reads_placeholder hfirst.1 hfirst.2 hothers
      | inclusion i =>
          rcases hfirst with ⟨names, hpath, hname⟩
          exact reads_inclusion hpath hname hothers

/-- What was printed is read back: the nodes that are read say the same as those that were
    printed. They differ in their spans, and in where one text ends and the next begins. -/
theorem readTemplate_print {ns : List Node} (h : ∀ n ∈ ns, n.IsPrintable) :
    ∃ ms, readTemplate (printTemplate ns) = .ok ms ∧ contents ms = contents ns := by
  have hread := reads_print h
  rw [← String.toList_ofList (l := ns.flatMap Node.print)] at hread
  exact hread.readTemplate

/-- Nodes whose texts and arguments hold all the signs that mean something in a template. -/
def awkward : List Node :=
  let somewhere : Span := ⟨0, 0⟩
  [.text "\x7b" somewhere,
    .placeholder ⟨["user", "name"],
      [⟨"trim", [], somewhere⟩, ⟨"default", ["", "it's \x7d | , \\"], somewhere⟩], somewhere⟩,
    .text "" somewhere, .text "\x7d" somewhere, .inclusion ⟨"page.end", somewhere⟩]

theorem readTemplate_print_awkward :
    (∀ n ∈ awkward, n.IsPrintable) ∧
      printTemplate awkward = "\x7b\x7b\x7buser.name|trim|default:'','it\\'s \x7d | , \\\\'\x7d" ++
        "\x7d\x7d\x7b>page.end\x7d" ∧
      ∃ ms, readTemplate (printTemplate awkward) = .ok ms ∧ contents ms = contents awkward := by
  have hprintable : ∀ n ∈ awkward, n.IsPrintable := by
    simp only [awkward, List.forall_mem_cons, List.not_mem_nil, false_implies, implies_true,
      Node.IsPrintable, IsPath, and_true, true_and]
    refine ⟨by decide, ["page", "end"], by decide, by decide⟩
  exact ⟨hprintable, by decide +kernel, readTemplate_print hprintable⟩

end Letterpress
