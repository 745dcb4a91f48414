import Letterpress.Template.Reader
import Mathlib.Data.List.Basic

/-!
# Where Readers Stop

A reader of names takes as many characters as it can, so what it reads depends on the character
behind the name as much as on the name itself. `StopsAt` says that the next character, if there
is one, is none that the reader would take. Under that condition a reader given a name and
something behind it takes exactly the name, and that is what every statement about a text that
was put together from pieces starts from.

The pieces of a template do not get in each other's way because few characters have a meaning in
a tag, and none of them is a letter. In particular no blank is a letter, so a reader that skips
blanks in front of a name skips nothing of the name.

Plain text is different. Where it ends is decided by the next brace, and a text node runs up to
there, however the text came about. So what is kept of a list of nodes here are its `contents`,
in which every character of a text stands for itself.

## Main definitions

* `StopsAt`: The next character is not one of a kind.
* `isName`, `IsPath`: What can be read as a name and as a path.
* `Content`, `contents`: What nodes say, whichever way their texts are split.
* `Reads`: Characters are a template with certain contents.

## Theorems

* `identifier_append`, `path_append`: A name or a path is read up to its end.
* `isBlank_of_isNamePart`: No blank is part of a name.
* `nodes_plainText`: The nodes of a source begin with its plain text.
* `Reads.brace`, `Reads.plain`, `Reads.tag`: What characters in front of a template add to it.
-/

namespace Letterpress

/-- The next character, if there is one, does not satisfy a condition. -/
def StopsAt (p : Char → Bool) (rest : List Char) : Prop := ∀ c ∈ rest.head?, p c = false

theorem stopsAt_cons {p : Char → Bool} {c : Char} (h : p c = false) (rest : List Char) :
    StopsAt p (c :: rest) := by
  intro d hd
  rw [List.head?_cons, Option.mem_some_iff] at hd
  rw [← hd, h]

theorem stopsAt_sign {x c : Char} (h : c ≠ x) (rest : List Char) :
    StopsAt (· == x) (c :: rest) :=
  stopsAt_cons (p := (· == x)) (beq_eq_false_iff_ne.mpr h) rest

theorem StopsAt.head?_ne {x : Char} {rest : List Char} (h : StopsAt (· == x) rest) :
    rest.head? ≠ some x := by
  intro hhead
  have hx : (x == x) = false := h x hhead
  exact beq_eq_false_iff_ne.mp hx rfl

theorem StopsAt.takeWhile {p : Char → Bool} {rest : List Char} (h : StopsAt p rest) :
    rest.takeWhile p = [] := by
  cases rest with
  | nil => rfl
  | cons c rest =>
      have hc : p c = false := h c rfl
      rw [List.takeWhile_cons, hc]
      rfl

theorem StopsAt.dropWhile {p : Char → Bool} {rest : List Char} (h : StopsAt p rest) :
    rest.dropWhile p = rest := by
  cases rest with
  | nil => rfl
  | cons c rest =>
      have hc : p c = false := h c rfl
      rw [List.dropWhile_cons, hc]
      rfl

namespace Cursor

theorem takeWhile_append {p : Char → Bool} {cs rest : List Char} (hall : ∀ c ∈ cs, p c = true)
    (hstop : StopsAt p rest) (offset : Nat) :
    (⟨cs ++ rest, offset⟩ : Cursor).takeWhile p = (cs, ⟨rest, offset + byteLength cs⟩) := by
  unfold Cursor.takeWhile
  rw [List.takeWhile_append_of_pos hall, List.dropWhile_append_of_pos hall, hstop.takeWhile,
    hstop.dropWhile, List.append_nil]

theorem skipBlanks_of_stopsAt {rest : List Char} (h : StopsAt Text.isBlank rest) (offset : Nat) :
    (⟨rest, offset⟩ : Cursor).skipBlanks = ⟨rest, offset⟩ := by
  unfold skipBlanks Cursor.takeWhile
  rw [h.takeWhile, h.dropWhile]
  rfl

@[simp]
theorem accept?_cons_self (x : Char) (rest : List Char) (offset : Nat) :
    (⟨x :: rest, offset⟩ : Cursor).accept? x = some ⟨rest, offset + x.utf8Size⟩ := by
  simp only [accept?, if_pos]

theorem accept?_of_stopsAt {x : Char} {rest : List Char} (h : StopsAt (· == x) rest)
    (offset : Nat) : (⟨rest, offset⟩ : Cursor).accept? x = none := by
  cases rest with
  | nil => rfl
  | cons d rest =>
      have hd : (d == x) = false := h d rfl
      simp only [accept?]
      rw [if_neg (beq_eq_false_iff_ne.mp hd)]

theorem accept?_cons_of_ne {x d : Char} (h : d ≠ x) (rest : List Char) (offset : Nat) :
    (⟨d :: rest, offset⟩ : Cursor).accept? x = none :=
  accept?_of_stopsAt (stopsAt_sign h rest) offset

end Cursor

/-- What `identifier` can read to its end. -/
def isName (name : String) : Bool :=
  match name.toList with
  | [] => false
  | c :: cs => isNameStart c && cs.all isNamePart

/-- What `path` can read to its end. -/
def IsPath (names : List String) : Prop := names ≠ [] ∧ ∀ name ∈ names, isName name = true

theorem exists_of_isName {name : String} (h : isName name = true) :
    ∃ c cs, name.toList = c :: cs ∧ isNameStart c = true ∧ ∀ d ∈ cs, isNamePart d = true := by
  unfold isName at h
  split at h
  · cases h
  · next c cs hname =>
      rw [Bool.and_eq_true, List.all_eq_true] at h
      exact ⟨c, cs, hname, h.1, h.2⟩

theorem isNamePart_of_isNameStart {c : Char} (h : isNameStart c = true) :
    isNamePart c = true := by
  simp only [isNameStart, isNamePart, Text.isAlphanumeric, Bool.or_eq_true] at h ⊢
  rcases h with (h | h) | h
  · exact Or.inl (Or.inl (Or.inl h))
  · exact Or.inl (Or.inr h)
  · exact Or.inr h

/-- The blanks, by their code points. -/
def blankPoints : List Nat :=
  [9, 10, 11, 12, 13, 0x20, 0x85, 0xA0, 0x1680, 0x2000, 0x2001, 0x2002, 0x2003, 0x2004, 0x2005,
    0x2006, 0x2007, 0x2008, 0x2009, 0x200A, 0x2028, 0x2029, 0x202F, 0x205F, 0x3000]

theorem mem_blankPoints {c : Char} (h : Text.isBlank c = true) : c.toNat ∈ blankPoints := by
  simp only [Text.isBlank, Bool.or_eq_true, Bool.and_eq_true, decide_eq_true_eq,
    beq_iff_eq] at h
  simp only [blankPoints, List.mem_cons, List.not_mem_nil, or_false]
  rcases h with (((((((((h | h) | h) | h) | h) | h) | h) | h) | h) | h) | h <;> omega

/-- No blank is part of a name. There are few enough blanks to look each of them up. -/
theorem isBlank_of_isNamePart {c : Char} (h : isNamePart c = true) : Text.isBlank c = false := by
  have hall : ∀ n ∈ blankPoints, isNamePart (Char.ofNat n) = false := by decide +kernel
  rw [Bool.eq_false_iff]
  intro hblank
  have hpart := hall c.toNat (mem_blankPoints hblank)
  rw [Char.ofNat_toNat, h] at hpart
  cases hpart

/-- No sign but the underscore and the dollar sign is part of a name. -/
theorem ne_of_isNamePart {c x : Char} (hx : isNamePart x = false) (h : isNamePart c = true) :
    (c == x) = false := by
  rw [beq_eq_false_iff_ne]
  intro heq
  rw [heq, hx] at h
  cases h

theorem stopsAt_name {p : Char → Bool} (hp : ∀ c, isNamePart c = true → p c = false)
    {name : String} (h : isName name = true) (rest : List Char) :
    StopsAt p (name.toList ++ rest) := by
  rcases exists_of_isName h with ⟨c, cs, hname, hstart, _⟩
  rw [hname]
  exact stopsAt_cons (hp c (isNamePart_of_isNameStart hstart)) _

/-- A name is read up to its end. -/
theorem identifier_append {name : String} {rest : List Char} (h : isName name = true)
    (hstop : StopsAt isNamePart rest) (offset : Nat) :
    identifier ⟨name.toList ++ rest, offset⟩ =
      .ok (name, ⟨rest, offset + byteLength name.toList⟩) := by
  rcases exists_of_isName h with ⟨c, cs, hname, hstart, htail⟩
  have hback : String.ofList (c :: cs) = name := by rw [← hname, String.ofList_toList]
  rw [hname, List.cons_append]
  simp only [identifier]
  rw [if_pos hstart, Cursor.takeWhile_append htail hstop, hback, byteLength_cons, Nat.add_assoc]

theorem dotted_singleton (name : String) : dotted [name] = name := String.intercalate_singleton

theorem toList_dotted_cons (name : String) {names : List String} (h : names ≠ []) :
    (dotted (name :: names)).toList = name.toList ++ '.' :: (dotted names).toList := by
  cases names with
  | nil => exact absurd rfl h
  | cons next names =>
      simp only [dotted, String.intercalate_cons_cons, String.toList_append]
      rw [List.append_assoc]
      rfl

/-- A path is read up to its end. -/
theorem path_append {names : List String} {rest : List Char} (h : IsPath names)
    (hname : StopsAt isNamePart rest) (hpoint : StopsAt (· == '.') rest) (offset : Nat) :
    path ⟨(dotted names).toList ++ rest, offset⟩ =
      .ok (names, ⟨rest, offset + byteLength (dotted names).toList⟩) := by
  induction names generalizing offset with
  | nil => exact absurd rfl h.1
  | cons name names ih =>
      have hfirst : isName name = true := h.2 name List.mem_cons_self
      by_cases hlast : names = []
      · rw [hlast, dotted_singleton, path_eq]
        simp only [identifier_append hfirst hname, Cursor.accept?_of_stopsAt hpoint]
      · have htail : IsPath names := ⟨hlast, fun n hn => h.2 n (List.mem_cons_of_mem _ hn)⟩
        have hdot : isNamePart '.' = false := by decide
        rw [toList_dotted_cons name hlast, List.append_assoc, List.cons_append, path_eq]
        simp only [identifier_append hfirst (stopsAt_cons hdot _), Cursor.accept?_cons_self,
          ih htail, byteLength_append, byteLength_cons, Nat.add_assoc]

theorem stopsAt_path {p : Char → Bool} (hp : ∀ c, isNamePart c = true → p c = false)
    {names : List String} (h : IsPath names) (rest : List Char) :
    StopsAt p ((dotted names).toList ++ rest) := by
  cases names with
  | nil => exact absurd rfl h.1
  | cons name names =>
      have hfirst : isName name = true := h.2 name List.mem_cons_self
      by_cases hlast : names = []
      · rw [hlast, dotted_singleton]
        exact stopsAt_name hp hfirst rest
      · rw [toList_dotted_cons name hlast, List.append_assoc]
        exact stopsAt_name hp hfirst _

/-- A part of what nodes say: a character of a text, a placeholder or an inclusion. -/
inductive Content where
  | char (c : Char)
  | placeholder (path : List String) (filters : List (String × List String))
  | inclusion (name : String)
  deriving DecidableEq, Repr

/-- A filter as it is written, wherever that was. -/
def FilterUse.call (f : FilterUse) : String × List String := (f.name, f.args)

/-- What a node says, wherever it was read. -/
def Node.contents : Node → List Content
  | .text s _ => s.toList.map .char
  | .placeholder p => [.placeholder p.path (p.filters.map FilterUse.call)]
  | .inclusion i => [.inclusion i.name]

/-- What nodes say. Two lists of nodes say the same exactly if they differ in nothing but their
    spans and the way in which neighbouring texts are split. -/
def contents (ns : List Node) : List Content := ns.flatMap Node.contents

theorem nodes_of_brace {c : Char} (hc : c = '{' ∨ c = '}') (rest : List Char) (offset : Nat) :
    nodes ⟨c :: c :: rest, offset⟩ =
      (nodes ⟨rest, offset + 2⟩).map (.text c.toString ⟨offset, offset + 2⟩ :: ·) := by
  rw [nodes_cons, if_pos ⟨hc, rfl⟩, List.tail_cons]

theorem nodes_of_tag {rest : List Char} {offset : Nat} {n : Node} {c : Cursor}
    (hsingle : rest.head? ≠ some '{') (h : tag offset ⟨rest, offset + '{'.utf8Size⟩ = .ok (n, c)) :
    nodes ⟨'{' :: rest, offset⟩ = (nodes c).map (n :: ·) := by
  rw [nodes_cons, if_neg (fun hdouble => hsingle hdouble.2), if_pos rfl, h]

theorem nodes_of_plain {c : Char} {rest : List Char} (hopen : c ≠ '{')
    (hclose : ¬(c = '}' ∧ rest.head? = some '}')) (offset : Nat) :
    nodes ⟨c :: rest, offset⟩ =
      (nodes ⟨afterPlainText rest, offset + byteLength (c :: plainText rest)⟩).map
        (.text (String.ofList (c :: plainText rest))
          ⟨offset, offset + byteLength (c :: plainText rest)⟩ :: ·) := by
  have hsingle : ¬((c = '{' ∨ c = '}') ∧ rest.head? = some c) := by
    rintro ⟨hbrace | hbrace, hhead⟩
    · exact hopen hbrace
    · exact hclose ⟨hbrace, hbrace ▸ hhead⟩
  rw [nodes_cons, if_neg hsingle, if_neg hopen]

theorem contents_cons (n : Node) (ns : List Node) :
    contents (n :: ns) = n.contents ++ contents ns := List.flatMap_cons

/-- The nodes of a source begin with its plain text, and go on behind it. So a text that a
    source begins with may be read in one go or not, for what the nodes say. -/
theorem nodes_plainText {cs : List Char} {offset : Nat} {ns : List Node}
    (h : nodes ⟨cs, offset⟩ = .ok ns) :
    ∃ ms, nodes ⟨afterPlainText cs, offset + byteLength (plainText cs)⟩ = .ok ms ∧
      contents ns = (plainText cs).map .char ++ contents ms := by
  -- Where a source begins with a node of another kind, its plain text is empty.
  have hnothing : plainText cs = [] →
      ∃ ms, nodes ⟨afterPlainText cs, offset + byteLength (plainText cs)⟩ = .ok ms ∧
        contents ns = (plainText cs).map .char ++ contents ms := by
    intro hplain
    refine ⟨ns, ?_, ?_⟩
    · rw [afterPlainText, hplain]
      exact h
    · rw [hplain]
      rfl
  cases cs with
  | nil => exact hnothing rfl
  | cons c rest =>
      by_cases hopen : c = '{'
      · exact hnothing (by rw [plainText, if_pos hopen])
      · by_cases hclose : c = '}' ∧ rest.head? = some '}'
        · exact hnothing (by rw [plainText, if_neg hopen, if_pos hclose])
        · have hplain : plainText (c :: rest) = c :: plainText rest := by
            rw [plainText, if_neg hopen, if_neg hclose]
          have hafter : afterPlainText (c :: rest) = afterPlainText rest := by
            rw [afterPlainText, hplain]
            rfl
          rw [nodes_of_plain hopen hclose] at h
          rw [hafter, hplain]
          cases hms : nodes ⟨afterPlainText rest, offset + byteLength (c :: plainText rest)⟩ with
          | error e =>
              rw [hms] at h
              cases h
          | ok ms =>
              rw [hms] at h
              cases h
              refine ⟨ms, rfl, ?_⟩
              rw [contents_cons, Node.contents, String.toList_ofList]

/-- Characters are a template with these contents, wherever in a source they stand. -/
def Reads (cs : List Char) (said : List Content) : Prop :=
  ∀ offset, ∃ ns, nodes ⟨cs, offset⟩ = .ok ns ∧ contents ns = said

theorem reads_nil : Reads [] [] := by
  intro offset
  exact ⟨[], nodes_nil offset, rfl⟩

/-- A brace that is written twice adds itself. -/
theorem Reads.brace {c : Char} {rest : List Char} {said : List Content}
    (hc : c = '{' ∨ c = '}') (h : Reads rest said) : Reads (c :: c :: rest) (.char c :: said) := by
  intro offset
  rcases h (offset + 2) with ⟨ns, hns, hsaid⟩
  refine ⟨.text c.toString ⟨offset, offset + 2⟩ :: ns, ?_, ?_⟩
  · rw [nodes_of_brace hc, hns]
    rfl
  · rw [contents_cons, hsaid, Node.contents, Char.toString, String.toList_singleton]
    rfl

/-- A character that is no brace adds itself, whether or not it is read in one text with what
    comes behind it. -/
theorem Reads.plain {c : Char} {rest : List Char} {said : List Content}
    (hopen : c ≠ '{') (hclose : c ≠ '}') (h : Reads rest said) :
    Reads (c :: rest) (.char c :: said) := by
  intro offset
  rcases h (offset + c.utf8Size) with ⟨ns, hns, hsaid⟩
  -- The reader takes the character together with the plain text behind it.
  rcases nodes_plainText hns with ⟨ms, hms, hsplit⟩
  rw [nodes_of_plain hopen (fun hdouble => hclose hdouble.1), byteLength_cons, ← Nat.add_assoc,
    hms]
  refine ⟨_, rfl, ?_⟩
  rw [contents_cons, Node.contents, String.toList_ofList, List.map_cons, List.cons_append,
    ← hsplit, hsaid]

/-- A tag adds what it is read as. -/
theorem Reads.tag {cs rest : List Char} {what : Content} {said : List Content}
    (hsingle : StopsAt (· == '{') cs)
    (htag : ∀ start offset, ∃ n next,
      Letterpress.tag start ⟨cs, offset⟩ = .ok (n, ⟨rest, next⟩) ∧ n.contents = [what])
    (h : Reads rest said) : Reads ('{' :: cs) (what :: said) := by
  intro offset
  rcases htag offset (offset + '{'.utf8Size) with ⟨n, next, hread, hwhat⟩
  rcases h next with ⟨ns, hns, hsaid⟩
  refine ⟨n :: ns, ?_, ?_⟩
  · rw [nodes_of_tag hsingle.head?_ne hread, hns]
    rfl
  · rw [contents_cons, hwhat, hsaid]
    rfl

theorem Reads.readTemplate {source : String} {said : List Content}
    (h : Reads source.toList said) :
    ∃ ns, Letterpress.readTemplate source = .ok ns ∧ contents ns = said :=
  h 0

end Letterpress
