import Letterpress.Template.Cursor
import Letterpress.Template.Node
import Letterpress.Template.ReadError
import Letterpress.Text.Letter

/-!
# Reading Templates

The grammar of templates, as one reader for each of its parts. A template is plain text with
tags in braces; a brace is written twice to stand for itself, but a closing brace on its own
may also be written once. A tag holds either a path and a chain of filters, or the sign `>`
and the path of a template to include.

An argument of a filter is either quoted, and may then hold any text, or it is bare: it goes on
up to the next comma, pipe or closing brace, and the blanks around it do not count. A bare
argument may be empty.

Two decisions need a look ahead. Blanks behind the name of a filter belong to the filter only
if a colon follows, and the blanks in front of an argument belong to it if it is bare. In both
cases a reader goes on from an earlier cursor, which it still has at hand.

## Main definitions

* `isNameStart`, `isNamePart`: The characters of a name.
* `identifier`, `path`: Names.
* `quotedText`, `argument`, `arguments`: The arguments of a filter.
* `filters`: A chain of filters.
* `tag`: A tag, from behind its opening brace.
* `nodes`: The nodes of a source.
* `readTemplate`: Reads a whole source.

## Theorems

* `passes_identifier`, `passes_path`, `passes_quotedText`, `passes_tag`: These readers take at
  least one character.
* `reaches_argument`, `reaches_arguments`, `reaches_filters`: These readers never go back.
-/

namespace Letterpress

open Text (isLetter isAlphanumeric)

/-- A name begins with a letter, an underscore or a dollar sign. -/
def isNameStart (c : Char) : Bool := isLetter c || c == '_' || c == '$'

/-- A name goes on with letters, numerals, underscores and dollar signs. -/
def isNamePart (c : Char) : Bool := isAlphanumeric c || c == '_' || c == '$'

/-- Reads one name. -/
def identifier (c : Cursor) : Except ReadError (String × Cursor) :=
  match c.rest with
  | [] => .error ⟨.identifierExpected, c.offset⟩
  | d :: rest =>
    if isNameStart d then
      let (tail, next) := (⟨rest, c.offset + d.utf8Size⟩ : Cursor).takeWhile isNamePart
      .ok (String.ofList (d :: tail), next)
    else .error ⟨.identifierExpected, c.offset⟩

theorem passes_identifier {c d : Cursor} {name : String} (h : identifier c = .ok (name, d)) :
    c.Passes d := by
  obtain ⟨rest, offset⟩ := c
  cases rest with
  | nil => simp [identifier] at h
  | cons e rest =>
    simp only [identifier] at h
    split at h
    · cases h
      exact (Cursor.passes_cons e rest offset).trans_reaches (Cursor.reaches_takeWhile _ _)
    · cases h

/-- Reads names with points between them. -/
def path (c : Cursor) : Except ReadError (List String × Cursor) :=
  match _h : identifier c with
  | .error e => .error e
  | .ok (name, c₁) =>
    match _h₁ : c₁.accept? '.' with
    | none => .ok ([name], c₁)
    | some c₂ =>
      match path c₂ with
      | .error e => .error e
      | .ok (names, c₃) => .ok (name :: names, c₃)
termination_by c.rest.length
decreasing_by
  exact Nat.lt_trans (Cursor.passes_accept? _h₁).length_lt (passes_identifier _h).length_lt

theorem path_eq (c : Cursor) :
    path c =
      match identifier c with
      | .error e => .error e
      | .ok (name, c₁) =>
        match c₁.accept? '.' with
        | none => .ok ([name], c₁)
        | some c₂ =>
          match path c₂ with
          | .error e => .error e
          | .ok (names, c₃) => .ok (name :: names, c₃) := by
  rw [path]
  split
  · next e h => simp only [h]
  · next name c₁ h =>
      simp only [h]
      split
      · next h₁ => simp only [h₁]
      · next c₂ h₁ => simp only [h₁]

theorem passes_path {c d : Cursor} {names : List String} (h : path c = .ok (names, d)) :
    c.Passes d := by
  fun_induction path c generalizing names d with
  | case1 => cases h
  | case2 c name c₁ h₁ _ =>
    cases h
    exact passes_identifier h₁
  | case3 => cases h
  | case4 c name c₁ h₁ c₂ h₂ names' c₃ h₃ ih =>
    cases h
    exact (passes_identifier h₁).trans_reaches
      ((Cursor.passes_accept? h₂).trans_reaches (ih h₃).reaches).reaches

/-- The characters that may stand behind a backslash in quotes. -/
def isEscapable (quote c : Char) : Bool :=
  c == quote || c == '\\' || c == ',' || c == ':'

/-- Reads quoted text from behind its opening quote, which stood at `opened`. -/
def quotedText (quote : Char) (opened : Nat) :
    List Char → Nat → Except ReadError (List Char × Cursor)
  | [], _ => .error ⟨.quoteUnclosed, opened⟩
  | c :: rest, offset =>
    if c = quote then .ok ([], ⟨rest, offset + c.utf8Size⟩)
    else if c = '\\' then
      match rest with
      | [] => .error ⟨.escapeUnfinished, offset + 1⟩
      | e :: rest =>
        if isEscapable quote e then
          match quotedText quote opened rest (offset + 1 + e.utf8Size) with
          | .error err => .error err
          | .ok (s, d) => .ok (e :: s, d)
        else .error ⟨.escapeUnknown e, offset⟩
    else
      match quotedText quote opened rest (offset + c.utf8Size) with
      | .error err => .error err
      | .ok (s, d) => .ok (c :: s, d)

/-- Ends a bare argument. -/
def isArgumentEnd (c : Char) : Bool := c == ',' || c == '|' || c == '}'

/-- Reads a bare argument. -/
def bareArgument (c : Cursor) : String × Cursor :=
  let (taken, next) := c.takeWhile (fun d => !isArgumentEnd d)
  (Text.trim (String.ofList taken), next)

/-- Opens and closes a quoted argument. -/
def isQuote (c : Char) : Bool := c == '\'' || c == '"'

/-- What has to follow a quoted argument: blanks, and then a comma, a pipe, a closing brace or
    the end of the source. -/
def afterQuoted (c : Cursor) : Except ReadError Cursor :=
  let next := c.skipBlanks
  match next.next? with
  | none => .ok next
  | some d => if isArgumentEnd d then .ok next else .error ⟨.commaExpected, next.offset⟩

/-- Reads one argument, and the blanks behind it if it is quoted. -/
def argument (c : Cursor) : Except ReadError (String × Cursor) :=
  let opened := c.skipBlanks
  match opened.rest with
  | [] => .ok (bareArgument c)
  | d :: rest =>
    if isQuote d then
      match quotedText d opened.offset rest (opened.offset + d.utf8Size) with
      | .error e => .error e
      | .ok (s, closed) =>
        match afterQuoted closed with
        | .error e => .error e
        | .ok next => .ok (String.ofList s, next)
    else .ok (bareArgument c)

theorem passes_quotedText {quote : Char} {opened : Nat} {cs : List Char} {offset : Nat}
    {s : List Char} {d : Cursor} (h : quotedText quote opened cs offset = .ok (s, d)) :
    (⟨cs, offset⟩ : Cursor).Passes d := by
  fun_induction quotedText quote opened cs offset generalizing s d with
  | case1 => cases h
  | case2 rest offset =>
    cases h
    exact Cursor.passes_cons _ rest offset
  | case3 => cases h
  | case4 => cases h
  | case5 offset e rest _ t d' hd _ ih =>
    cases h
    exact (Cursor.passes_cons _ _ offset).trans_reaches
      ((Cursor.passes_cons e rest (offset + 1)).trans_reaches (ih hd).reaches).reaches
  | case6 => cases h
  | case7 => cases h
  | case8 c rest offset _ _ t d' hd ih =>
    cases h
    exact (Cursor.passes_cons c rest offset).trans_reaches (ih hd).reaches

theorem reaches_bareArgument (c : Cursor) : c.Reaches (bareArgument c).2 :=
  Cursor.reaches_takeWhile _ c

theorem reaches_afterQuoted {c d : Cursor} (h : afterQuoted c = .ok d) : c.Reaches d := by
  simp only [afterQuoted] at h
  split at h
  · cases h
    exact Cursor.reaches_skipBlanks c
  · split at h
    · cases h
      exact Cursor.reaches_skipBlanks c
    · cases h

theorem reaches_argument {c d : Cursor} {s : String} (h : argument c = .ok (s, d)) :
    c.Reaches d := by
  have hbare : (.ok (bareArgument c) : Except ReadError (String × Cursor)) = .ok (s, d) →
      c.Reaches d := by
    intro heq
    have hd : (bareArgument c).2 = d := congrArg Prod.snd (Except.ok.inj heq)
    rw [← hd]
    exact reaches_bareArgument c
  simp only [argument] at h
  split at h
  · exact hbare h
  · rename_i e rest hrest
    split at h
    · split at h
      · cases h
      · rename_i t closed hclosed
        split at h
        · cases h
        · rename_i next hnext
          cases h
          have hopen : c.skipBlanks.Passes ⟨rest, c.skipBlanks.offset + e.utf8Size⟩ :=
            ⟨[e], by simp, by simp [hrest], by simp⟩
          exact (Cursor.reaches_skipBlanks c).trans
            (hopen.reaches.trans ((passes_quotedText hclosed).reaches.trans
              (reaches_afterQuoted hnext)))
    · exact hbare h

/-- Reads arguments with commas between them. -/
def arguments (c : Cursor) : Except ReadError (List String × Cursor) :=
  match _h : argument c with
  | .error e => .error e
  | .ok (arg, c₁) =>
    match _h₁ : c₁.accept? ',' with
    | none => .ok ([arg], c₁)
    | some c₂ =>
      match arguments c₂ with
      | .error e => .error e
      | .ok (args, c₃) => .ok (arg :: args, c₃)
termination_by c.rest.length
decreasing_by
  exact Nat.lt_of_lt_of_le (Cursor.passes_accept? _h₁).length_lt (reaches_argument _h).length_le

theorem arguments_eq (c : Cursor) :
    arguments c =
      match argument c with
      | .error e => .error e
      | .ok (arg, c₁) =>
        match c₁.accept? ',' with
        | none => .ok ([arg], c₁)
        | some c₂ =>
          match arguments c₂ with
          | .error e => .error e
          | .ok (args, c₃) => .ok (arg :: args, c₃) := by
  rw [arguments]
  split
  · next e h => simp only [h]
  · next arg c₁ h =>
      simp only [h]
      split
      · next h₁ => simp only [h₁]
      · next c₂ h₁ => simp only [h₁]

theorem reaches_arguments {c d : Cursor} {args : List String} (h : arguments c = .ok (args, d)) :
    c.Reaches d := by
  fun_induction arguments c generalizing args d with
  | case1 => cases h
  | case2 c arg c₁ h₁ _ =>
    cases h
    exact reaches_argument h₁
  | case3 => cases h
  | case4 c arg c₁ h₁ c₂ h₂ args' c₃ h₃ ih =>
    cases h
    exact (reaches_argument h₁).trans ((Cursor.passes_accept? h₂).reaches.trans (ih h₃))

/-- Reads what may follow the name of a filter: a colon, with blanks in front of it, and
    arguments. Without a colon the filter ends with its name. -/
def filterArguments (c : Cursor) : Except ReadError (List String × Cursor) :=
  match c.skipBlanks.accept? ':' with
  | none => .ok ([], c)
  | some c₁ => arguments c₁

theorem reaches_filterArguments {c d : Cursor} {args : List String}
    (h : filterArguments c = .ok (args, d)) : c.Reaches d := by
  unfold filterArguments at h
  split at h
  · cases h
    exact .refl c
  · rename_i c₁ h₁
    exact (Cursor.reaches_skipBlanks c).trans
      ((Cursor.passes_accept? h₁).reaches.trans (reaches_arguments h))

/-- Reads one filter from behind its pipe, which stood at `start`. -/
def filterUse (start : Nat) (c : Cursor) : Except ReadError (FilterUse × Cursor) :=
  match identifier c.skipBlanks with
  | .error e => .error e
  | .ok (name, c₁) =>
    match filterArguments c₁ with
    | .error e => .error e
    | .ok (args, c₂) => .ok (⟨name, args, ⟨start, c₂.offset⟩⟩, c₂)

theorem passes_filterUse {start : Nat} {c d : Cursor} {f : FilterUse}
    (h : filterUse start c = .ok (f, d)) : c.Passes d := by
  unfold filterUse at h
  split at h
  · cases h
  · rename_i name c₁ h₁
    split at h
    · cases h
    · rename_i args c₂ h₂
      cases h
      exact (Cursor.reaches_skipBlanks c).trans_passes
        ((passes_identifier h₁).trans_reaches (reaches_filterArguments h₂))

/-- Reads a chain of filters, and the blanks behind it. -/
def filters (c : Cursor) : Except ReadError (List FilterUse × Cursor) :=
  let opened := c.skipBlanks
  match _h : opened.accept? '|' with
  | none => .ok ([], opened)
  | some c₁ =>
    match _h₁ : filterUse opened.offset c₁ with
    | .error e => .error e
    | .ok (f, c₂) =>
      match filters c₂ with
      | .error e => .error e
      | .ok (fs, c₃) => .ok (f :: fs, c₃)
termination_by c.rest.length
decreasing_by
  exact Nat.lt_trans (passes_filterUse _h₁).length_lt
    (Nat.lt_of_lt_of_le (Cursor.passes_accept? _h).length_lt
      (Cursor.reaches_skipBlanks c).length_le)

theorem filters_eq (c : Cursor) :
    filters c =
      match c.skipBlanks.accept? '|' with
      | none => .ok ([], c.skipBlanks)
      | some c₁ =>
        match filterUse c.skipBlanks.offset c₁ with
        | .error e => .error e
        | .ok (f, c₂) =>
          match filters c₂ with
          | .error e => .error e
          | .ok (fs, c₃) => .ok (f :: fs, c₃) := by
  rw [filters]
  split
  · next h => simp only [h]
  · next c₁ h =>
      simp only [h]
      split
      · next e h₁ => simp only [h₁]
      · next f c₂ h₁ => simp only [h₁]

theorem reaches_filters {c d : Cursor} {fs : List FilterUse} (h : filters c = .ok (fs, d)) :
    c.Reaches d := by
  fun_induction filters c generalizing fs d with
  | case1 c _ =>
    cases h
    exact Cursor.reaches_skipBlanks c
  | case2 => cases h
  | case3 => cases h
  | case4 c₀ opened c₁ h₁ f c₂ h₂ fs' c₃ h₃ =>
    rename_i ih
    cases h
    exact (Cursor.reaches_skipBlanks c₀).trans ((Cursor.passes_accept? h₁).reaches.trans
      ((passes_filterUse h₂).reaches.trans (ih h₃)))

/-- Closes a tag, or reports the given fault in its place. -/
def closeTag (fault : ReadFault) (c : Cursor) : Except ReadError Cursor :=
  match c.skipBlanks.accept? '}' with
  | none => .error ⟨fault, c.skipBlanks.offset⟩
  | some d => .ok d

theorem passes_closeTag {fault : ReadFault} {c d : Cursor} (h : closeTag fault c = .ok d) :
    c.Passes d := by
  unfold closeTag at h
  split at h
  · cases h
  · rename_i d' hd
    cases h
    exact (Cursor.reaches_skipBlanks c).trans_passes (Cursor.passes_accept? hd)

/-- Reads an inclusion from behind its sign, in a tag that was opened at `start`. -/
def inclusionTag (start : Nat) (c : Cursor) : Except ReadError (Node × Cursor) :=
  match path c.skipBlanks with
  | .error e => .error e
  | .ok (names, c₁) =>
    match closeTag (.inclusionUnclosed (dotted names)) c₁ with
    | .error e => .error e
    | .ok c₂ => .ok (.inclusion ⟨dotted names, ⟨start, c₂.offset⟩⟩, c₂)

/-- Reads a placeholder in a tag that was opened at `start`. -/
def placeholderTag (start : Nat) (c : Cursor) : Except ReadError (Node × Cursor) :=
  match path c with
  | .error e => .error e
  | .ok (names, c₁) =>
    match filters c₁ with
    | .error e => .error e
    | .ok (fs, c₂) =>
      match closeTag (.placeholderUnclosed (dotted names)) c₂ with
      | .error e => .error e
      | .ok c₃ => .ok (.placeholder ⟨names, fs, ⟨start, c₃.offset⟩⟩, c₃)

/-- Reads a tag from behind its opening brace, which stood at `start`. -/
def tag (start : Nat) (c : Cursor) : Except ReadError (Node × Cursor) :=
  match c.accept? '>' with
  | some c₁ => inclusionTag start c₁
  | none => placeholderTag start c

theorem passes_tag {start : Nat} {c d : Cursor} {n : Node} (h : tag start c = .ok (n, d)) :
    c.Passes d := by
  unfold tag at h
  split at h
  · rename_i c₁ h₁
    unfold inclusionTag at h
    split at h
    · cases h
    · rename_i names c₂ h₂
      split at h
      · cases h
      · rename_i c₃ h₃
        cases h
        exact (Cursor.passes_accept? h₁).trans_reaches ((Cursor.reaches_skipBlanks c₁).trans
          ((passes_path h₂).reaches.trans (passes_closeTag h₃).reaches))
  · unfold placeholderTag at h
    split at h
    · cases h
    · rename_i names c₂ h₂
      split at h
      · cases h
      · rename_i fs c₃ h₃
        split at h
        · cases h
        · rename_i c₄ h₄
          cases h
          exact (passes_path h₂).trans_reaches
            ((reaches_filters h₃).trans (passes_closeTag h₄).reaches)

/-- The plain text that characters begin with: all up to the next brace, except that a single
    closing brace is plain text too. -/
def plainText : List Char → List Char
  | [] => []
  | c :: rest =>
    if c = '{' then []
    else if c = '}' ∧ rest.head? = some '}' then []
    else c :: plainText rest

/-- The characters behind the plain text that they begin with. -/
def afterPlainText (cs : List Char) : List Char :=
  cs.drop (plainText cs).length

theorem isPrefix_plainText (cs : List Char) : plainText cs <+: cs := by
  induction cs with
  | nil => exact List.nil_prefix
  | cons c rest ih =>
    simp only [plainText]
    split
    · exact List.nil_prefix
    · split
      · exact List.nil_prefix
      · exact List.cons_prefix_cons.mpr ⟨rfl, ih⟩

theorem plainText_append (cs : List Char) : plainText cs ++ afterPlainText cs = cs := by
  have h := List.prefix_iff_eq_take.mp (isPrefix_plainText cs)
  conv => lhs; rw [h]
  exact List.take_append_drop _ cs

/-- Reads nodes up to the end of the source. -/
def nodes (c : Cursor) : Except ReadError (List Node) :=
  match _h : c.rest with
  | [] => .ok []
  | d :: rest =>
    if (d = '{' ∨ d = '}') ∧ rest.head? = some d then
      match nodes ⟨rest.tail, c.offset + 2⟩ with
      | .error e => .error e
      | .ok ns => .ok (.text d.toString ⟨c.offset, c.offset + 2⟩ :: ns)
    else if d = '{' then
      match _h₁ : tag c.offset ⟨rest, c.offset + d.utf8Size⟩ with
      | .error e => .error e
      | .ok (n, c₁) =>
        match nodes c₁ with
        | .error e => .error e
        | .ok ns => .ok (n :: ns)
    else
      let plain := d :: plainText rest
      let c₁ : Cursor := ⟨afterPlainText rest, c.offset + byteLength plain⟩
      match nodes c₁ with
      | .error e => .error e
      | .ok ns => .ok (.text (String.ofList plain) ⟨c.offset, c₁.offset⟩ :: ns)
termination_by c.rest.length
decreasing_by
  · simp only [_h, List.length_tail, List.length_cons]
    omega
  · rw [_h]
    exact Nat.lt_succ_of_lt (passes_tag _h₁).length_lt
  · simp only [_h, afterPlainText, List.length_drop, List.length_cons]
    omega

theorem nodes_nil (offset : Nat) : nodes ⟨[], offset⟩ = .ok [] := by
  rw [nodes]

theorem nodes_cons (d : Char) (rest : List Char) (offset : Nat) :
    nodes ⟨d :: rest, offset⟩ =
      if (d = '{' ∨ d = '}') ∧ rest.head? = some d then
        (nodes ⟨rest.tail, offset + 2⟩).map (.text d.toString ⟨offset, offset + 2⟩ :: ·)
      else if d = '{' then
        match tag offset ⟨rest, offset + d.utf8Size⟩ with
        | .error e => .error e
        | .ok (n, c) => (nodes c).map (n :: ·)
      else
        let plain := d :: plainText rest
        (nodes ⟨afterPlainText rest, offset + byteLength plain⟩).map
          (.text (String.ofList plain) ⟨offset, offset + byteLength plain⟩ :: ·) := by
  have hmap : ∀ (c : Cursor) (n : Node),
      (match nodes c with
        | .error e => .error e
        | .ok ns => .ok (n :: ns)) = (nodes c).map (n :: ·) := by
    intro c n
    cases nodes c with
    | error e => rfl
    | ok ns => rfl
  rw [nodes]
  split
  · next h => cases h
  · next d rest h =>
      cases h
      simp only [hmap]
      split
      · rfl
      · split
        · split
          · next e he => simp only [he]
          · next n c he => simp only [he]
        · rfl

/-- Reads a whole source. -/
def readTemplate (source : String) : Except ReadError (List Node) :=
  nodes (.start source)

end Letterpress
