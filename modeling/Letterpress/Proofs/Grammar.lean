import Letterpress.Proofs.Printing

/-!
# The Grammar of Templates

What a template is, said without a reader. Each rule puts a piece of a template together from
smaller pieces and says what the whole means; none of them looks ahead, backtracks or knows an
offset. Two rules speak of the character behind a piece, because the language does: a closing
brace stands for itself only where no other one follows, and plain characters next to each other
are one text.

The rules overlap on purpose. Blanks between the last argument of a filter and the next pipe
belong to the argument if it is bare, and to nothing otherwise, and both derivations mean the
same. A reader has to decide; the grammar does not.

The lemmas are those that do not depend on how a source is read: which blanks are skipped in front
of what, and that blanks behind an argument change nothing.

## Main definitions

* `Phrase`, `Node.phrase`: What a node says, wherever it was read.
* `IsBlanks`, `IsQuoted`, `IsArgument`, `IsArguments`, `IsCall`, `IsChain`: The pieces of a tag.
* `StartsPlain`: The next character stands for itself.
* `IsTemplate`: Characters are a template with certain phrases.

## Theorems

* `IsBlanks.dropWhile_append`, `dropWhile_append_of_ne_nil`: What is left behind leading blanks.
* `stopsAt_dropWhile_append`: What is seen across blanks.
* `trim_append_blanks`: Blanks at the end of a text are trimmed.
* `IsArgument.append_blanks`, `IsArguments.append_blanks`, `IsCall.append_blanks`: Blanks behind
  an argument do not count.
-/

namespace Letterpress

/-- What a node says, wherever it was read. -/
inductive Phrase where
  | text (s : String)
  | placeholder (path : List String) (calls : List (String × List String))
  | inclusion (name : String)
  deriving DecidableEq, Repr

/-- A node without its spans. -/
def Node.phrase : Node → Phrase
  | .text s _ => .text s
  | .placeholder p => .placeholder p.path (p.filters.map FilterUse.call)
  | .inclusion i => .inclusion i.name

/-- Blanks and nothing else. -/
def IsBlanks (cs : List Char) : Prop := ∀ c ∈ cs, Text.isBlank c = true

/-- Text as it is written between two quotes. The quote, the backslash, the comma and the colon
    may be escaped, and the first two of them have to be. -/
inductive IsQuoted (quote : Char) : List Char → List Char → Prop where
  | nil : IsQuoted quote [] []
  | plain {c : Char} {cs s : List Char} (hquote : c ≠ quote) (hslash : c ≠ '\\')
      (h : IsQuoted quote cs s) : IsQuoted quote (c :: cs) (c :: s)
  | escape {c : Char} {cs s : List Char} (hc : c = quote ∨ c = '\\' ∨ c = ',' ∨ c = ':')
      (h : IsQuoted quote cs s) : IsQuoted quote ('\\' :: c :: cs) (c :: s)

/-- An argument: text in quotes with blanks around it, or a run that does not begin like one. -/
inductive IsArgument : List Char → String → Prop where
  | quoted {quote : Char} {before body after s : List Char} (hquote : quote = '\'' ∨ quote = '"')
      (hbefore : IsBlanks before) (hbody : IsQuoted quote body s) (hafter : IsBlanks after) :
      IsArgument (before ++ quote :: (body ++ quote :: after)) (String.ofList s)
  | bare {run : List Char} (hrun : ∀ c ∈ run, c ≠ ',' ∧ c ≠ '|' ∧ c ≠ '}')
      (hfirst : ∀ c ∈ (run.dropWhile Text.isBlank).head?, c ≠ '\'' ∧ c ≠ '"') :
      IsArgument run (Text.trim (String.ofList run))

/-- Arguments with commas between them. -/
inductive IsArguments : List Char → List String → Prop where
  | last {cs : List Char} {arg : String} (h : IsArgument cs arg) : IsArguments cs [arg]
  | more {cs rest : List Char} {arg : String} {args : List String} (h : IsArgument cs arg)
      (hrest : IsArguments rest args) : IsArguments (cs ++ ',' :: rest) (arg :: args)

/-- What stands behind the pipe of a filter. -/
inductive IsCall : List Char → String × List String → Prop where
  | plain {before : List Char} {name : String} (hbefore : IsBlanks before)
      (hname : isName name = true) : IsCall (before ++ name.toList) (name, [])
  | applied {before between cs : List Char} {name : String} {args : List String}
      (hbefore : IsBlanks before) (hname : isName name = true) (hbetween : IsBlanks between)
      (hargs : IsArguments cs args) :
      IsCall (before ++ (name.toList ++ (between ++ ':' :: cs))) (name, args)

/-- Filters with a pipe in front of each. -/
inductive IsChain : List Char → List (String × List String) → Prop where
  | nil : IsChain [] []
  | cons {before cs rest : List Char} {call : String × List String}
      {calls : List (String × List String)} (hbefore : IsBlanks before) (hcall : IsCall cs call)
      (hrest : IsChain rest calls) : IsChain (before ++ '|' :: (cs ++ rest)) (call :: calls)

/-- The first of the characters stands for itself: it is no opening brace, and no closing brace in
    front of another one. -/
def StartsPlain : List Char → Prop
  | [] => False
  | c :: rest => c ≠ '{' ∧ ¬(c = '}' ∧ rest.head? = some '}')

/-- Characters are a template with certain phrases. -/
inductive IsTemplate : List Char → List Phrase → Prop where
  | nil : IsTemplate [] []
  | brace {c : Char} {rest : List Char} {ps : List Phrase} (hc : c = '{' ∨ c = '}')
      (hrest : IsTemplate rest ps) : IsTemplate (c :: c :: rest) (.text c.toString :: ps)
  | plain {c : Char} {rest : List Char} {ps : List Phrase} (hc : StartsPlain (c :: rest))
      (halone : ¬ StartsPlain rest) (hrest : IsTemplate rest ps) :
      IsTemplate (c :: rest) (.text c.toString :: ps)
  | join {c : Char} {rest : List Char} {s : String} {ps : List Phrase}
      (hc : StartsPlain (c :: rest)) (hmore : StartsPlain rest)
      (hrest : IsTemplate rest (.text s :: ps)) :
      IsTemplate (c :: rest) (.text (c.toString ++ s) :: ps)
  | inclusion {before after rest : List Char} {names : List String} {ps : List Phrase}
      (hbefore : IsBlanks before) (hpath : IsPath names) (hafter : IsBlanks after)
      (hrest : IsTemplate rest ps) :
      IsTemplate ('{' :: '>' :: (before ++ (dotted names).toList ++ after ++ '}' :: rest))
        (.inclusion (dotted names) :: ps)
  | placeholder {cs after rest : List Char} {names : List String}
      {calls : List (String × List String)} {ps : List Phrase} (hpath : IsPath names)
      (hchain : IsChain cs calls) (hafter : IsBlanks after) (hrest : IsTemplate rest ps) :
      IsTemplate ('{' :: ((dotted names).toList ++ cs ++ after ++ '}' :: rest))
        (.placeholder names calls :: ps)

theorem isBlanks_nil : IsBlanks [] := fun _ h => absurd h List.not_mem_nil

theorem IsBlanks.append {cs ds : List Char} (hcs : IsBlanks cs) (hds : IsBlanks ds) :
    IsBlanks (cs ++ ds) := by
  intro c hc
  rcases List.mem_append.mp hc with hc | hc
  · exact hcs c hc
  · exact hds c hc

theorem isBlanks_takeWhile (cs : List Char) : IsBlanks (cs.takeWhile Text.isBlank) :=
  fun _ hc => List.all_eq_true.mp List.all_takeWhile _ hc

theorem stopsAt_dropWhile (p : Char → Bool) (cs : List Char) : StopsAt p (cs.dropWhile p) := by
  intro c hc
  have hhead := List.head?_dropWhile_not p cs
  rw [hc] at hhead
  exact hhead

theorem StopsAt.of_append_left {p : Char → Bool} {cs ds : List Char} (h : StopsAt p (cs ++ ds)) :
    StopsAt p cs := by
  cases cs with
  | nil =>
      intro c hc
      cases hc
  | cons c cs => exact h

theorem StopsAt.append {p : Char → Bool} {cs ds : List Char} (hcs : StopsAt p cs)
    (hds : StopsAt p ds) : StopsAt p (cs ++ ds) := by
  cases cs with
  | nil => exact hds
  | cons c cs => exact hcs

/-- Whatever stands behind them, blanks are skipped. -/
theorem IsBlanks.dropWhile_append {cs : List Char} (h : IsBlanks cs) (ds : List Char) :
    (cs ++ ds).dropWhile Text.isBlank = ds.dropWhile Text.isBlank :=
  List.dropWhile_append_of_pos h

theorem IsBlanks.dropWhile {cs : List Char} (h : IsBlanks cs) : cs.dropWhile Text.isBlank = [] := by
  have hnone := h.dropWhile_append []
  rwa [List.append_nil] at hnone

theorem IsBlanks.eq_nil {cs ds : List Char} (h : IsBlanks cs)
    (hstop : StopsAt Text.isBlank (cs ++ ds)) : cs = [] := by
  cases cs with
  | nil => rfl
  | cons c cs =>
      have hblank : Text.isBlank c = true := h c List.mem_cons_self
      have hnone : Text.isBlank c = false := hstop c rfl
      rw [hblank] at hnone
      cases hnone

/-- Where the run of blanks that characters begin with does not reach the end of them, what is
    appended to them does not make it longer. -/
theorem dropWhile_append_of_ne_nil {cs : List Char} (h : cs.dropWhile Text.isBlank ≠ [])
    (ds : List Char) :
    (cs ++ ds).dropWhile Text.isBlank = cs.dropWhile Text.isBlank ++ ds := by
  rw [List.dropWhile_append, if_neg (by rwa [List.isEmpty_iff])]

theorem stopsAt_nil (p : Char → Bool) : StopsAt p [] := by
  intro c hc
  cases hc

theorem isBlanks_of_dropWhile {cs : List Char} (h : cs.dropWhile Text.isBlank = []) :
    IsBlanks cs := by
  rw [← List.takeWhile_append_dropWhile (p := Text.isBlank) (l := cs), h, List.append_nil]
  exact isBlanks_takeWhile cs

/-- What is seen across the blanks that two pieces begin with is seen in one of the pieces. -/
theorem stopsAt_dropWhile_append {p : Char → Bool} {cs ds : List Char}
    (hcs : StopsAt p (cs.dropWhile Text.isBlank)) (hds : StopsAt p (ds.dropWhile Text.isBlank)) :
    StopsAt p ((cs ++ ds).dropWhile Text.isBlank) := by
  by_cases hblanks : cs.dropWhile Text.isBlank = []
  · rw [(isBlanks_of_dropWhile hblanks).dropWhile_append]
    exact hds
  · rw [dropWhile_append_of_ne_nil hblanks]
    rcases List.exists_cons_of_ne_nil hblanks with ⟨x, xs, hx⟩
    rw [hx] at hcs ⊢
    exact hcs

/-- A reader that takes no blanks is stopped at once by what stops it across blanks. -/
theorem stopsAt_of_dropWhile {p : Char → Bool} (hp : ∀ c, p c = true → Text.isBlank c = false)
    {rest : List Char} (h : StopsAt p (rest.dropWhile Text.isBlank)) : StopsAt p rest := by
  cases rest with
  | nil => exact stopsAt_nil p
  | cons c rest =>
      by_cases hc : Text.isBlank c = true
      · -- A blank in front stops the reader by itself.
        refine stopsAt_cons ?_ rest
        rw [Bool.eq_false_iff]
        intro hpc
        rw [hp c hpc] at hc
        cases hc
      · rw [List.dropWhile_cons_of_neg hc] at h
        exact h

theorem isEscapable_iff {quote c : Char} :
    isEscapable quote c = true ↔ c = quote ∨ c = '\\' ∨ c = ',' ∨ c = ':' := by
  simp only [isEscapable, Bool.or_eq_true, beq_iff_eq, or_assoc]

theorem isQuote_iff {c : Char} : isQuote c = true ↔ c = '\'' ∨ c = '"' := by
  simp only [isQuote, Bool.or_eq_true, beq_iff_eq]

theorem isArgumentEnd_iff {c : Char} : isArgumentEnd c = true ↔ c = ',' ∨ c = '|' ∨ c = '}' := by
  simp only [isArgumentEnd, Bool.or_eq_true, beq_iff_eq, or_assoc]

/-- The characters of a bare argument, as its reader tells them from others. -/
theorem isArgumentEnd_eq_false_iff {c : Char} :
    isArgumentEnd c = false ↔ c ≠ ',' ∧ c ≠ '|' ∧ c ≠ '}' := by
  rw [← Bool.not_eq_true, isArgumentEnd_iff, not_or, not_or]

theorem stopsAt_isQuote_iff {cs : List Char} :
    StopsAt isQuote cs ↔ ∀ c ∈ cs.head?, c ≠ '\'' ∧ c ≠ '"' := by
  unfold StopsAt
  simp only [← Bool.not_eq_true, isQuote_iff, not_or]

theorem isQuote_of_isArgumentEnd {c : Char} (h : isArgumentEnd c = true) : isQuote c = false := by
  rcases isArgumentEnd_iff.mp h with rfl | rfl | rfl
  · decide
  · decide
  · decide

theorem isArgumentEnd_of_isBlank {c : Char} (h : Text.isBlank c = true) :
    isArgumentEnd c = false := by
  rw [← Bool.not_eq_true]
  intro hend
  rw [isBlank_of_isArgumentEnd hend] at h
  cases h

theorem trim_append_blanks (cs : List Char) {blanks : List Char} (h : IsBlanks blanks) :
    Text.trim (String.ofList (cs ++ blanks)) = Text.trim (String.ofList cs) := by
  have hreverse : IsBlanks blanks.reverse := fun c hc => h c (List.mem_reverse.mp hc)
  simp only [Text.trim, Text.trimLeft, Text.trimRight, String.toList_ofList]
  -- Text that is all blanks has nothing left to trim at its end.
  by_cases hcs : cs.dropWhile Text.isBlank = []
  · rw [(isBlanks_of_dropWhile hcs).dropWhile_append, h.dropWhile, hcs]
  · rw [dropWhile_append_of_ne_nil hcs, List.reverse_append, hreverse.dropWhile_append]

/-- Blanks behind an argument do not count, whether or not it is quoted. -/
theorem IsArgument.append_blanks {cs blanks : List Char} {arg : String} (h : IsArgument cs arg)
    (hblanks : IsBlanks blanks) : IsArgument (cs ++ blanks) arg := by
  cases h with
  | @quoted quote before body after s hquote hbefore hbody hafter =>
      have hassoc : before ++ quote :: (body ++ quote :: after) ++ blanks =
          before ++ quote :: (body ++ quote :: (after ++ blanks)) := by
        simp only [List.append_assoc, List.cons_append]
      rw [hassoc]
      exact .quoted hquote hbefore hbody (hafter.append hblanks)
  | bare hrun hfirst =>
      -- The blanks join the run. They end no argument, and no quote is hidden behind them.
      rw [← trim_append_blanks cs hblanks]
      refine .bare (fun c hc => ?_) ?_
      · rcases List.mem_append.mp hc with hc | hc
        · exact hrun c hc
        · exact isArgumentEnd_eq_false_iff.mp (isArgumentEnd_of_isBlank (hblanks c hc))
      · rw [← stopsAt_isQuote_iff] at hfirst ⊢
        refine stopsAt_dropWhile_append hfirst ?_
        rw [hblanks.dropWhile]
        exact stopsAt_nil isQuote

theorem IsArguments.append_blanks {cs blanks : List Char} {args : List String}
    (h : IsArguments cs args) (hblanks : IsBlanks blanks) : IsArguments (cs ++ blanks) args := by
  induction h with
  | last harg => exact .last (harg.append_blanks hblanks)
  | more harg _ ih =>
      rw [List.append_assoc, List.cons_append]
      exact .more harg ih

theorem IsArguments.ne_nil {cs : List Char} {args : List String} (h : IsArguments cs args) :
    args ≠ [] := by
  cases h with
  | last => exact List.cons_ne_nil _ _
  | more => exact List.cons_ne_nil _ _

/-- Blanks behind a filter with arguments can be taken for a part of the last one. -/
theorem IsCall.append_blanks {cs blanks : List Char} {call : String × List String}
    (h : IsCall cs call) (hargs : call.2 ≠ []) (hblanks : IsBlanks blanks) :
    IsCall (cs ++ blanks) call := by
  cases h with
  | plain => exact absurd rfl hargs
  | applied hbefore hname hbetween harguments =>
      simp only [List.append_assoc, List.cons_append]
      exact .applied hbefore hname hbetween (harguments.append_blanks hblanks)

end Letterpress
